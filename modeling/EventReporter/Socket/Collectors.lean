import EventReporter.Socket.Network
namespace EventReporter

/-!
# Collectors in a directory

A network with the sockets of one directory, each in one of four states, reached by relative
paths: a collector that listens, none at all, one that went away and left its file, and one that
is too slow.
-/

/-- The state of a socket. -/
inductive SocketState where
  /-- A collector listens. -/
  | bound
  /-- There is no file. -/
  | absent
  /-- There is a file but no collector. -/
  | dead
  /-- A collector listens, but its queue is full. -/
  | full
deriving DecidableEq, Repr

/-- A socket file and what has arrived there. -/
structure Collector where
  /-- The name of the file. -/
  name : String
  /-- The state of the socket. -/
  state : SocketState
  /-- The datagrams that have arrived, oldest first. -/
  inbox : List (List UInt8)
deriving DecidableEq, Repr

namespace SocketState

/-- What a sender is told. -/
def answer : SocketState → Except Fault Unit
  | bound => .ok ()
  | absent => .error .notFound
  | dead => .error .refused
  | full => .error .wouldBlock

end SocketState

/-- The collectors of a directory. -/
abbrev Collectors := List Collector

namespace Collectors

/-- Puts a socket into a state. What was in it is lost. -/
def place (cs : Collectors) (name : String) (state : SocketState) : Collectors :=
  cs.map fun c => if c.name = name then ⟨name, state, []⟩ else c

/-- The steps of a path that lead somewhere: all but the empty ones and `.`. -/
def steps (path : List Char) : List String :=
  ((path.splitOn '/').map String.ofList).filter fun s => s ≠ "" ∧ s ≠ "."

/-- The socket that a path in the directory names, or what stands in the way. A path ends at its
    first zero; a file has nothing below it; what is no socket is not listened to. -/
def resolve (cs : Collectors) (path : String) : Except Fault Collector :=
  let chars := path.toList.takeWhile (· ≠ '\x00')
  if path = "" then .error .invalid
  else if chars = [] then .error .refused
  else if chars.head? = some '/' then
    .error (if steps chars = [] then .refused else .notFound)
  else match steps chars with
    | [] => .error .refused
    | name :: below =>
      match cs.find? fun c => c.name = name ∧ c.state ≠ .absent with
      | none => .error .notFound
      | some c =>
        if below = [] ∧ chars.getLast? ≠ some '/' then .ok c else .error .notDirectory

/-- Sends a datagram to the socket at a path. -/
def sendTo (path : String) (bytes : List UInt8) (cs : Collectors) :
    Except Fault Unit × Collectors :=
  match cs.resolve path with
  | .error f => (.error f, cs)
  | .ok target =>
    match target.state.answer with
    | .error f => (.error f, cs)
    | .ok () =>
      (.ok (), cs.map fun c => if c.name = target.name then ⟨c.name, c.state, c.inbox ++ [bytes]⟩
        else c)

/-- The network of a directory: there are sockets and room enough. -/
def network : Network Collectors where
  openSocket cs := (.ok (), cs)
  reserve _ cs := (.ok (), cs)
  sendTo := sendTo

/-- What has arrived at each socket, and the sockets with empty inboxes. -/
def collect (cs : Collectors) : List (String × List (List UInt8)) × Collectors :=
  (cs.map fun c => (c.name, c.inbox), cs.map fun c => { c with inbox := [] })

end Collectors

end EventReporter
