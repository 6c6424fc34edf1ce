import EventReporter.Outbox
import EventReporter.Route
import EventReporter.Socket.Network
import EventReporter.Status
namespace EventReporter

/-!
# Sending records

Every record goes out as one datagram over a socket of its own, to the collector's socket that
its header asks for. A socket that would have to wait is tried again a fixed number of times.
Records that could not be sent wait in an outbox, and are sent again, oldest first, ahead of the
next record. What the operating system does with a datagram is for a `Network` to answer.

Records are of any type `α` whose bytes are given by `content`.

* `send` : sends what waits, then the record; a record without bytes, or of too many, is refused
  before anything else is done.
-/

/-- Why a record was not sent. -/
inductive SendError where
  /-- The record has no bytes. -/
  | empty
  /-- The record has `size` bytes, more than `max`. -/
  | overSize (size max : Nat)
  /-- There was no socket. -/
  | noSocket (cause : Fault)
  /-- The datagram did not get to `path`; `cause` is what the last of `attempts` met with. -/
  | undelivered (path : String) (attempts : Nat) (cause : Fault)
deriving DecidableEq, Repr

namespace SendError

/-- The wording of an error. -/
def message : SendError → String
  | empty => "record is empty"
  | overSize size max => s!"record size {size} exceeds maximum {max}"
  | noSocket cause => s!"failed to create socket: {cause.message}"
  | undelivered path attempts cause =>
    s!"send to '{path}' failed after {attempts} attempts: {cause.message}"

/-- The status code of an error. -/
def code : SendError → Int
  | empty => Status.emptyRecord
  | overSize .. => Status.overSize
  | noSocket _ => Status.noSocket
  | undelivered .. => Status.sendFailed

/-- Whether the receiver was busy rather than absent. -/
def isRecoverable : SendError → Bool
  | undelivered _ _ cause => cause.isTransient
  | _ => false

end SendError

/-- The sender of records. -/
structure Transport (α : Type) where
  /-- The path of the normal socket. -/
  normalPath : String
  /-- The path of the socket that is served first. -/
  urgentPath : String
  /-- How often a datagram is tried. -/
  attempts : Nat
  /-- The most bytes of a record. -/
  maxSize : Nat
  /-- Records that wait to be sent again. -/
  outbox : Outbox α
  /-- Records that were sent at once. -/
  sent : Nat
  /-- Records that could not be sent at once. -/
  failed : Nat
  /-- Records that were sent from the outbox. -/
  replayed : Nat
deriving DecidableEq, Repr

namespace Transport

variable {α σ : Type}

/-- A sender with an empty outbox, which tries every datagram at least once. -/
def new (normalPath urgentPath : String) (attempts capacity maxSize : Nat) : Transport α :=
  ⟨normalPath, urgentPath, max attempts 1, maxSize, .new capacity, 0, 0, 0⟩

/-- The path that a route leads to. -/
def path (t : Transport α) : Route → String
  | .normal => t.normalPath
  | .urgent => t.urgentPath

/-! ### One datagram -/

/-- What is said when a socket would have to wait. -/
def busyEntry (attempt : Nat) (path : String) : Journal.Entry where
  level := .trace
  target := Journal.source "transport"
  message := "send would block, retrying"
  fields := [("attempt", .number attempt), ("path", .text path)]

/-- What is said when there is no room for the largest record on the way out. -/
def cramped (cause : Fault) (size : Nat) : Journal.Entry where
  level := .warn
  target := Journal.source "transport"
  message := "failed to set send buffer size"
  fields := [("error", .text cause.message), ("size", .number size)]

/-- Tries a datagram `left` more times, after `made` attempts of which the last met with
    `cause`. -/
def attemptFrom (net : Network σ) (path : String) (bytes : List UInt8) :
    (left made : Nat) → (cause : Fault) → Action σ (Except SendError Unit)
  | 0, made, cause => pure (.error (.undelivered path made cause))
  | left + 1, made, _ => do
    match ← outside (net.sendTo path bytes) with
    | .ok () => pure (.ok ())
    | .error cause =>
      -- only a receiver that is busy is worth another attempt
      if cause.isTransient then
        note (busyEntry (made + 1) path)
        attemptFrom net path bytes left (made + 1) cause
      else pure (.error (.undelivered path (made + 1) cause))

/-- Sends a datagram over a fresh socket. -/
def sendOnce (net : Network σ) (t : Transport α) (route : Route) (bytes : List UInt8) :
    Action σ (Except SendError Unit) := do
  match ← outside net.openSocket with
  | .error cause => pure (.error (.noSocket cause))
  | .ok () =>
    -- a socket with too little room is used all the same
    match ← outside (net.reserve t.maxSize) with
    | .ok () => pure ()
    | .error cause => note (cramped cause t.maxSize)
    let path := t.path route
    -- a path that no address has room for counts as no attempt
    if isAddress path then attemptFrom net path bytes t.attempts 0 .wouldBlock
    else pure (.error (.undelivered path 0 .pathTooLong))

/-- Sends a datagram along the route in its header. -/
def sendRouted (net : Network σ) (t : Transport α) (bytes : List UInt8) :
    Action σ (Except SendError Unit) := do
  let route ← Route.choose bytes
  sendOnce net t route bytes

/-! ### The outbox -/

/-- What is said when a record from the outbox could not be sent. -/
def keptEntry (e : SendError) (waiting : Nat) : Journal.Entry where
  level := .debug
  target := Journal.source "transport"
  message := "replay failed, keeping queue"
  fields := [("error", .text e.message), ("queued", .number waiting)]

/-- Sends the records of the outbox, oldest first, up to the first that fails, which is put back.
    The second result adds the records that were sent to those in `done`, last one first. -/
def drain (net : Network σ) (content : α → List UInt8) (t : Transport α) (done : List α) :
    Action σ (Transport α × List α) :=
  match h : t.outbox.pop? with
  | none => pure (t, done.reverse)
  | some (x, outbox) => do
    have _shorter := Outbox.size_of_pop? h
    match ← sendRouted net t (content x) with
    | .ok () =>
      drain net content { t with outbox, replayed := t.replayed + 1 } (x :: done)
    | .error e =>
      -- those behind it are not tried, whatever socket they go to
      note (keptEntry e (outbox.size + 1))
      pure ({ t with outbox := (outbox.putBack x).1 }, done.reverse)
termination_by t.outbox.size

/-! ### One record -/

/-- What became of a record. -/
structure Sending (α : Type) where
  /-- The sender afterwards. -/
  transport : Transport α
  /-- The records that left the outbox before it, in order. -/
  replayed : List α
  /-- The record that the outbox dropped on its account. -/
  dropped : Option α
  /-- Whether it was sent. -/
  result : Except SendError Unit

/-- Sends a record, after those that wait. If it cannot be sent it joins them. -/
def send (net : Network σ) (content : α → List UInt8) (t : Transport α) (x : α) :
    Action σ (Sending α) :=
  let size := (content x).length
  if size = 0 then pure ⟨t, [], none, .error .empty⟩
  else if t.maxSize < size then pure ⟨t, [], none, .error (.overSize size t.maxSize)⟩
  else do
    let (t, replayed) ← drain net content t []
    -- the record is tried even if others still wait
    match ← sendRouted net t (content x) with
    | .ok () => pure ⟨{ t with sent := t.sent + 1 }, replayed, none, .ok ()⟩
    | .error e =>
      let (outbox, dropped) ← t.outbox.enqueue x
      pure ⟨{ t with outbox, failed := t.failed + 1 }, replayed, dropped, .error e⟩

end Transport

end EventReporter
