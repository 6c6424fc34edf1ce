import EventReporter.Buffer.History
import EventReporter.Guarded
namespace EventReporter

/-!
# The memory of a buffer

A buffer keeps its bytes in a block of memory. When a block has no room for more bytes, a larger one
takes its place: twice as large, or as large as necessary, but no larger than the limit. Which sizes
these are is found out in machine numbers. A number that does not exist, and bytes that are written
outside of their room, are traps, which no operation may lead into; but memory may run out.
-/

/-- A buffer, and its block of memory. -/
structure Storage where
  /-- The buffer. -/
  buffer : Buffer
  /-- How many bytes there is room for in the block. -/
  capacity : Nat
deriving DecidableEq, Repr

namespace Storage

/-- What ends everything. -/
inductive Halt where
  /-- There is no machine number that is `a + b`. -/
  | sum (a b : Nat)
  /-- There is no machine number that is `a * b`. -/
  | product (a b : Nat)
  /-- There is no machine number that is `a - b`. -/
  | difference (a b : Nat)
  /-- `n` bytes are written behind `size` others in a block of `capacity` bytes. -/
  | overrun (size n capacity : Nat)
  /-- `n` bytes are written over those from `start` to `stop` of `size` bytes. -/
  | misplaced (start stop n size : Nat)
  /-- There is no block of `n` bytes. -/
  | exhausted (n : Nat)
deriving DecidableEq, Repr

/-! ### Numbers and blocks -/

/-- The sum of two machine numbers. -/
def sum (a b : Nat) : Except Halt Nat :=
  match Guarded.sum? .w64 a b with
  | some n => pure n
  | none => throw (.sum a b)

/-- The product of two machine numbers. -/
def product (a b : Nat) : Except Halt Nat :=
  if a * b < Width.w64.count then pure (a * b) else throw (.product a b)

/-- The difference of two machine numbers. -/
def difference (a b : Nat) : Except Halt Nat :=
  if b ≤ a then pure (a - b) else throw (.difference a b)

/-- The size of a block for `n` bytes. The memory may give `spare` bytes more than it is asked for.
    Blocks are smaller than half of all addresses. -/
def block (n spare : Nat) : Except Halt Nat :=
  if n + spare < Width.w64.half then pure (n + spare) else throw (.exhausted (n + spare))

/-! ### Operations -/

/-- Something that is done with a storage. What has been done before a refusal stays. -/
abbrev Work (α : Type) : Type :=
  ExceptT WireError (StateT Storage (Except Halt)) α

/-- The bytes that a fresh storage has room for, unless the limit is lower. -/
def freshBytes : Nat := 256

/-- The storage of a buffer without bytes. -/
def fresh (limit spare : Nat) : Except Halt Storage := do
  let capacity ← block (min freshBytes limit) spare
  pure ⟨.empty limit, capacity⟩

/-- Makes room for `n` bytes behind those that are there. -/
def reserve (n spare : Nat) : Work Unit := do
  let s ← get
  if s.capacity < s.buffer.size + n then
    let capacity ← block (s.buffer.size + n) spare
    set { s with capacity }

/-- Writes bytes behind those that are there. -/
def extend (bs : List UInt8) : Work Unit := do
  let s ← get
  if s.buffer.size + bs.length ≤ s.capacity then
    set { s with buffer := { s.buffer with bytes := s.buffer.bytes ++ bs } }
  else throwThe Halt (.overrun s.buffer.size bs.length s.capacity)

/-- Writes bytes over those from `start` to `stop`. -/
def replace (start stop : Nat) (bs : List UInt8) : Work Unit := do
  let s ← get
  if start ≤ stop ∧ stop ≤ s.buffer.size ∧ start + bs.length = stop then
    let bytes := s.buffer.toList.take start ++ bs ++ s.buffer.toList.drop stop
    set { s with buffer := { s.buffer with bytes := bytes.toArray } }
  else throwThe Halt (.misplaced start stop bs.length s.buffer.size)

/-- The size of a larger block: twice the old one, or as many bytes as are needed if these are more,
    but no more than the limit. -/
def target (limit doubled needed : Nat) : Nat :=
  min (max doubled needed) limit

/-- Adds bytes at the end. -/
def append (bs : List UInt8) (spare : Nat) : Work Unit := do
  let s ← get
  let remaining := s.buffer.remaining
  if remaining < bs.length then
    throw (.overflow bs.length remaining)
  else
    let needed ← sum s.buffer.size bs.length
    if s.capacity < needed then
      let doubled ← product s.capacity 2
      let more ← difference (target s.buffer.limit doubled needed) s.buffer.size
      reserve more spare
    extend bs

/-- Goes on with what is there, or refuses. -/
def orRefuse {α : Type} (x : Option α) (e : WireError) : Work α :=
  match x with
  | some x => pure x
  | none => throw e

/-- Writes bytes over those at `offset`. Here the sum is not trusted to have a machine number. -/
def update (offset : Nat) (bs : List UInt8) : Work Unit := do
  let s ← get
  let stop ← orRefuse ((Guarded.sum? .w64 offset bs.length).filter (· ≤ s.buffer.size))
    (.updateOutOfRange offset bs.length s.buffer.size)
  replace offset stop bs

/-- Takes all bytes out, with the part of the block that they are in. -/
def take : Work (List UInt8) := do
  let s ← get
  let capacity ← difference s.capacity s.buffer.size
  set (Storage.mk s.buffer.reset capacity)
  pure s.buffer.toList

/-! ### Histories -/

/-- An operation, and how many bytes the memory would give on top of what it is asked for. -/
structure Turn where
  /-- The operation. -/
  op : Buffer.Op
  /-- The bytes on top. -/
  spare : Nat
deriving DecidableEq, Repr

/-- What is done in a turn. -/
def perform (t : Turn) : Work (List UInt8) :=
  match t.op with
  | .append bs => do
    append bs t.spare
    pure []
  | .appendByte x => do
    append [x] t.spare
    pure []
  | .update offset bs => do
    update offset bs
    pure []
  | .reset => do
    modify fun s => { s with buffer := s.buffer.reset }
    pure []
  | .take => take
  | .copy => do
    pure (← get).buffer.toList

/-- How some turns end, one after the other, and the storage after them. -/
def run (s : Storage) : List Turn → Except Halt (List Buffer.Answer × Storage)
  | [] => pure ([], s)
  | t :: turns => do
    let (answer, s') ← perform t s
    let (answers, s'') ← run s' turns
    pure (answer :: answers, s'')

/-- How some turns end that begin with a fresh storage, and the storage after them. -/
def runFresh (limit spare : Nat) (turns : List Turn) :
    Except Halt (List Buffer.Answer × Storage) := do
  let s ← fresh limit spare
  s.run turns

end Storage

end EventReporter
