import EventReporter.Buffer
namespace EventReporter.Buffer

/-!
# Histories of a buffer

What becomes of a buffer to which bytes are added, in which they are replaced, and from which they
are taken, and what becomes of a plain list of bytes in its place.
-/

/-- What can be done with a buffer. -/
inductive Op where
  /-- Bytes are added at the end. -/
  | append (bs : List UInt8)
  /-- A byte is added at the end. -/
  | appendByte (x : UInt8)
  /-- Bytes are written over those at `offset`. -/
  | update (offset : Nat) (bs : List UInt8)
  /-- All bytes are dropped. -/
  | reset
  /-- All bytes are taken out. -/
  | take
  /-- All bytes are copied. -/
  | copy
deriving DecidableEq, Repr

/-- How an operation ends: with the bytes that it hands out, or with a refusal. -/
abbrev Answer : Type :=
  Except WireError (List UInt8)

/-- How some operations end, one after the other, and what is there after them. -/
def Op.run {σ : Type} (step : σ → Op → Answer × σ) (s : σ) : List Op → List Answer × σ
  | [] => ([], s)
  | op :: ops =>
    let rest := run step (step s op).2 ops
    ((step s op).1 :: rest.1, rest.2)

/-! ### Buffers -/

/-- The buffer that goes on: the new one, or the old one after a refusal. -/
def goesOn (b : Buffer) : Except WireError Buffer → Answer × Buffer
  | .ok b' => (.ok [], b')
  | .error e => (.error e, b)

/-- How an operation on a buffer ends, and the buffer after it. -/
def step (b : Buffer) : Op → Answer × Buffer
  | .append bs => b.goesOn (b.append bs)
  | .appendByte x => b.goesOn (b.append [x])
  | .update offset bs => b.goesOn (b.update offset bs)
  | .reset => (.ok [], b.reset)
  | .take => (.ok b.take.1, b.take.2)
  | .copy => (.ok b.toList, b)

/-- How some operations on a buffer end, and the buffer after them. -/
def run (b : Buffer) (ops : List Op) : List Answer × Buffer :=
  Op.run step b ops

/-! ### Plain lists -/

/-- Bytes with others in place of those from `offset` on, as far as there are any. -/
def overwrite (bytes : List UInt8) (offset : Nat) (bs : List UInt8) : List UInt8 :=
  bytes.mapIdx fun i x => if offset ≤ i then bs[i - offset]?.getD x else x

/-- How an operation ends on a plain list that may have `limit` bytes, and the list after it. -/
def listStep (limit : Nat) (bytes : List UInt8) : Op → Answer × List UInt8
  | .append bs =>
    if bytes.length + bs.length ≤ limit then (.ok [], bytes ++ bs)
    else (.error (.overflow bs.length (limit - bytes.length)), bytes)
  | .appendByte x =>
    if bytes.length < limit then (.ok [], bytes ++ [x])
    else (.error (.overflow 1 (limit - bytes.length)), bytes)
  | .update offset bs =>
    if offset + bs.length ≤ bytes.length then (.ok [], overwrite bytes offset bs)
    else (.error (.updateOutOfRange offset bs.length bytes.length), bytes)
  | .reset => (.ok [], [])
  | .take => (.ok bytes, [])
  | .copy => (.ok bytes, bytes)

/-- How some operations end on a plain list that is empty and may have `limit` bytes, and the list
    after them. -/
def listRun (limit : Nat) (ops : List Op) : List Answer × List UInt8 :=
  Op.run (listStep limit) [] ops

end EventReporter.Buffer
