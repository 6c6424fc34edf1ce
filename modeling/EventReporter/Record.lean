import EventReporter.Header
import EventReporter.Param
import EventReporter.Trace
namespace EventReporter

/-!
# Records

A record is its own length as a signed number of 4 bytes, a header, a trace block if the header
says so, the number of parameters as a signed number of 4 bytes, and the parameters. It is
accepted only if its length and its number of parameters account for every byte.

* `decode_declared` : the length at the front of an accepted record is its length.
-/

/-- The contents of a record. String values are escaped, as they travel. -/
structure Record where
  /-- The fixed part. -/
  header : Header
  /-- The trace that the event belongs to. -/
  trace : Option Trace
  /-- The parameters, in order. -/
  params : List Param
deriving DecidableEq

namespace Record

/-- The size of the length at the front. -/
def lengthSize : Nat := 4

/-- The size of the number of parameters. -/
def countSize : Nat := 4

/-- The size of a record without trace and parameters. -/
def minSize : Nat := lengthSize + Header.blockSize + countSize

/-- The signed number in the first four bytes. -/
def leadingInt (data : List UInt8) : Int :=
  LittleEndian.intValue (data.take lengthSize)

/-- The length that a record declares, unless it is missing or negative. -/
def declaredSize? (data : List UInt8) : Option Nat :=
  if data.length < lengthSize then none else (leadingInt data).toNat?

/-- The header of a record. Whatever is wrong with it counts as missing bytes. -/
def peekHeader (data : List UInt8) : Except WireError Header :=
  match Header.read (data.drop lengthSize) with
  | .ok h => .ok h
  | .error _ => .error (.tooShort (lengthSize + Header.blockSize) data.length)

/-- Reads the trace block at `offset`, if there is one: the trace, and the offset behind it. -/
def readTrace (data : List UInt8) (traced : Bool) (offset : Nat) :
    Except WireError (Option Trace × Nat) :=
  if traced then do
    let trace ← Trace.read (data.drop offset)
    pure (some trace, offset + Trace.blockSize)
  else pure (none, offset)

/-- Reads the number of parameters at `offset`. -/
def readCount (data : List UInt8) (offset : Nat) : Except WireError Nat :=
  let field := (data.drop offset).take countSize
  if field.length < countSize then .error (.tooShort (offset + countSize) data.length)
  else match (LittleEndian.intValue field).toNat? with
    | some n => .ok n
    | none => .error (.lengthMismatch (LittleEndian.intValue field) 0)

/-- Reads `count` parameters from `offset` on, which have to end with the last byte. -/
def readParams (data : List UInt8) (count offset : Nat) : Except WireError (List Param) :=
  match (Read.many Param.read count).runAt data offset with
  | (.ok params, behind) =>
    if behind = data.length then .ok params
    else .error (.lengthMismatch (leadingInt data) behind)
  | (.error e, _) => .error e

/-- Reads a record. -/
def decode (data : List UInt8) : Except WireError Record := do
  -- both lengths are looked at before anything else
  if data.length < minSize then throw (.tooShort minSize data.length)
  if leadingInt data ≠ data.length then throw (.lengthMismatch (leadingInt data) data.length)
  let header ← Header.read (data.drop lengthSize)
  let (trace, offset) ← readTrace data header.traced (lengthSize + Header.blockSize)
  let count ← readCount data offset
  let params ← readParams data count (offset + countSize)
  pure ⟨header, trace, params⟩

/-- The first parameter with a key. -/
def get? (r : Record) (key : String) : Option Param :=
  r.params.find? (·.key == key)

/-- Bytes that `decode` accepts state their own number in front. -/
theorem decode_declared {data : List UInt8} {r : Record} (h : decode data = .ok r) :
    leadingInt data = data.length := by
  simp only [decode, bind, Except.bind] at h
  split at h
  · cases h
  · split at h
    · cases h
    · next hsize => exact Decidable.not_not.mp hsize

end Record

end EventReporter
