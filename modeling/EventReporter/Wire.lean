namespace EventReporter

/-!
# Limits and errors of the wire format

The sizes that every record obeys, and what can go wrong with its bytes. Names are counted in
bytes, because the record gives them fixed byte fields; a record and its strings are counted in
bytes as well, and arrays in elements.

* `Limits.recordBytes` : the largest record; the other limits stand beside it.
* `WireError` : one constructor for each cause; `WireError.message` words it.
-/

/-! ### Limits -/

namespace Limits

/-- Longest domain, in bytes. -/
def domainBytes : Nat := 16

/-- Longest event name, in bytes. -/
def eventNameBytes : Nat := 32

/-- Longest parameter key, in bytes. -/
def keyBytes : Nat := 48

/-- Most parameters that one event carries. -/
def params : Nat := 128

/-- Most elements of an array parameter. -/
def elements : Nat := 100

/-- Longest string value, in bytes. -/
def stringBytes : Nat := 256 * 1024

/-- Largest record, in bytes. -/
def recordBytes : Nat := 384 * 1024

end Limits

/-! ### Errors -/

/-- A failure to write or to read the bytes of a record. -/
inductive WireError where
  /-- `requested` bytes do not fit into the `remaining` bytes of a buffer. -/
  | overflow (requested remaining : Nat)
  /-- `length` bytes at `offset` are not all inside a buffer of `size` bytes. -/
  | updateOutOfRange (offset length size : Nat)
  /-- Something that ends no earlier than byte `expected` was read from `actual` bytes. -/
  | tooShort (expected actual : Nat)
  /-- The number that starts at `offset` is malformed or too large. -/
  | badVarint (offset : Nat)
  /-- No parameter type has this code. -/
  | unknownValueType (code : Nat)
  /-- No event type has this code. -/
  | unknownEventType (code : Int)
  /-- A number does not fit the type named `target`. -/
  | outOfRange (value : Int) (target : String)
  /-- The text called `what` is not well-formed UTF-8. -/
  | badUtf8 (what : String)
  /-- An array claims more elements than `max`. -/
  | tooManyElements (count max : Nat)
  /-- A declared length or count disagrees with what is there. -/
  | lengthMismatch (declared : Int) (actual : Nat)
deriving DecidableEq, Repr

namespace WireError

/-- The wording of an error. -/
def message : WireError → String
  | overflow requested remaining =>
    s!"buffer overflow: {requested} bytes requested, {remaining} bytes remaining"
  | updateOutOfRange offset length size =>
    s!"update out of range: {length} bytes at offset {offset}, buffer holds {size}"
  | tooShort expected actual =>
    s!"message too short: expected at least {expected} bytes, got {actual}"
  | badVarint offset => s!"invalid varint at offset {offset}"
  | unknownValueType code => s!"invalid value type: {code}"
  | unknownEventType code => s!"invalid event type: {code}"
  | outOfRange value target => s!"value {value} out of range for {target}"
  | badUtf8 what => s!"invalid utf-8 in {what}"
  | tooManyElements count max => s!"array too large: {count} elements exceeds maximum {max}"
  | lengthMismatch declared actual =>
    s!"length prefix {declared} does not match record size {actual}"

/-- Whether a size limit was the cause. -/
def isOverflow : WireError → Bool
  | overflow .. => true
  | _ => false

end WireError

end EventReporter
