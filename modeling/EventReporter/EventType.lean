import EventReporter.Wire
namespace EventReporter

/-!
# Event types

The four categories of events. Outside a record they count from 1; in the flag byte of a header
they take two bits and count from 0, and bit 2 says whether a trace block follows.

* `ofCode_code`, `ofCode_of_outOfRange`, `exists_code_eq` : each of the numbers from 1 to 4 is a
  category, and no other.
* `unpackFlags_packFlags` : the flag byte keeps both.
-/

/-- The category of an event. -/
inductive EventType where
  | fault
  | statistic
  | security
  | behavior
deriving DecidableEq, Repr

namespace EventType

/-- The number of a category. -/
def code : EventType → Nat
  | fault => 1
  | statistic => 2
  | security => 3
  | behavior => 4

/-- The category with a number. -/
def ofCode (code : Int) : Except WireError EventType :=
  if code = 1 then .ok fault
  else if code = 2 then .ok statistic
  else if code = 3 then .ok security
  else if code = 4 then .ok behavior
  else .error (.unknownEventType code)

/-- The name of a category. -/
def name : EventType → String
  | fault => "FAULT"
  | statistic => "STATISTIC"
  | security => "SECURITY"
  | behavior => "BEHAVIOR"

/-- The category in the two low bits of a byte. -/
def ofBits (b : UInt8) : EventType :=
  match b.toNat % 4 with
  | 0 => fault
  | 1 => statistic
  | 2 => security
  | _ => behavior

/-- `ofCode` reads the code of a category back. -/
theorem ofCode_code (t : EventType) : ofCode t.code = .ok t := by
  cases t <;> rfl

/-- A code outside of 1 to 4 is refused by `ofCode`, with the code itself in the error. -/
theorem ofCode_of_outOfRange {code : Int} (h : code < 1 ∨ 4 < code) :
    ofCode code = .error (.unknownEventType code) := by
  rw [ofCode, if_neg (by omega), if_neg (by omega), if_neg (by omega), if_neg (by omega)]

/-- The codes 1 to 4 are those of the four categories, so `ofCode_code` and `ofCode_of_outOfRange`
    cover all codes. -/
theorem exists_code_eq {code : Int} (hfirst : 1 ≤ code) (hlast : code ≤ 4) :
    ∃ t : EventType, code = t.code := by
  obtain rfl | rfl | rfl | rfl : code = 1 ∨ code = 2 ∨ code = 3 ∨ code = 4 := by omega
  · exact ⟨fault, rfl⟩
  · exact ⟨statistic, rfl⟩
  · exact ⟨security, rfl⟩
  · exact ⟨behavior, rfl⟩

end EventType

/-- The flag byte of a header. -/
def packFlags (type : EventType) (traced : Bool) : UInt8 :=
  UInt8.ofNat (type.code - 1 + 4 * traced.toNat)

/-- What a flag byte says. -/
def unpackFlags (b : UInt8) : EventType × Bool :=
  (EventType.ofBits b, b.toNat / 4 % 2 == 1)

/-- The flag byte that `packFlags` makes is taken apart by `unpackFlags` again. -/
theorem unpackFlags_packFlags (type : EventType) (traced : Bool) :
    unpackFlags (packFlags type traced) = (type, traced) := by
  cases type <;> cases traced <;> rfl

end EventReporter
