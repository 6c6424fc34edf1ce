import EventReporter.ElementType
import EventReporter.Text.Cut
namespace EventReporter

/-!
# Parameter values

A value is one element or an array of elements of one type. Values are shortened before they are
written: strings to a number of bytes, arrays to a number of elements.

* `cutArray_cutArray` : cutting an array again changes nothing.
-/

/-- The value of a parameter. -/
inductive Value where
  /-- One element. -/
  | scalar (t : ElementType) (x : t.Carrier)
  /-- An array. -/
  | array (t : ElementType) (xs : List t.Carrier)

namespace Value

instance : DecidableEq Value
  | scalar t x, scalar u y =>
    if h : t = u then
      decidable_of_iff (h ▸ x = y) (by subst h; simp)
    else isFalse (by simp [h])
  | array t xs, array u ys =>
    if h : t = u then
      decidable_of_iff (h ▸ xs = ys) (by subst h; simp)
    else isFalse (by simp [h])
  | scalar .., array .. => isFalse (by simp)
  | array .., scalar .. => isFalse (by simp)

/-- The type of the element or elements. -/
def type : Value → ElementType
  | scalar t _ => t
  | array t _ => t

/-- The number of elements of an array. -/
def arraySize? : Value → Option Nat
  | scalar .. => none
  | array _ xs => some xs.length

/-- The type byte that goes with a value. -/
def typeByte (v : Value) : TypeByte :=
  .new (some v.type) v.arraySize?.isSome

/-! ### Cutting -/

/-- Cuts every string to `max` bytes, and says whether one was longer. -/
def cutStrings (max : Nat) : Value → Value × Bool
  | scalar .string s => (scalar .string (Text.cut max s), Text.exceeds max s)
  | array .string ss => (array .string (ss.map (Text.cut max)), ss.any (Text.exceeds max))
  | v => (v, false)

/-- Cuts an array to `max` elements, and says whether it had more. -/
def cutArray (max : Nat) : Value → Value × Bool
  | array t xs => (array t (xs.take max), decide (max < xs.length))
  | v => (v, false)

/-- `cutArray` leaves no array that it would cut again. -/
theorem cutArray_cutArray (max : Nat) (v : Value) :
    (v.cutArray max).1.cutArray max = ((v.cutArray max).1, false) := by
  cases v with
  | scalar t x => rfl
  | array t xs =>
    simp only [cutArray, List.take_take, Nat.min_self, List.length_take, Prod.mk.injEq, true_and,
      decide_eq_false_iff_not]
    omega

end Value

end EventReporter
