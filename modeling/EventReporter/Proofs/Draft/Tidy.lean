import EventReporter.Draft
import EventReporter.Proofs.Param
import EventReporter.Proofs.Text.Cut
import Mathlib.Data.List.Forall2
namespace EventReporter

/-!
# What a draft makes of a value

Before a value goes into a record its strings are cut, then its elements beyond the most that an
array may have are left out, and an array without elements becomes one of booleans. What arrives
is this value with its strings escaped.

* `Value.arrivesAs_tidied` : what arrives, element by element.
* `Value.fitsArray_tidied` : no array is longer than a reader accepts.
-/

/-! ### Elements -/

namespace ElementType

/-- `y` is `x`, shortened if it is a string that is too long. -/
def Shortened : (t : ElementType) → t.Carrier → t.Carrier → Prop
  | string, s, s' => Text.Shortened Limits.stringBytes s s'
  | bool, b, b' => b' = b
  | signed _, i, i' => i' = i
  | unsigned _, n, n' => n' = n
  | float, x, x' => x' = x
  | double, x, x' => x' = x

/-- An element as it goes into a record. -/
def tidied : (t : ElementType) → t.Carrier → t.Carrier
  | string, s => Text.cut Limits.stringBytes s
  | bool, b => b
  | signed _, i => i
  | unsigned _, n => n
  | float, x => x
  | double, x => x

/-- `tidied` shortens an element as `Shortened` allows: a text is cut, and nothing else
    changes. -/
theorem shortened_tidied (t : ElementType) (x : t.Carrier) : t.Shortened x (t.tidied x) := by
  cases t with
  | string => exact Text.shortened_cut _ _
  | _ => rfl

end ElementType

/-! ### Values -/

namespace Value

/-- A value as it goes into a record. -/
def tidied (v : Value) : Value :=
  let cut := ((v.cutStrings Limits.stringBytes).1.cutArray Limits.elements).1
  if cut.arraySize? = some 0 then Draft.emptyArray else cut

/-- `w` is what arrives of the value `v`: its elements, or the first of them, with their strings
    shortened and escaped. No elements arrive as no booleans. -/
def ArrivesAs : Value → Value → Prop
  | scalar t x, w => ∃ y, t.Shortened x y ∧ w = (scalar t y).escaped
  | array _ [], w => w = array .bool []
  | array t (x :: xs), w =>
    ∃ ys, List.Forall₂ t.Shortened ((x :: xs).take Limits.elements) ys ∧ w = (array t ys).escaped

/-- `cutStrings` at the limit of a draft is `tidied` for one element. -/
theorem cutStrings_scalar (t : ElementType) (x : t.Carrier) :
    ((scalar t x).cutStrings Limits.stringBytes).1 = scalar t (t.tidied x) := by
  cases t <;> rfl

/-- `cutStrings` at the limit of a draft is `tidied` for each element. -/
theorem cutStrings_array (t : ElementType) (xs : List t.Carrier) :
    ((array t xs).cutStrings Limits.stringBytes).1 = array t (xs.map t.tidied) := by
  cases t with
  | string => rfl
  | _ => exact congrArg (array _) (List.map_id' xs).symm

/-- `tidied` of one element, which is no array that could be cut. -/
theorem tidied_scalar (t : ElementType) (x : t.Carrier) :
    (scalar t x).tidied = scalar t (t.tidied x) := by
  simp only [tidied, cutStrings_scalar]
  exact if_neg nofun

/-- `tidied` makes an empty array one of flags, whatever it was of. -/
theorem tidied_array_nil (t : ElementType) : (array t []).tidied = array .bool [] := by
  simp only [tidied, cutStrings_array]
  exact if_pos rfl

/-- `tidied` of other arrays: the first elements, each of them `tidied`. -/
theorem tidied_array_cons (t : ElementType) (x : t.Carrier) (xs : List t.Carrier) :
    (array t (x :: xs)).tidied = array t (((x :: xs).take Limits.elements).map t.tidied) := by
  simp only [tidied, cutStrings_array, cutArray, List.map_take]
  exact if_neg (by simp [arraySize?, Limits.elements])

/-- What `tidied` makes of a value, escaped, is a form in which that value may arrive. -/
theorem arrivesAs_tidied (v : Value) : v.ArrivesAs v.tidied.escaped := by
  cases v with
  | scalar t x => exact ⟨_, t.shortened_tidied x, congrArg escaped (tidied_scalar t x)⟩
  | array t xs =>
    cases xs with
    | nil => exact congrArg escaped (tidied_array_nil t)
    | cons x xs =>
      refine ⟨_, ?_, congrArg escaped (tidied_array_cons t x xs)⟩
      rw [List.forall₂_map_right_iff]
      exact List.forall₂_same.mpr fun y _ => t.shortened_tidied y

/-- A `tidied` array has no more elements than a reader accepts. -/
theorem fitsArray_tidied (v : Value) : v.tidied.FitsArray := by
  intro n hn
  cases v with
  | scalar t x =>
    rw [tidied_scalar] at hn
    cases hn
  | array t xs =>
    cases xs with
    | nil =>
      rw [tidied_array_nil] at hn
      cases hn
      exact Nat.zero_le _
    | cons x xs =>
      rw [tidied_array_cons] at hn
      cases hn
      rw [List.length_map]
      exact List.length_take_le _ _

/-- `escaped` leaves the size of an array as it is. -/
theorem FitsArray.escaped {v : Value} (h : v.FitsArray) : v.escaped.FitsArray := by
  intro n hn
  refine h n ?_
  cases v with
  | scalar t x => cases hn
  | array t xs =>
    rw [← hn]
    exact congrArg some (List.length_map _).symm

end Value

end EventReporter
