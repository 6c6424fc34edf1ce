import EventReporter.Proofs.Draft.Tidy
namespace EventReporter

/-!
# Values that go into a record whole

A value whose strings and whose elements are not too many goes into a record as it is, an array
without elements apart, which has lost its type. Any other value is shortened, and then differs from
what it was.

* `Value.tidied_eq_plain_iff` : which values are shortened.
* `Value.tidied_tidied` : what has been shortened goes in whole.
-/

/-! ### Elements -/

namespace ElementType

/-- A string has too many bytes. -/
def TooLong : (t : ElementType) → t.Carrier → Prop
  | string, s => Limits.stringBytes < String.utf8ByteSize s
  | bool, _ | signed _, _ | unsigned _, _ | float, _ | double, _ => False

instance : (t : ElementType) → DecidablePred t.TooLong
  | string => fun s => inferInstanceAs (Decidable (Limits.stringBytes < String.utf8ByteSize s))
  | bool | signed _ | unsigned _ | float | double => fun _ => inferInstanceAs (Decidable False)

/-- `tidied` leaves an element alone exactly if it is not `TooLong`. -/
theorem tidied_eq_iff (t : ElementType) (x : t.Carrier) : t.tidied x = x ↔ ¬ t.TooLong x := by
  cases t with
  | string =>
    constructor
    · intro h
      have hle := Text.utf8ByteSize_cut_le Limits.stringBytes x
      rw [show Text.cut Limits.stringBytes x = x from h] at hle
      exact Nat.not_lt_of_le hle
    · exact fun h => Text.cut_of_fits (Nat.le_of_not_lt h)
  | _ => exact iff_of_true rfl not_false

/-- `tidied` leaves all elements alone exactly if none is `TooLong`. -/
theorem map_tidied_eq_iff (t : ElementType) (xs : List t.Carrier) :
    xs.map t.tidied = xs ↔ ∀ x ∈ xs, ¬ t.TooLong x := by
  have hall := List.map_inj_left (f := t.tidied) (g := id) (l := xs)
  rw [List.map_id] at hall
  exact hall.trans (forall₂_congr fun x _ => t.tidied_eq_iff x)

/-- `tidied` leaves no element `TooLong`. -/
theorem not_tooLong_tidied (t : ElementType) (x : t.Carrier) : ¬ t.TooLong (t.tidied x) := by
  cases t with
  | string => exact Nat.not_lt_of_le (Text.utf8ByteSize_cut_le Limits.stringBytes x)
  | _ => exact not_false

end ElementType

/-! ### Values -/

namespace Value

/-- Some string of a value has too many bytes. -/
def HasLongString : Value → Prop
  | scalar t x => t.TooLong x
  | array t xs => ∃ x ∈ xs, t.TooLong x

/-- A value is an array of too many elements. -/
def HasLongArray : Value → Prop
  | scalar .. => False
  | array _ xs => Limits.elements < xs.length

instance : DecidablePred HasLongString
  | scalar t x => inferInstanceAs (Decidable (t.TooLong x))
  | array t xs => inferInstanceAs (Decidable (∃ x ∈ xs, t.TooLong x))

instance : DecidablePred HasLongArray
  | scalar .. => inferInstanceAs (Decidable False)
  | array _ xs => inferInstanceAs (Decidable (Limits.elements < xs.length))

/-- A value of which nothing is lost. Without elements an array is one of booleans. -/
def plain (v : Value) : Value :=
  if v.arraySize? = some 0 then Draft.emptyArray else v

/-- `cutStrings` reports that it cut exactly if the value `HasLongString`. -/
theorem cutStrings_snd (v : Value) :
    (v.cutStrings Limits.stringBytes).2 = true ↔ v.HasLongString := by
  cases v with
  | scalar t x =>
    cases t with
    | string => exact decide_eq_true_iff
    | _ => exact iff_of_false nofun not_false
  | array t xs =>
    cases t with
    | string =>
      exact List.any_eq_true.trans
        (exists_congr fun s => and_congr_right fun _ => decide_eq_true_iff)
    | _ => exact iff_of_false nofun fun ⟨_, _, h⟩ => h

/-- `cutArray` reports that it cut exactly if the value `HasLongArray`, the strings of which have
    been cut before. -/
theorem cutArray_snd (v : Value) :
    ((v.cutStrings Limits.stringBytes).1.cutArray Limits.elements).2 = true ↔ v.HasLongArray := by
  cases v with
  | scalar t x =>
    rw [cutStrings_scalar]
    exact iff_of_false nofun not_false
  | array t xs =>
    rw [cutStrings_array]
    simp only [cutArray, List.length_map, decide_eq_true_eq, HasLongArray]

/-- `plain` changes empty arrays only. -/
theorem plain_array_cons (t : ElementType) (x : t.Carrier) (xs : List t.Carrier) :
    (array t (x :: xs)).plain = array t (x :: xs) :=
  if_neg nofun

/-- Whatever is too long is shortened, and nothing else: `tidied` and `plain` treat an empty array
    alike. -/
theorem tidied_eq_plain_iff (v : Value) :
    v.tidied = v.plain ↔ ¬ v.HasLongString ∧ ¬ v.HasLongArray := by
  cases v with
  | scalar t x =>
    have hplain : (scalar t x).plain = scalar t x := if_neg nofun
    rw [tidied_scalar, hplain]
    simp only [scalar.injEq, heq_eq_eq, true_and, t.tidied_eq_iff, HasLongString, HasLongArray,
      not_false_eq_true, and_true]
  | array t xs =>
    cases xs with
    | nil =>
      rw [tidied_array_nil]
      exact iff_of_true rfl ⟨fun ⟨_, h, _⟩ => List.not_mem_nil h, Nat.not_lt_zero _⟩
    | cons x xs =>
      rw [tidied_array_cons, plain_array_cons]
      simp only [array.injEq, heq_eq_eq, true_and, HasLongString, HasLongArray, not_exists, not_and,
        Nat.not_lt]
      constructor
      · intro h
        -- an array that has lost elements is not the one that it was
        have hlength := congrArg List.length h
        rw [List.length_map, List.length_take] at hlength
        have hle : (x :: xs).length ≤ Limits.elements := by omega
        rw [List.take_of_length_le hle, t.map_tidied_eq_iff] at h
        exact ⟨h, hle⟩
      · rintro ⟨hshort, hle⟩
        rw [List.take_of_length_le hle]
        exact (t.map_tidied_eq_iff _).mpr hshort

/-- `tidied` does what `plain` does, so it makes no difference to do that first. -/
theorem tidied_plain (v : Value) : v.plain.tidied = v.tidied := by
  unfold plain
  split
  · next h =>
    cases v with
    | scalar t x => cases h
    | array t xs =>
      cases xs with
      | nil => rw [tidied_array_nil, Draft.emptyArray, tidied_array_nil]
      | cons x xs => cases h
  · rfl

/-- `plain` has nothing to do behind `tidied`, which leaves no empty array but one of flags. -/
theorem plain_tidied (v : Value) : v.tidied.plain = v.tidied := by
  unfold tidied
  simp only
  split
  · rfl
  · next h => exact if_neg h

/-- `tidied` leaves no text that is too long. -/
theorem not_hasLongString_tidied (v : Value) : ¬ v.tidied.HasLongString := by
  cases v with
  | scalar t x =>
    rw [tidied_scalar]
    exact t.not_tooLong_tidied x
  | array t xs =>
    cases xs with
    | nil =>
      rw [tidied_array_nil]
      exact fun ⟨_, h, _⟩ => List.not_mem_nil h
    | cons x xs =>
      rw [tidied_array_cons]
      rintro ⟨y, hy, hlong⟩
      obtain ⟨z, -, rfl⟩ := List.mem_map.mp hy
      exact t.not_tooLong_tidied z hlong

/-- `tidied` leaves no array that is too long, by `fitsArray_tidied`. -/
theorem not_hasLongArray_tidied (v : Value) : ¬ v.tidied.HasLongArray := by
  have hfits := v.fitsArray_tidied
  cases htidied : v.tidied with
  | scalar t x => exact not_false
  | array t xs =>
    rw [htidied] at hfits
    exact Nat.not_lt_of_le (hfits xs.length rfl)

/-- There is nothing left to be shortened: by `tidied_eq_plain_iff`, as nothing is too long any
    more. -/
theorem tidied_tidied (v : Value) : v.tidied.tidied = v.tidied := by
  have hwhole := (tidied_eq_plain_iff v.tidied).mpr
    ⟨v.not_hasLongString_tidied, v.not_hasLongArray_tidied⟩
  rw [hwhole, plain_tidied]

end Value

end EventReporter
