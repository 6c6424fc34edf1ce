import EventReporter.Header
import EventReporter.Proofs.Text.Cut
import EventReporter.Value
namespace EventReporter.Value

/-!
# Cutting values

Strings are cut to the longest part from their start that keeps to the limit, in a header as in a
value, and arrays to their first elements. What is said about a value is true exactly if something
is missing from it.

* `stringsCut_cutStrings`, `arrayCut_cutArray` : what is left of a value.
* `cutStringsBack?_eq` : to search for the places to cut at comes to the same.
-/

/-! ### Strings -/

/-- What is left of a value whose strings are cut to `max` bytes, and whether one was shortened. -/
inductive StringsCut (max : Nat) : Value → Value → Bool → Prop where
  /-- A string is cut. -/
  | scalar {s t : String} {shorter : Bool} (hcut : Text.Shortened max s t)
    (hshorter : shorter = true ↔ t ≠ s) :
    StringsCut max (.scalar .string s) (.scalar .string t) shorter
  /-- Every string of an array is cut. -/
  | array {ss ts : List String} {shorter : Bool} (hcut : List.Forall₂ (Text.Shortened max) ss ts)
    (hshorter : shorter = true ↔ ∃ p ∈ ss.zip ts, p.2 ≠ p.1) :
    StringsCut max (.array .string ss) (.array .string ts) shorter
  /-- Values without strings stay as they are. -/
  | other {v : Value} (h : v.type ≠ .string) : StringsCut max v v false

/-- A value is a string, an array of strings, or without strings. These are the cases of
    `cutStrings`. -/
theorem strings_cases {P : Value → Prop} (hscalar : ∀ s : String, P (.scalar .string s))
    (harray : ∀ ss : List String, P (.array .string ss))
    (hother : ∀ v : Value, v.type ≠ .string → P v) (v : Value) : P v := by
  by_cases h : v.type = .string
  · cases v with
    | scalar t s =>
      obtain rfl : t = .string := h
      exact hscalar s
    | array t ss =>
      obtain rfl : t = .string := h
      exact harray ss
  · exact hother v h

/-- `cutStrings` leaves a value without strings alone. -/
theorem cutStrings_of_other {v : Value} (h : v.type ≠ .string) (max : Nat) :
    v.cutStrings max = (v, false) := by
  unfold cutStrings
  split
  · exact absurd rfl h
  · exact absurd rfl h
  · rfl

/-- `cutStrings` shortens every string of a value for itself, and tells if it changed any. -/
theorem stringsCut_cutStrings (max : Nat) (v : Value) :
    StringsCut max v (v.cutStrings max).1 (v.cutStrings max).2 := by
  cases v using strings_cases with
  | hscalar s => exact .scalar (Text.shortened_cut max s) Text.exceeds_iff
  | harray ss => exact .array (Text.forall₂_shortened max ss) (Text.any_exceeds_iff max ss)
  | hother v h =>
    rw [cutStrings_of_other h]
    exact .other h

/-- There is nothing left to be cut for a second `cutStrings`. -/
theorem cutStrings_cutStrings (max : Nat) (v : Value) :
    (v.cutStrings max).1.cutStrings max = ((v.cutStrings max).1, false) := by
  cases v using strings_cases with
  | hscalar s =>
    exact Prod.ext (congrArg (scalar .string) (Text.cut_cut max s)) (Text.exceeds_cut max s)
  | harray ss =>
    exact Prod.ext (congrArg (array .string) (Text.map_cut_map_cut max ss))
      (Text.any_exceeds_map_cut max ss)
  | hother v h => rw [cutStrings_of_other h, cutStrings_of_other h]

/-- Cuts every string of a value where the search from the limit down ends. -/
def cutStringsBack? (max : Nat) : Value → Option (Value × Bool)
  | scalar .string s => (Text.cutBack? max s).map fun (t, cut) => (scalar .string t, cut)
  | array .string ss =>
    (Text.cutEach? max ss false).map fun (ts, shorter) => (array .string ts, shorter)
  | v => some (v, false)

/-- `cutStringsBack?`, which searches for boundaries in the bytes, does the same as
    `cutStrings`. -/
theorem cutStringsBack?_eq (max : Nat) (v : Value) :
    v.cutStringsBack? max = some (v.cutStrings max) := by
  cases v using strings_cases with
  | hscalar s => exact congrArg (Option.map _) (Text.cutBack?_eq max s)
  | harray ss =>
    have heach := Text.cutEach?_eq max ss false
    rw [Bool.or_false] at heach
    exact congrArg (Option.map _) heach
  | hother v h =>
    rw [cutStrings_of_other h]
    unfold cutStringsBack?
    split
    · exact absurd rfl h
    · exact absurd rfl h
    · rfl

/-! ### Arrays -/

/-- What is left of a value that is cut to `max` elements, and whether there were more. -/
inductive ArrayCut (max : Nat) : Value → Value → Bool → Prop where
  /-- The first elements of an array are left. -/
  | array (t : ElementType) (xs : List t.Carrier) {dropped : Bool}
    (hdropped : dropped = true ↔ xs.drop max ≠ []) :
    ArrayCut max (.array t xs) (.array t (xs.take max)) dropped
  /-- A single element stays as it is. -/
  | scalar (t : ElementType) (x : t.Carrier) : ArrayCut max (.scalar t x) (.scalar t x) false

/-- `cutArray` keeps the first elements of an array, and tells if there were more. -/
theorem arrayCut_cutArray (max : Nat) (v : Value) :
    ArrayCut max v (v.cutArray max).1 (v.cutArray max).2 := by
  cases v with
  | scalar t x => exact .scalar t x
  | array t xs =>
    have hdropped : decide (max < xs.length) = true ↔ xs.drop max ≠ [] := by
      rw [decide_eq_true_iff, Ne, List.drop_eq_nil_iff, Nat.not_le]
    exact .array t xs hdropped

/-! ### Any limit -/

/-- Text is cut to the longest part that keeps to the limit, at most three bytes below it, where the
    search from the limit down ends; so are the names in a header, and every string of a value. An
    array of too many elements is cut to the first of them. To cut a value again changes nothing. -/
theorem cut_keeps_longest (max : Nat) :
    (∀ s : String,
      Text.Shortened max s (Text.cut max s) ∧
        Text.cutBack? max s = some (Text.cut max s, decide (Text.cut max s ≠ s)) ∧
        if s.utf8ByteSize ≤ max then Text.cut max s = s
        else Text.lastBoundary? (Text.utf8 s) max = some (Text.cut max s).utf8ByteSize ∧
          max ≤ (Text.cut max s).utf8ByteSize + 3) ∧
      (∀ (domain name : String) (type : EventType),
        let h := Header.new domain name type
        Text.Shortened Limits.domainBytes domain h.domain ∧
          (Text.cutBack? Limits.domainBytes domain).map Prod.fst = some h.domain ∧
          Text.Shortened Limits.eventNameBytes name h.name ∧
          (Text.cutBack? Limits.eventNameBytes name).map Prod.fst = some h.name) ∧
      ∀ v : Value,
        StringsCut max v (v.cutStrings max).1 (v.cutStrings max).2 ∧
          v.cutStringsBack? max = some (v.cutStrings max) ∧
          (v.cutStrings max).1.cutStrings max = ((v.cutStrings max).1, false) ∧
          ArrayCut max v (v.cutArray max).1 (v.cutArray max).2 ∧
          (v.cutArray max).1.cutArray max = ((v.cutArray max).1, false) := by
  refine ⟨fun s => ⟨Text.shortened_cut max s, ?_, ?_⟩, fun domain name type => ?_, fun v => ?_⟩
  · have hexceeds : Text.exceeds max s = decide (Text.cut max s ≠ s) :=
      Bool.eq_iff_iff.mpr (Text.exceeds_iff.trans decide_eq_true_iff.symm)
    rw [Text.cutBack?_eq, hexceeds]
  · split
    · next hfits => exact Text.cut_of_fits hfits
    · next hlong =>
      have hexceeds : max < s.utf8ByteSize := Nat.not_le.mp hlong
      exact ⟨Text.lastBoundary?_utf8 hexceeds, Text.le_utf8ByteSize_cut hexceeds⟩
  · rw [Text.cutBack?_eq, Text.cutBack?_eq]
    exact ⟨Text.shortened_cut _ domain, rfl, Text.shortened_cut _ name, rfl⟩
  · exact ⟨stringsCut_cutStrings max v, cutStringsBack?_eq max v, cutStrings_cutStrings max v,
      arrayCut_cutArray max v, cutArray_cutArray max v⟩

/-- The second of these texts has a character of two bytes across the limit, the third is short. -/
theorem cut_keeps_longest_two :
    let v : Value := .array .string ["abc", "h\u00e9llo", "a"]
    v.cutStringsBack? 2 = some (v.cutStrings 2) ∧
      v.cutStrings 2 = (.array .string ["ab", "h", "a"], true) ∧
      (v.cutStrings 2).1.cutStrings 2 = ((v.cutStrings 2).1, false) ∧
      v.cutArray 2 = (.array .string ["abc", "h\u00e9llo"], true) := by
  intro v
  obtain ⟨-, -, hvalue⟩ := cut_keeps_longest 2
  obtain ⟨-, hback, hagain, -, -⟩ := hvalue v
  exact ⟨hback, by decide +kernel, hagain, by decide +kernel⟩

end EventReporter.Value
