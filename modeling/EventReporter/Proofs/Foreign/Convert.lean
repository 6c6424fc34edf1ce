import EventReporter.Foreign
import EventReporter.Library
import Mathlib.Tactic.IntervalCases
namespace EventReporter.Foreign

/-!
# What C callers mean

What the memory of a C caller holds is one text, one element or one value, or none at all. A
parameter is taken over exactly if its name is a text that ends within its field and its content
holds a value, and else it is its name that is complained about in the first place.

* `text?_eq_some_iff` : which text a pointer leads to.
* `Content.value?_eq_some_iff`, `Content.value?_eq_none_iff` : which value a content holds, and when
  it makes no sense.
* `convert_eq_iff` : what becomes of a parameter.
-/

/-! ### Texts -/

/-- The pointer leads to the UTF-8 bytes of the text, up to a zero. -/
def Points (p : Pointer) (s : String) : Prop :=
  ∃ bytes, p = some bytes ∧ bytes.takeWhile (· != 0) = Text.utf8 s

/-- `ofUtf8?` reads a text off its own bytes only. -/
theorem ofUtf8?_eq_some_iff {bytes : List UInt8} {s : String} :
    Text.ofUtf8? bytes = some s ↔ bytes = Text.utf8 s := by
  refine ⟨fun h => (Text.utf8_of_ofUtf8? h).symm, ?_⟩
  rintro rfl
  exact Text.ofUtf8?_utf8 s

/-- `text?` finds the text that a pointer `Points` to. -/
theorem text?_eq_some_iff {p : Pointer} {s : String} : text? p = some s ↔ Points p s := by
  simp only [text?, Option.bind_eq_some_iff, ofUtf8?_eq_some_iff, Points]

/-- `text?` finds nothing where a pointer leads to no text. -/
theorem text?_eq_none_iff {p : Pointer} : text? p = none ↔ ∀ s, ¬ Points p s := by
  simp only [Option.eq_none_iff_forall_ne_some, ne_eq, text?_eq_some_iff]

/-- No pointer leads to no text. -/
theorem not_points_none (s : String) : ¬ Points none s := by
  rintro ⟨bytes, h, _⟩
  cases h

/-! ### Names -/

/-- The field holds the UTF-8 bytes of the name, and a zero behind them. -/
def Names (field : List UInt8) (key : String) : Prop :=
  0 ∈ field ∧ field.takeWhile (· != 0) = Text.utf8 key

/-- `name?` finds the key that a field `Names`, which has to end within the field. -/
theorem name?_eq_some_iff {field : List UInt8} {key : String} :
    name? field = some key ↔ Names field key := by
  unfold name? Names
  split
  · next hzero =>
    have hmem : 0 ∈ field := List.contains_iff_mem.mp hzero
    simp only [text?, Option.bind_some, ofUtf8?_eq_some_iff, hmem, true_and]
  · next hzero =>
    have hmem : 0 ∉ field := fun h => hzero (List.contains_iff_mem.mpr h)
    simp only [reduceCtorEq, hmem, false_and]

/-- `name?` finds nothing in a field that names no key. -/
theorem name?_eq_none_iff {field : List UInt8} : name? field = none ↔ ∀ key, ¬ Names field key := by
  simp only [Option.eq_none_iff_forall_ne_some, ne_eq, name?_eq_some_iff]

/-! ### Elements -/

/-- The cell holds the element: a number as it is, a truth value as a byte, which is zero for false,
    and a text as a pointer that leads to it. -/
def Cell.Holds : (t : ElementType) → Cell t → t.Carrier → Prop
  | .bool, b, x => x = true ↔ UInt8.toNat b ≠ 0
  | .string, p, s => Points p s
  | .signed _, i, x => i = x
  | .unsigned _, n, x => n = x
  | .float, bits, x => bits = x
  | .double, bits, x => bits = x

/-- `Cell.read?` finds the element that a cell `Holds`. -/
theorem Cell.read?_eq_some_iff {t : ElementType} {cell : Cell t} {x : t.Carrier} :
    Cell.read? t cell = some x ↔ Cell.Holds t cell x := by
  cases t with
  | bool =>
    -- every byte but 0 stands for true
    have hbyte (b : UInt8) (x : Bool) :
        some (b.toNat != 0) = some x ↔ (x = true ↔ b.toNat ≠ 0) := by
      rw [Option.some.injEq, Bool.eq_iff_iff, bne_iff_ne]
      exact iff_comm
    exact hbyte cell x
  | string => exact text?_eq_some_iff
  | _ => exact Option.some_inj

/-- Only a text can be missing: all other cells hold an element. -/
theorem Cell.read?_ne_none {t : ElementType} (h : t ≠ .string) (cell : Cell t) :
    Cell.read? t cell ≠ none := by
  cases t with
  | string => exact absurd rfl h
  | _ => exact nofun

/-! ### Type codes -/

/-- The types that there are have the codes from 1 to 24. -/
theorem codeOf_bounds (t : ElementType) (isArray : Bool) :
    1 ≤ codeOf t isArray ∧ codeOf t isArray ≤ 24 := by
  cases t with
  | signed w => cases w <;> cases isArray <;> decide
  | unsigned w => cases w <;> cases isArray <;> decide
  | _ => cases isArray <;> decide

/-- `kindOf?` knows the codes from 1 to 24, one by one, and by `codeOf_bounds` no others. -/
theorem kindOf?_eq_none_iff {code : Int} : kindOf? code = none ↔ code < 1 ∨ 24 < code := by
  constructor
  · intro h
    by_contra hbounds
    obtain ⟨hfirst, hlast⟩ : 1 ≤ code ∧ code ≤ 24 := by omega
    interval_cases code <;> cases h
  · intro hbounds
    cases h : kindOf? code with
    | none => rfl
    | some kind =>
      obtain ⟨t, isArray⟩ := kind
      have hcode := codeOf_of_kindOf? h
      have hrange := codeOf_bounds t isArray
      omega

/-! ### Values -/

namespace Content

/-- The content holds the value. No elements are held wherever the pointer leads. -/
inductive Holds : Content → Value → Prop where
  /-- One element. -/
  | scalar {t : ElementType} {cell : Cell t} {x : t.Carrier} (h : Cell.Holds t cell x) :
    Holds (.scalar t cell) (.scalar t x)
  /-- No elements. -/
  | empty (t : ElementType) (cells : Option (List (Cell t))) :
    Holds (.array t cells 0) (.array t [])
  /-- As many elements as the caller says. -/
  | array {t : ElementType} {cells : List (Cell t)} {size : Nat} {xs : List t.Carrier}
    (h : List.Forall₂ (Cell.Holds t) (cells.take size) xs) :
    Holds (.array t (some cells) size) (.array t xs)

/-- The content makes no sense. -/
inductive Senseless : Content → Prop where
  /-- There is no such type code. -/
  | code {c : Content} (h : c.code < 1 ∨ 24 < c.code) : Senseless c
  /-- There is no text. -/
  | text {p : Pointer} (h : ∀ s, ¬ Points p s) : Senseless (.scalar .string p)
  /-- There are no elements where there should be some. -/
  | missing (t : ElementType) {size : Nat} (h : 0 < size) : Senseless (.array t none size)
  /-- One of the elements is no text where it should be one. -/
  | element {cells : List Pointer} {size : Nat} {p : Pointer} (hp : p ∈ cells.take size)
    (h : ∀ s, ¬ Points p s) : Senseless (.array .string (some cells) size)

/-- `value?` finds the value that the content `Holds`: one element, no elements, or those of all
    cells, each as `Cell.read?_eq_some_iff` has it. -/
theorem value?_eq_some_iff {c : Content} {v : Value} : c.value? = some v ↔ c.Holds v := by
  cases c with
  | scalar t cell =>
    rw [value?, Option.map_eq_some_iff]
    constructor
    · rintro ⟨x, hx, rfl⟩
      exact .scalar (Cell.read?_eq_some_iff.mp hx)
    · intro h
      cases h with
      | scalar hx => exact ⟨_, Cell.read?_eq_some_iff.mpr hx, rfl⟩
  | array t cells size =>
    cases size with
    | zero =>
      constructor
      · intro h
        cases h
        -- the cells of an empty array are not looked at, and may be missing
        exact .empty t cells
      · intro h
        cases h with
        | empty => rfl
        | array hxs =>
          cases hxs
          rfl
    | succ size =>
      cases cells with
      | none => exact ⟨nofun, nofun⟩
      | some cells =>
        simp only [value?, Option.map_eq_some_iff, mapM_eq_some_iff, Cell.read?_eq_some_iff]
        constructor
        · rintro ⟨xs, hxs, rfl⟩
          exact .array hxs
        · intro h
          cases h with
          | array hxs => exact ⟨_, hxs, rfl⟩
  | unknown code h => exact ⟨nofun, nofun⟩

/-- `value?` finds nothing in content that is `Senseless`, for one of its four reasons. -/
theorem value?_eq_none_iff {c : Content} : c.value? = none ↔ c.Senseless := by
  constructor
  · intro h
    match c with
    | .scalar t cell =>
      have hcell := Option.map_eq_none_iff.mp h
      by_cases ht : t = .string
      · subst ht
        exact .text (text?_eq_none_iff.mp hcell)
      · exact absurd hcell (Cell.read?_ne_none ht cell)
    | .array t cells 0 => cases h
    | .array t none (size + 1) => exact .missing t (Nat.succ_pos size)
    | .array t (some cells) (size + 1) =>
      -- one cell without an element is enough, and it must be a text
      obtain ⟨cell, hmem, hcell⟩ := mapM_eq_none_iff.mp (Option.map_eq_none_iff.mp h)
      by_cases ht : t = .string
      · subst ht
        exact .element hmem (text?_eq_none_iff.mp hcell)
      · exact absurd hcell (Cell.read?_ne_none ht cell)
    | .unknown code h => exact .code (kindOf?_eq_none_iff.mp h)
  · intro h
    cases h with
    | code hcode =>
      -- the types that there are have codes within these bounds
      match c with
      | .scalar t _ =>
        have hrange := codeOf_bounds t false
        simp only [code] at hcode
        omega
      | .array t _ _ =>
        have hrange := codeOf_bounds t true
        simp only [code] at hcode
        omega
      | .unknown _ _ => rfl
    | text hp => exact Option.map_eq_none_iff.mpr (text?_eq_none_iff.mpr hp)
    | missing t hsize =>
      obtain ⟨size, rfl⟩ := Nat.exists_eq_add_one.mpr hsize
      rfl
    | @element cells size p hmem hp =>
      cases size with
      | zero => cases hmem
      | succ size =>
        exact Option.map_eq_none_iff.mpr
          (mapM_eq_none_iff.mpr ⟨p, hmem, text?_eq_none_iff.mpr hp⟩)

end Content

/-! ### Parameters -/

/-- What becomes of a parameter. -/
inductive Becomes (p : ForeignParam) : Except Int Param → Prop where
  /-- It is taken over. -/
  | taken {key : String} {v : Value} (hname : Names p.name key) (hvalue : p.content.Holds v) :
    Becomes p (.ok ⟨key, v⟩)
  /-- It has no name, whatever it holds. -/
  | nameless (hname : ∀ key, ¬ Names p.name key) : Becomes p (.error Status.keyInvalid)
  /-- It has a name and makes no sense. -/
  | senseless {key : String} (hname : Names p.name key) (hvalue : p.content.Senseless) :
    Becomes p (.error Status.valueInvalid)

/-- `convert` answers what a parameter `Becomes`: the name is looked at first, and then the
    content. -/
theorem convert_eq_iff {p : ForeignParam} {outcome : Except Int Param} :
    p.convert = outcome ↔ Becomes p outcome := by
  unfold ForeignParam.convert
  constructor
  · rintro rfl
    cases hname : name? p.name with
    | none => exact .nameless (name?_eq_none_iff.mp hname)
    | some key =>
      cases hvalue : p.content.value? with
      | none => exact .senseless (name?_eq_some_iff.mp hname) (Content.value?_eq_none_iff.mp hvalue)
      | some v => exact .taken (name?_eq_some_iff.mp hname) (Content.value?_eq_some_iff.mp hvalue)
  · intro h
    cases h with
    | taken hname hvalue =>
      rw [name?_eq_some_iff.mpr hname, Content.value?_eq_some_iff.mpr hvalue]
    | nameless hname => rw [name?_eq_none_iff.mpr hname]
    | senseless hname hvalue =>
      rw [name?_eq_some_iff.mpr hname, Content.value?_eq_none_iff.mpr hvalue]

end EventReporter.Foreign
