import EventReporter.Library
import EventReporter.Proofs.Record.Room
import EventReporter.Value.Access
namespace EventReporter

/-!
# Values answer consistently

Of the readers that take numbers, exactly one has an answer from a value that is not made of text,
and the reader of texts has that number's one rendering. An array answers as its elements do, and a
value that has been written and read again answers as before, with its texts as they travel.

* `Value.answers_shape` : which readers have an answer.
* `Value.element_answers` : elements of arrays.
* `Value.answers_escaped`, `Param.runAt_read_encode` : values that have travelled.
* `Value.answers_consistent` : all of it, for every value.
-/

/-! ### Integers of 64 bits -/

namespace Width

/-- No width has more than the `2 ^ 64` values of `w64`. -/
theorem count_le_w64 (w : Width) : w.count ≤ w64.count := by
  cases w <;> decide

/-- No width has numbers above or below those of `w64`. -/
theorem half_le_w64 (w : Width) : w.half ≤ w64.half := by
  cases w <;> decide

end Width

/-! ### In which way elements are numbers -/

namespace ElementType

/-- The text of a double-precision number. -/
def renderDouble (bits : BitVec 64) : String :=
  (Decimal.Binary64.ofBits bits).render

/-- The elements of a type are numbers in one way, and their texts are those of these numbers. -/
inductive Numeric (t : ElementType) : Prop where
  /-- They are natural numbers. -/
  | nat {f : t.Carrier → Nat} (hnat : t.toNat? = some f) (hint : t.toInt? = none)
    (hdouble : t.toDouble? = none) (hrender : ∀ x, t.render x = toString (f x))
  /-- They are integers. -/
  | int {f : t.Carrier → Int} (hint : t.toInt? = some f) (hnat : t.toNat? = none)
    (hdouble : t.toDouble? = none) (hrender : ∀ x, t.render x = toString (f x))
  /-- They are double-precision numbers. -/
  | double {f : t.Carrier → BitVec 64} (hdouble : t.toDouble? = some f) (hnat : t.toNat? = none)
    (hint : t.toInt? = none) (hrender : ∀ x, t.render x = renderDouble (f x))

/-- All element types but `string` are `Numeric`: the readers of one number answer, and `render`
    goes through that number. -/
theorem numeric_of_ne {t : ElementType} (h : t ≠ .string) : t.Numeric := by
  cases t with
  | bool => exact .int rfl rfl rfl fun _ => rfl
  | signed w => exact .int rfl rfl rfl fun _ => rfl
  | unsigned w => exact .nat rfl rfl rfl fun _ => rfl
  | float => exact .double rfl rfl rfl fun _ => rfl
  | double => exact .double rfl rfl rfl fun _ => rfl
  | string => exact absurd rfl h

end ElementType

namespace Value

/-! ### What a value answers -/

/-- What the eight readers get from a value. -/
structure Answers where
  /-- A natural number. -/
  nat : Option Nat
  /-- An integer. -/
  int : Option Int
  /-- The bits of a double-precision number. -/
  double : Option (BitVec 64)
  /-- A text. -/
  string : Option String
  /-- Natural numbers. -/
  nats : Option (List Nat)
  /-- Integers. -/
  ints : Option (List Int)
  /-- The bits of double-precision numbers. -/
  doubles : Option (List (BitVec 64))
  /-- Texts. -/
  strings : Option (List String)
deriving DecidableEq, Repr

/-- All that a value answers. -/
def answers (v : Value) : Answers :=
  ⟨v.nat?, v.int?, v.double?, v.string?, v.nats?, v.ints?, v.doubles?, v.strings?⟩

namespace Answers

/-- No answer at all. -/
def silent : Answers :=
  ⟨none, none, none, none, none, none, none, none⟩

/-- How many readers of one number have an answer. -/
def numbers (a : Answers) : Nat :=
  [a.nat.isSome, a.int.isSome, a.double.isSome].count true

/-- How many readers of several numbers have an answer. -/
def numberLists (a : Answers) : Nat :=
  [a.nats.isSome, a.ints.isSome, a.doubles.isSome].count true

/-- The text of the first number that is answered. -/
def rendered (a : Answers) : Option String :=
  (a.nat.map toString).or ((a.int.map toString).or (a.double.map ElementType.renderDouble))

/-- The texts of the first numbers that are answered. -/
def renderedLists (a : Answers) : Option (List String) :=
  (a.nats.map (List.map toString)).or
    ((a.ints.map (List.map toString)).or (a.doubles.map (List.map ElementType.renderDouble)))

/-- What is answered about the element at `i`. -/
def element (a : Answers) (i : Nat) : Answers :=
  ⟨a.nats.bind (·[i]?), a.ints.bind (·[i]?), a.doubles.bind (·[i]?), a.strings.bind (·[i]?),
    none, none, none, none⟩

/-- The same answers, with texts as they travel. -/
def escaped (a : Answers) : Answers :=
  { a with
    string := a.string.map Text.escape
    strings := a.strings.map (List.map Text.escape) }

end Answers

/-! ### Which readers have an answer -/

/-- What is not made of text has exactly one answer as a number. Everything has an answer as a
    text. One element has no answer for readers of several, nor several elements for readers of
    one. The cases are those of `ElementType`, one by one. -/
theorem answers_shape (v : Value) :
    let a := v.answers
    let numeric := if v.type = .string then 0 else 1
    if v.arraySize?.isSome then
      a.numberLists = numeric ∧ a.strings.isSome = true ∧ a.numbers = 0 ∧ a.string = none
    else a.numbers = numeric ∧ a.string.isSome = true ∧ a.numberLists = 0 ∧ a.strings = none := by
  cases v with
  | scalar t x => cases t <;> exact ⟨rfl, rfl, rfl, rfl⟩
  | array t xs => cases t <;> exact ⟨rfl, rfl, rfl, rfl⟩

/-- The text of what is not made of text is that of its number, by `numeric_of_ne`. -/
theorem string_answers_of_ne {v : Value} (h : v.type ≠ .string) :
    v.answers.string = v.answers.rendered ∧ v.answers.strings = v.answers.renderedLists := by
  cases v with
  | scalar t x =>
    have htype : t ≠ .string := h
    refine ⟨?_, rfl⟩
    cases ElementType.numeric_of_ne htype with
    | nat hnat hint hdouble hrender | int hint hnat hdouble hrender
    | double hdouble hnat hint hrender =>
      simp only [answers, Answers.rendered, string?, nat?, int?, double?, hnat, hint, hdouble,
        hrender, Option.map_some, Option.map_none, Option.some_or, Option.none_or]
  | array t xs =>
    have htype : t ≠ .string := h
    refine ⟨rfl, ?_⟩
    cases ElementType.numeric_of_ne htype with
    | nat hnat hint hdouble hrender | int hint hnat hdouble hrender
    | double hdouble hnat hint hrender =>
      simp only [answers, Answers.renderedLists, strings?, nats?, ints?, doubles?, hnat, hint,
        hdouble, Option.map_some, Option.map_none, Option.some_or, Option.none_or, List.map_map]
      -- here `Numeric` is about each element, so the functions are compared
      exact congrArg (fun f => some (xs.map f)) (funext hrender)

/-! ### Elements -/

/-- What an array answers about an element is what that element answers: `Answers.element` looks
    into each of the lists, as `bind_getElem?_map` does. -/
theorem element_answers (t : ElementType) (xs : List t.Carrier) (i : Nat) :
    (array t xs).answers.element i = (xs[i]?.map fun x => (scalar t x).answers).getD .silent := by
  have hnats := bind_getElem?_map t.toNat? xs i
  have hints := bind_getElem?_map t.toInt? xs i
  have hdoubles := bind_getElem?_map t.toDouble? xs i
  have hstrings := bind_getElem?_map (some t.render) xs i
  show Answers.mk ((t.toNat?.map xs.map).bind (·[i]?)) ((t.toInt?.map xs.map).bind (·[i]?))
    ((t.toDouble?.map xs.map).bind (·[i]?)) (((some t.render).map xs.map).bind (·[i]?))
    none none none none = _
  -- four lists are there to look into, and four readers of one element stay silent
  rw [hnats, hints, hdoubles, hstrings]
  cases xs[i]? <;> rfl

/-! ### Values that have travelled -/

/-- `escaped` leaves alone what is not made of text. -/
theorem escaped_of_ne {v : Value} (h : v.type ≠ .string) : v.escaped = v := by
  cases v with
  | scalar t x =>
    cases t with
    | string => exact absurd rfl h
    | _ => rfl
  | array t xs =>
    cases t with
    | string => exact absurd rfl h
    | _ => exact congrArg (array _) (List.map_id' xs)

/-- A value answers as before when it has travelled, but for its texts, which travel as
    `Answers.escaped` has them. -/
theorem answers_escaped (v : Value) :
    v.escaped.answers = if v.type = .string then v.answers.escaped else v.answers := by
  split
  · next htext =>
    cases v with
    | scalar t x =>
      cases htext
      rfl
    | array t xs =>
      cases htext
      have hstrings :
          ((xs.map Text.escape).map fun s => s) = (xs.map fun s => s).map Text.escape := by
        rw [List.map_id', List.map_id']
      exact congrArg (Answers.mk none none none none none none none ∘ some) hstrings
  · next hnumber => rw [escaped_of_ne hnumber]

end Value

/-- A parameter that is written on its own, and fits, is read in the form in which it travels:
    `yields_read` with nothing before or behind it. -/
theorem Param.runAt_read_encode {p : Param} {bytes : List UInt8} (harray : p.value.FitsArray)
    (h : p.encode = .ok bytes) : Param.read.runAt bytes 0 = (.ok p.escaped, bytes.length) := by
  have hfits : p.bytes.length ≤ Limits.recordBytes := by
    rw [← encode_isOk_iff, h]
    rfl
  have hsize : ([] ++ p.bytes ++ []).length < Width.w64.count := by
    rw [List.nil_append, List.append_nil]
    exact Nat.lt_of_le_of_lt hfits (by decide)
  have hread := (p.yields_read harray).runAt [] [] hsize
  rw [eq_bytes_of_encode h]
  rwa [List.nil_append, List.append_nil, List.length_nil, Nat.zero_add] at hread

namespace Value

/-! ### The laws -/

/-- A value that is not made of text has exactly one answer as a number, or as a list of numbers if
    it is an array, and every value has an answer as a text or as a list of texts; the readers for
    the other shape have none. The text of a number is the decimal one, or for double-precision
    numbers always the same rendering. What an array answers about an element is what the element
    answers on its own. Integers of every width answer with their own value, a flag with 1 or 0, and
    all of these are integers of 64 bits. A parameter can be written on its own if it is no larger
    than a record may be, and unless it is an array that is too long it is then read again, with the
    same answers, where texts are the escaped ones. -/
theorem answers_consistent :
    (∀ v : Value,
      let a := v.answers
      let numeric := if v.type = .string then 0 else 1
      (if v.arraySize?.isSome then
        a.numberLists = numeric ∧ a.strings.isSome = true ∧ a.numbers = 0 ∧ a.string = none
      else
        a.numbers = numeric ∧ a.string.isSome = true ∧ a.numberLists = 0 ∧ a.strings = none) ∧
      (v.type ≠ .string → a.string = a.rendered ∧ a.strings = a.renderedLists)) ∧
      (∀ (t : ElementType) (xs : List t.Carrier) (i : Nat),
        (array t xs).answers.element i
          = (xs[i]?.map fun x => (scalar t x).answers).getD .silent) ∧
      (∀ (w : Width) (n : w.Unsigned),
        (scalar (.unsigned w) n).nat? = some n.val ∧ n.val < Width.w64.count) ∧
      (∀ (w : Width) (i : w.Signed),
        (scalar (.signed w) i).int? = some i.val ∧
          -(Width.w64.half : Int) ≤ i.val ∧ i.val < Width.w64.half) ∧
      (∀ b : Bool, (scalar .bool b).int? = some (if b then 1 else 0)) ∧
      ∀ p : Param,
        (p.encode.isOk = true ↔ p.bytes.length ≤ Limits.recordBytes) ∧
          (p.value.FitsArray → ∀ bytes, p.encode = .ok bytes →
            ∃ q, Param.read.runAt bytes 0 = (.ok q, bytes.length) ∧ q.key = p.key ∧
              q.value.answers
                = if p.value.type = .string then p.value.answers.escaped else p.value.answers) := by
  refine ⟨fun v => ⟨answers_shape v, string_answers_of_ne⟩, element_answers, fun w n => ?_,
    fun w i => ?_, fun b => ?_, fun p => ⟨p.encode_isOk_iff, fun harray bytes hbytes => ?_⟩⟩
  · exact ⟨rfl, Nat.lt_of_lt_of_le n.isLt w.count_le_w64⟩
  · -- a number of any width lies between the bounds of 64 bits
    have hwidth := w.half_le_w64
    obtain ⟨i, hlow, hhigh⟩ := i
    exact ⟨rfl, by simp only; omega, by simp only; omega⟩
  · cases b <;> rfl
  · exact ⟨p.escaped, Param.runAt_read_encode harray hbytes, rfl, answers_escaped p.value⟩

/-- Two integers of 16 bits. -/
def sampleIntegers : List Width.w16.Signed :=
  [⟨-300, by decide⟩, ⟨7, by decide⟩]

/-- A parameter with these integers. -/
def sampleReadings : Param :=
  ⟨"R", .array (.signed .w16) sampleIntegers⟩

/-- A text that travels escaped. -/
def sampleQuote : Param :=
  ⟨"T", .scalar .string "a\"b"⟩

/-- An array of two integers, one of them negative, answers with its numbers and their decimal
    texts, alone and when it has been read again; a text with a quote in it comes back with a
    backslash before the quote. -/
theorem answers_consistent_samples :
    (sampleReadings.value.type ≠ .string ∧ sampleReadings.value.FitsArray ∧
      sampleReadings.value.answers.ints = some [-300, 7] ∧
      sampleReadings.value.answers.strings = some ["-300", "7"] ∧
      (sampleReadings.value.answers.element 1).int = some 7 ∧
      ∃ bytes q, sampleReadings.encode = .ok bytes ∧
        Param.read.runAt bytes 0 = (.ok q, bytes.length) ∧
        q.value.answers = sampleReadings.value.answers) ∧
    sampleQuote.value.FitsArray ∧
      ∃ bytes q, sampleQuote.encode = .ok bytes ∧
        Param.read.runAt bytes 0 = (.ok q, bytes.length) ∧
        q.value.answers.string = some "a\\\"b" := by
  obtain ⟨hshape, helement, -, -, -, hread⟩ := answers_consistent
  constructor
  · have htype : sampleReadings.value.type ≠ .string := by decide
    have harray : sampleReadings.value.FitsArray := by
      intro n hn
      cases hn
      decide
    have hstrings := ((hshape sampleReadings.value).2 htype).2
    have hseven := congrArg Answers.int (helement (.signed .w16) sampleIntegers 1)
    obtain ⟨bytes, hbytes⟩ : ∃ bytes, sampleReadings.encode = .ok bytes := ⟨_, rfl⟩
    obtain ⟨q, hq, -, hsame⟩ := (hread sampleReadings).2 harray bytes hbytes
    exact ⟨htype, harray, rfl, hstrings, hseven, bytes, q, hbytes, hq, hsame⟩
  · have harray : sampleQuote.value.FitsArray := nofun
    obtain ⟨bytes, hbytes⟩ : ∃ bytes, sampleQuote.encode = .ok bytes := ⟨_, rfl⟩
    obtain ⟨q, hq, -, hsame⟩ := (hread sampleQuote).2 harray bytes hbytes
    have hescaped : Text.escape "a\"b" = "a\\\"b" := by decide +kernel
    exact ⟨harray, bytes, q, hbytes, hq,
      (congrArg Answers.string hsame).trans (congrArg some hescaped)⟩

end Value

end EventReporter
