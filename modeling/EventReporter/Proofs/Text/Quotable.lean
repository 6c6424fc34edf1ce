import EventReporter.Proofs.Text.Sequence
namespace EventReporter.Text

/-!
# Escaped text between quotes

An escaped text is made of ordinary characters and of escape sequences, and in one way only. So a
reader who looks for the quote at its end, and goes over whatever stands behind a backslash, finds
that quote and no other one.

* `Sparing.isPiece_written` : a character is written as one piece.
* `IsPiece.append_inj` : where a piece ends is seen from its beginning.
* `Sparing.escape_quotable` : what holds of a whole text.
-/

/-! ### Pieces of escaped texts -/

/-- An ordinary character, or an escape sequence as it is written. -/
inductive IsPiece : List Char → Prop where
  /-- An ordinary character is no quote and no backslash. -/
  | plain {c : Char} (hquote : c ≠ '"') (hslash : c ≠ '\\') : IsPiece [c]
  /-- A backslash and a letter. -/
  | letter {l : Char} (h : l ∈ letters.map Prod.fst) : IsPiece ['\\', l]
  /-- A backslash, a `u` and four digits in lower case. -/
  | code {a b c d : Char} (h : ∀ x ∈ [a, b, c, d], x ∈ lowerDigits) :
    IsPiece ['\\', 'u', a, b, c, d]

/-- What stands before the quote that ends a quoted text, and what stands behind it. A backslash
    takes the character behind it along, whichever it is. -/
def untilQuote? : List Char → Option (List Char × List Char)
  | [] => none
  | ['\\'] => none
  | '"' :: rest => some ([], rest)
  | '\\' :: c :: rest => (untilQuote? rest).map fun (xs, ys) => ('\\' :: c :: xs, ys)
  | c :: rest => (untilQuote? rest).map fun (xs, ys) => (c :: xs, ys)

namespace IsPiece

variable {p q xs ys : List Char}

/-- A piece, as `IsPiece` has it, consists of at least one character. -/
theorem ne_nil (h : IsPiece p) : p ≠ [] := by
  cases h <;> exact nofun

/-- `u` is no entry of `letters`, so the two kinds of escape sequences differ in their second
    character. -/
theorem u_notMem_letters : 'u' ∉ letters.map Prod.fst := by
  decide

/-- No piece goes on where another one has ended. The first character tells an ordinary character
    from an escape sequence, and the second one, by `u_notMem_letters`, the two kinds of these. -/
theorem append_inj (hp : IsPiece p) (hq : IsPiece q) (h : p ++ xs = q ++ ys) : p = q ∧ xs = ys := by
  cases hp with
  | plain hquote hslash =>
    cases hq with
    | plain => simpa using h
    | letter => exact absurd (List.cons.inj h).1 hslash
    | code => exact absurd (List.cons.inj h).1 hslash
  | letter hl =>
    cases hq with
    | plain _ hslash => exact absurd (List.cons.inj h).1.symm hslash
    | letter => simpa using h
    | code =>
      obtain ⟨rfl, -⟩ := List.cons.inj (List.cons.inj h).2
      exact absurd hl u_notMem_letters
  | code =>
    cases hq with
    | plain _ hslash => exact absurd (List.cons.inj h).1.symm hslash
    | letter hl =>
      obtain ⟨rfl, -⟩ := List.cons.inj (List.cons.inj h).2
      exact absurd hl u_notMem_letters
    | code => simpa [and_assoc] using h

/-- A text is made of pieces in one way at most: by induction on the pieces, with `append_inj` for
    the first ones. -/
theorem flatten_inj {ps qs : List (List Char)} (hps : ∀ p ∈ ps, IsPiece p)
    (hqs : ∀ q ∈ qs, IsPiece q) (h : ps.flatten = qs.flatten) : ps = qs := by
  induction ps generalizing qs with
  | nil =>
    cases qs with
    | nil => rfl
    | cons q qs =>
      obtain ⟨hq, -⟩ := List.append_eq_nil_iff.mp h.symm
      exact absurd hq (hqs q List.mem_cons_self).ne_nil
  | cons p ps ih =>
    cases qs with
    | nil =>
      obtain ⟨hp, -⟩ := List.append_eq_nil_iff.mp h
      exact absurd hp (hps p List.mem_cons_self).ne_nil
    | cons q qs =>
      obtain ⟨rfl, hrest⟩ :=
        (hps p List.mem_cons_self).append_inj (hqs q List.mem_cons_self) h
      rw [ih (List.forall_mem_cons.mp hps).2 (List.forall_mem_cons.mp hqs).2 hrest]

/-! ### The quote at the end -/

/-- `untilQuote?` goes on behind a character that is neither a quote nor a backslash. -/
theorem untilQuote?_plain {c : Char} (hquote : c ≠ '"') (hslash : c ≠ '\\') (xs : List Char) :
    untilQuote? (c :: xs) = (untilQuote? xs).map fun (ys, zs) => (c :: ys, zs) := by
  rw [untilQuote?]
  · rintro rfl _
    exact hslash rfl
  · rintro rfl
    exact hquote rfl
  · rintro _ _ rfl _
    exact hslash rfl

/-- The `lowerDigits` are ordinary characters to `untilQuote?`. -/
theorem plain_of_digit {x : Char} (h : x ∈ lowerDigits) : x ≠ '"' ∧ x ≠ '\\' := by
  have hall : ∀ x ∈ lowerDigits, x ≠ '"' ∧ x ≠ '\\' := by
    simp [lowerDigits]
  exact hall x h

/-- `untilQuote?` takes a piece whole, and looks for the quote behind it. -/
theorem untilQuote?_append (h : IsPiece p) (xs : List Char) :
    untilQuote? (p ++ xs) = (untilQuote? xs).map fun (ys, zs) => (p ++ ys, zs) := by
  cases h with
  | plain hquote hslash => exact untilQuote?_plain hquote hslash xs
  | letter => rfl
  | @code a b c d hdigits =>
    -- behind the backslash and the `u`, of which `untilQuote?` takes care itself, come digits
    obtain ⟨ha, hb, hc, hd, -⟩ := by simpa only [List.forall_mem_cons] using hdigits
    have hrest : untilQuote? (a :: b :: c :: d :: xs)
        = (untilQuote? xs).map fun (ys, zs) => (a :: b :: c :: d :: ys, zs) := by
      rw [untilQuote?_plain (plain_of_digit ha).1 (plain_of_digit ha).2,
        untilQuote?_plain (plain_of_digit hb).1 (plain_of_digit hb).2,
        untilQuote?_plain (plain_of_digit hc).1 (plain_of_digit hc).2,
        untilQuote?_plain (plain_of_digit hd).1 (plain_of_digit hd).2]
      simp only [Option.map_map]
      rfl
    show (untilQuote? (a :: b :: c :: d :: xs)).map _ = _
    rw [hrest, Option.map_map]
    rfl

/-- `untilQuote?` finds the quote behind any number of pieces, by `untilQuote?_append` for each of
    them. -/
theorem untilQuote?_flatten {ps : List (List Char)} (h : ∀ p ∈ ps, IsPiece p) (rest : List Char) :
    untilQuote? (ps.flatten ++ '"' :: rest) = some (ps.flatten, rest) := by
  induction ps with
  | nil => rfl
  | cons p ps ih =>
    obtain ⟨hp, hps⟩ := List.forall_mem_cons.mp h
    rw [List.flatten_cons, List.append_assoc, hp.untilQuote?_append, ih hps]
    rfl

end IsPiece

namespace Sparing

/-! ### What is written -/

/-- `hexDigit` answers one of the `lowerDigits`. -/
theorem hexDigit_mem {n : Nat} (h : n < 16) : hexDigit n ∈ lowerDigits := by
  have hall : ∀ k : Fin 16, hexDigit k ∈ lowerDigits := by decide
  exact hall ⟨n, h⟩

/-- `written` answers a backslash with a letter, a `u` with four digits behind a backslash, or the
    character itself, which then needs no escape. -/
theorem written_cases (c : Char) :
    (∃ l ∈ letters.map Prod.fst, written c = ['\\', l]) ∨
      (∃ a b d e, (∀ x ∈ [a, b, d, e], x ∈ lowerDigits) ∧ written c = ['\\', 'u', a, b, d, e]) ∨
      (needsEscape c = false ∧ written c = [c]) := by
  unfold written
  split
  · next l hl =>
    refine .inl ⟨l, ?_, rfl⟩
    unfold letter? at hl
    split at hl
    case h_8 => cases hl
    all_goals
      cases hl
      decide
  · next hl =>
    split
    · next hneeds =>
      -- quotes and backslashes have letters of their own
      have hslash : c ≠ '\\' := by
        rintro rfl
        cases hl
      have hquote : c ≠ '"' := by
        rintro rfl
        cases hl
      have hcontrol := ((needsEscape_iff.mp hneeds).resolve_left hslash).resolve_left hquote
      -- what is left are the control characters, of which the code is below 32
      have hzero : '0' ∈ lowerDigits := List.mem_cons_self
      have hhigh : hexDigit (c.toNat / 16) ∈ lowerDigits := hexDigit_mem (by omega)
      have hlow : hexDigit (c.toNat % 16) ∈ lowerDigits := hexDigit_mem (Nat.mod_lt _ (by decide))
      rw [padded_of_lt hcontrol]
      refine .inr (.inl ⟨_, _, _, _, ?_, rfl⟩)
      simp only [List.forall_mem_cons]
      exact ⟨hzero, hzero, hhigh, hlow, List.forall_mem_nil _⟩
    · next hclean => exact .inr (.inr ⟨Bool.eq_false_iff.mpr hclean, rfl⟩)

/-- What `written` answers is one piece, by `written_cases`. -/
theorem isPiece_written (c : Char) : IsPiece (written c) := by
  obtain ⟨l, hl, h⟩ | ⟨a, b, d, e, hdigits, h⟩ | ⟨hclean, h⟩ := written_cases c
  · rw [h]
    exact .letter hl
  · rw [h]
    exact .code hdigits
  · have hneeds := mt needsEscape_iff.mpr (Bool.eq_false_iff.mp hclean)
    rw [h]
    exact .plain (fun hquote => hneeds (.inr (.inl hquote))) fun hslash => hneeds (.inl hslash)

/-- No control character is among those that `written` answers. -/
theorem le_of_mem_written {c x : Char} (hx : x ∈ written c) : 0x20 ≤ x.toNat := by
  have hletters : ∀ l ∈ letters.map Prod.fst, ∀ y ∈ ['\\', l], 0x20 ≤ y.toNat := by
    simp [letters]
  have hlower : ∀ y ∈ lowerDigits, 0x20 ≤ y.toNat := by
    simp [lowerDigits]
  obtain ⟨l, hl, h⟩ | ⟨a, b, d, e, hdigits, h⟩ | ⟨hclean, h⟩ := written_cases c
  · rw [h] at hx
    exact hletters l hl x hx
  · rw [h] at hx
    obtain rfl | rfl | hx := by simpa only [List.mem_cons] using hx
    · decide
    · decide
    · exact hlower x (hdigits x (by simpa using hx))
  · rw [h, List.mem_singleton] at hx
    -- a character that stands for itself would need an escape if it were one
    subst hx
    refine Nat.le_of_not_lt fun hlt => ?_
    exact Bool.eq_false_iff.mp hclean (needsEscape_iff.mpr (.inr (.inr hlt)))

/-! ### Whole texts -/

/-- `escape` puts what `written` answers for the characters one behind the other. -/
theorem toList_escape (s : String) :
    (escape s).text.toList = (s.toList.map written).flatten := by
  rw [text_escape, Text.escape, String.toList_ofList, escapeChars, List.flatMap_def]
  exact congrArg List.flatten (List.map_congr_left fun c _ => (written_eq_escapeChar c).symm)

/-- An escaped text has no control character in it, and is made of ordinary characters and escape
    sequences in one way only. Between quotes it ends where it ends: none of its quotes is taken for
    the last one, and the last one is not taken for a part of it. Texts are escaped part by part. -/
theorem escape_quotable (s t : String) :
    (∀ c ∈ (escape s).text.toList, 0x20 ≤ c.toNat) ∧
      (∃! pieces : List (List Char),
        (∀ p ∈ pieces, IsPiece p) ∧ pieces.flatten = (escape s).text.toList) ∧
      (∀ rest, untilQuote? ((escape s).text.toList ++ '"' :: rest)
        = some ((escape s).text.toList, rest)) ∧
      (escape (s ++ t)).text = (escape s).text ++ (escape t).text := by
  have hout := toList_escape s
  have hpieces : ∀ p ∈ s.toList.map written, IsPiece p := by
    intro p hp
    obtain ⟨c, -, rfl⟩ := List.mem_map.mp hp
    exact isPiece_written c
  refine ⟨fun x hx => ?_, ⟨s.toList.map written, ⟨hpieces, hout.symm⟩, fun ps hps => ?_⟩,
    fun rest => ?_, ?_⟩
  · rw [hout] at hx
    obtain ⟨p, hp, hxp⟩ := List.mem_flatten.mp hx
    obtain ⟨c, -, rfl⟩ := List.mem_map.mp hp
    exact le_of_mem_written hxp
  · -- any other pieces are pieces of the same text
    exact IsPiece.flatten_inj hps.1 hpieces (hps.2.trans hout)
  · rw [hout]
    exact IsPiece.untilQuote?_flatten hpieces rest
  · rw [text_escape, text_escape, text_escape, escape_append]

end Sparing

end EventReporter.Text
