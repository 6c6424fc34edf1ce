import EventReporter.Proofs.Text.Sparing
import Mathlib.Data.List.DropRight
namespace EventReporter.Text

/-!
# What counts as an escape sequence

An escape sequence is a backslash with one of seven letters, or a backslash, a `u` and four
hexadecimal digits that number a character. Whatever else stands behind a backslash should be kept
as it is written. Reading keeps to this with one exception: three digits behind a plus sign are read
as well.

* `Sparing.coded?_cons` : what is read as a number behind `u`.
* `Sparing.scan_agrees_readStrictly` : reading and strict reading, step by step.
* `Sparing.unescape_eq_readStrictly_iff` : only a plus sign makes a difference.
-/

/-! ### Strict reading -/

/-- The digits of base 16, in one case and the other. -/
def lowerDigits : List Char :=
  ['0', '1', '2', '3', '4', '5', '6', '7', '8', '9', 'a', 'b', 'c', 'd', 'e', 'f']

def upperDigits : List Char :=
  ['0', '1', '2', '3', '4', '5', '6', '7', '8', '9', 'A', 'B', 'C', 'D', 'E', 'F']

/-- The value of a digit. -/
def digit? (c : Char) : Option Nat :=
  (lowerDigits.idxOf? c).or (upperDigits.idxOf? c)

/-- The character that four digits number. -/
def numbered? (a b c d : Char) : Option Char := do
  let n := 4096 * (← digit? a) + 256 * (← digit? b) + 16 * (← digit? c) + (← digit? d)
  if n.isValidChar then some (Char.ofNat n) else none

/-- The letters behind a backslash, with the characters that they stand for. -/
def letters : List (Char × Char) :=
  [('\\', '\\'), ('"', '"'), ('n', '\n'), ('r', '\r'), ('t', '\t'), ('b', '\x08'), ('f', '\x0c')]

/-- A text with its escape sequences replaced from left to right. -/
def readStrictly : List Char → List Char
  | [] => []
  | '\\' :: 'u' :: a :: b :: c :: d :: rest =>
    match numbered? a b c d with
    | some x => x :: readStrictly rest
    | none => '\\' :: 'u' :: readStrictly (a :: b :: c :: d :: rest)
  | '\\' :: c :: rest =>
    match letters.lookup c with
    | some x => x :: readStrictly rest
    | none => '\\' :: c :: readStrictly rest
  | c :: rest => c :: readStrictly rest
termination_by cs => cs.length
decreasing_by all_goals (simp only [List.length_cons]; omega)

/-- The character that the first four digits number. -/
def numberedAt? : List Char → Option Char
  | a :: b :: c :: d :: _ => numbered? a b c d
  | _ => none

/-- `readStrictly` goes past every character but a backslash. -/
theorem readStrictly_plain {c : Char} (h : c ≠ '\\') (rest : List Char) :
    readStrictly (c :: rest) = c :: readStrictly rest := by
  rw [readStrictly]
  · rintro _ _ _ _ _ rfl _
    exact h rfl
  · rintro _ _ rfl _
    exact h rfl

/-- A backslash at the end of a text is kept. -/
theorem readStrictly_lone : readStrictly ['\\'] = ['\\'] := by
  simp [readStrictly]

/-- What `readStrictly` does with a backslash and the character behind it, in the order in which
    `Sparing.scan` asks. -/
theorem readStrictly_pair (c : Char) (rest : List Char) :
    readStrictly ('\\' :: c :: rest)
      = match letters.lookup c with
        | some x => x :: readStrictly rest
        | none =>
          if c = 'u' then
            match numberedAt? rest with
            | some x => x :: readStrictly (rest.drop 4)
            | none => '\\' :: c :: readStrictly rest
          else '\\' :: c :: readStrictly rest := by
  have hletter : letters.lookup 'u' = none := by decide
  conv_lhs => unfold readStrictly
  split
  · next heq => cases heq
  · -- a `u` with four characters behind it
    next a b c d rest heq =>
    cases heq
    rw [hletter]
    cases h : numbered? a b c d <;> simp [numberedAt?, h]
  · -- a `u` with less than four, or another character
    next c rest hcode heq =>
    cases heq
    cases letters.lookup c with
    | some x => rfl
    | none =>
      by_cases hu : c = 'u'
      · have hnone : numberedAt? rest = none := by
          unfold numberedAt?
          split
          · next a b c d behind => exact absurd rfl (hcode a b c d behind hu)
          · rfl
        simp [hnone]
      · simp [hu]
  · next c' rest' hcode hpair heq =>
    cases heq
    exact absurd rfl (hpair c rest rfl)

/-! ### Digits -/

/-- The digits that `digit?` finds in its lists are those of `hexValue?`. -/
theorem digit?_eq_hexValue? (c : Char) : digit? c = hexValue? c := by
  -- the characters of ASCII are few enough to try, and no other one is a digit
  by_cases hascii : c.toNat < 0x80
  · have hall : ∀ n : Fin 0x80, digit? (Char.ofNat n) = hexValue? (Char.ofNat n) := by
      decide +kernel
    have hc := hall ⟨c.toNat, hascii⟩
    rwa [Char.ofNat_toNat] at hc
  · have hvalue : hexValue? c = none := by
      cases h : hexValue? c with
      | none => rfl
      | some d => exact absurd (hexValue?_eq_some h).1 hascii
    have hdigits : ∀ x ∈ lowerDigits ++ upperDigits, x.toNat < 0x80 := by
      simp [lowerDigits, upperDigits]
    have hnot : c ∉ lowerDigits ++ upperDigits := fun h => hascii (hdigits c h)
    rw [List.mem_append, not_or] at hnot
    rw [hvalue, digit?, List.idxOf?_eq_none_iff.mpr hnot.1, List.idxOf?_eq_none_iff.mpr hnot.2]
    rfl

/-- A digit is no backslash. -/
theorem ne_backslash_of_digit {c : Char} (h : (digit? c).isSome = true) : c ≠ '\\' := by
  rintro rfl
  exact absurd h (by decide)

/-- `charOfCodePoint?` in terms of `Char.ofNat`. -/
theorem charOfCodePoint?_eq (n : Nat) :
    charOfCodePoint? n = if n.isValidChar then some (Char.ofNat n) else none := by
  unfold charOfCodePoint?
  by_cases h : n.isValidChar
  · rw [dif_pos h, if_pos h, Char.ofNat, dif_pos h]
  · rw [dif_neg h, if_neg h]

/-- `numbered?` reads four digits like `hexNumber?`. -/
theorem numbered?_eq (a b c d : Char) :
    numbered? a b c d = (hexNumber? 0 [a, b, c, d]).bind charOfCodePoint? := by
  simp only [numbered?, hexNumber?, digit?_eq_hexValue?, charOfCodePoint?_eq]
  cases hexValue? a <;> cases hexValue? b <;> cases hexValue? c <;> cases hexValue? d <;> try rfl
  next a b c d =>
    have hn : 16 * (16 * (16 * a + b) + c) + d = 4096 * a + 256 * b + 16 * c + d := by omega
    simp [hn]

/-- Only digits number a character by `numbered?`. -/
theorem numbered?_eq_some {a b c d x : Char} (h : numbered? a b c d = some x) :
    (digit? a).isSome ∧ (digit? b).isSome ∧ (digit? c).isSome ∧ (digit? d).isSome := by
  unfold numbered? at h
  cases ha : digit? a <;> cases hb : digit? b <;> cases hc : digit? c <;> cases hd : digit? d <;>
    simp_all

/-- A plus sign and three digits do not. -/
theorem numbered?_plus (b c d : Char) : numbered? '+' b c d = none := by
  cases h : numbered? '+' b c d with
  | none => rfl
  | some x => exact absurd (numbered?_eq_some h).1 (by decide)

/-- Three digits behind a zero always number a character, since no surrogate is that small. -/
theorem numbered?_zero {b c d : Char} (hb : (digit? b).isSome) (hc : (digit? c).isSome)
    (hd : (digit? d).isSome) : ∃ x, numbered? '0' b c d = some x := by
  have hbound : ∀ {e : Char} {i : Nat}, digit? e = some i → i < 16 := fun {e i} he =>
    (hexValue?_eq_some ((digit?_eq_hexValue? e).symm.trans he)).2
  obtain ⟨m, hm⟩ := Option.isSome_iff_exists.mp hb
  obtain ⟨n, hn⟩ := Option.isSome_iff_exists.mp hc
  obtain ⟨k, hk⟩ := Option.isSome_iff_exists.mp hd
  have hm' := hbound hm
  have hn' := hbound hn
  have hk' := hbound hk
  have hzero : digit? '0' = some 0 := by decide
  have hvalid : (256 * m + 16 * n + k).isValidChar := .inl (by omega)
  exact ⟨Char.ofNat (256 * m + 16 * n + k), by simp [numbered?, hzero, hm, hn, hk, hvalid]⟩

/-! ### Signed numbers -/

/-- How many backslashes a text ends with. -/
def endingBackslashes (cs : List Char) : Nat :=
  (cs.rtakeWhile (· = '\\')).length

/-- A text starts with a plus sign and three digits. -/
def StartsSigned (cs : List Char) : Prop :=
  ∃ b c d rest, cs = '+' :: b :: c :: d :: rest ∧
    (digit? b).isSome ∧ (digit? c).isSome ∧ (digit? d).isSome

/-- In a text, a backslash, a `u`, a plus sign and three digits stand one behind the other, and the
    backslash is not the second one of a pair. -/
def HasSigned (cs : List Char) : Prop :=
  ∃ before rest, cs = before ++ '\\' :: 'u' :: rest ∧ Even (endingBackslashes before) ∧
    StartsSigned rest

/-- One more backslash at the end counts, and any other character ends the count. -/
theorem endingBackslashes_concat (cs : List Char) (c : Char) :
    endingBackslashes (cs ++ [c]) = if c = '\\' then endingBackslashes cs + 1 else 0 := by
  unfold endingBackslashes
  rw [List.rtakeWhile_concat]
  by_cases h : c = '\\' <;> simp [h]

/-- Behind complete pairs, backslashes are counted anew by `endingBackslashes`. -/
theorem even_endingBackslashes_append {piece : List Char} (h : Even (endingBackslashes piece))
    (cs : List Char) :
    Even (endingBackslashes (piece ++ cs)) ↔ Even (endingBackslashes cs) := by
  -- from the end, where the backslashes are counted
  induction cs using List.reverseRecOn with
  | nil => simpa [endingBackslashes] using h
  | append_singleton cs c ih =>
    rw [← List.append_assoc, endingBackslashes_concat, endingBackslashes_concat]
    split
    · rw [Nat.even_add_one, Nat.even_add_one, ih]
    · rfl

/-- A signed number takes a backslash and a `u` at least. -/
theorem not_hasSigned_of_short {cs : List Char} (h : cs.length < 2) : ¬ HasSigned cs := by
  rintro ⟨before, rest, rfl, -⟩
  rw [List.length_append, List.length_cons, List.length_cons] at h
  omega

/-- A character that is no backslash is no part of a signed number before its `u`. -/
theorem hasSigned_plain {c : Char} (h : c ≠ '\\') (rest : List Char) :
    HasSigned (c :: rest) ↔ HasSigned rest := by
  have heven : Even (endingBackslashes [c]) := by
    rw [← List.nil_append [c], endingBackslashes_concat, if_neg h]
    decide
  constructor
  · rintro ⟨before, after, heq, hbefore, hstarts⟩
    -- the signed number begins behind the first character
    cases before with
    | nil => exact absurd (List.cons.inj heq).1 h
    | cons x before =>
      obtain ⟨rfl, hrest⟩ := List.cons.inj heq
      exact ⟨before, after, hrest, (even_endingBackslashes_append heven before).mp hbefore, hstarts⟩
  · rintro ⟨before, after, rfl, hbefore, hstarts⟩
    exact ⟨c :: before, after, rfl, (even_endingBackslashes_append heven before).mpr hbefore,
      hstarts⟩

/-- Behind a pair there is a signed number as there is without the pair, or the pair starts
    one. -/
theorem hasSigned_pair (c : Char) (rest : List Char) :
    HasSigned ('\\' :: c :: rest) ↔ c = 'u' ∧ StartsSigned rest ∨ HasSigned rest := by
  have hone : endingBackslashes ['\\'] = 1 := by decide
  have heven : Even (endingBackslashes ['\\', c]) := by
    have hpair := endingBackslashes_concat ['\\'] c
    rw [hone] at hpair
    rw [← List.singleton_append, hpair]
    split <;> decide
  constructor
  · rintro ⟨before, after, heq, hbefore, hstarts⟩
    rcases before with _ | ⟨x, _ | ⟨y, before⟩⟩
    · -- the backslash is the first one of the pair, so the `u` is its second half
      obtain ⟨-, hrest⟩ := List.cons.inj heq
      obtain ⟨rfl, rfl⟩ := List.cons.inj hrest
      exact .inl ⟨rfl, hstarts⟩
    · -- the backslash is the second one of the pair
      obtain ⟨rfl, -⟩ := List.cons.inj heq
      rw [hone] at hbefore
      exact absurd hbefore (by decide)
    · obtain ⟨rfl, hrest⟩ := List.cons.inj heq
      obtain ⟨rfl, rfl⟩ := List.cons.inj hrest
      exact .inr ⟨before, after, rfl, (even_endingBackslashes_append heven before).mp hbefore,
        hstarts⟩
  · rintro (⟨rfl, hstarts⟩ | ⟨before, after, rfl, hbefore, hstarts⟩)
    · exact ⟨[], rest, rfl, by decide, hstarts⟩
    · exact ⟨'\\' :: c :: before, after, rfl,
        (even_endingBackslashes_append heven before).mpr hbefore, hstarts⟩

/-- Digits are part of no other sequence, so `HasSigned` may be asked behind them. -/
theorem hasSigned_drop_four {cs : List Char} {x : Char} (h : numberedAt? cs = some x) :
    HasSigned cs ↔ HasSigned (cs.drop 4) := by
  unfold numberedAt? at h
  split at h
  · next a b c d rest =>
    obtain ⟨ha, hb, hc, hd⟩ := numbered?_eq_some h
    rw [hasSigned_plain (ne_backslash_of_digit ha), hasSigned_plain (ne_backslash_of_digit hb),
      hasSigned_plain (ne_backslash_of_digit hc), hasSigned_plain (ne_backslash_of_digit hd)]
    rfl
  · cases h

namespace Sparing

/-! ### What is read as a number -/

/-- What `coded?` reads behind a `u`: four digits, or three behind a plus sign as if it were a
    zero. -/
theorem coded?_cons (a b c d : Char) (rest : List Char) :
    coded? (a :: b :: c :: d :: rest)
      = if a = '+' then numbered? '0' b c d else numbered? a b c d := by
  have htake : (a :: b :: c :: d :: rest).take 4 = [a, b, c, d] := by simp
  rw [coded?_eq, htake]
  split
  · next h =>
    subst h
    rw [numbered?_eq]
    rfl
  · next h => rw [fourDigits?_of_ne h, numbered?_eq]

/-- Less than four characters are no number. -/
theorem coded?_of_short {cs : List Char} (h : cs.length < 4) : coded? cs = none := by
  have hlength : (cs.take 4).length ≠ 4 := by
    rw [List.length_take]
    omega
  rw [coded?_eq, fourDigits?_of_length_ne hlength]
  rfl

/-- A signed number is read by `coded?`, and should not be. -/
theorem coded?_of_startsSigned {cs : List Char} (h : StartsSigned cs) :
    (∃ x, coded? cs = some x) ∧ numberedAt? cs = none := by
  obtain ⟨b, c, d, rest, rfl, hb, hc, hd⟩ := h
  rw [coded?_cons, if_pos rfl]
  exact ⟨numbered?_zero hb hc hd, numbered?_plus b c d⟩

/-- Anything else is read by `coded?` as it should be. -/
theorem coded?_of_not_startsSigned {cs : List Char} (h : ¬ StartsSigned cs) :
    coded? cs = numberedAt? cs := by
  rcases cs with _ | ⟨a, _ | ⟨b, _ | ⟨c, _ | ⟨d, rest⟩⟩⟩⟩
  case cons.cons.cons.cons =>
    rw [coded?_cons]
    split
    · next hplus =>
      subst hplus
      refine Eq.trans ?_ (numbered?_plus b c d).symm
      -- what is read behind the plus sign as if it were a zero has three digits, and is signed
      cases hzero : numbered? '0' b c d with
      | none => rfl
      | some x =>
        obtain ⟨-, hb, hc, hd⟩ := numbered?_eq_some hzero
        exact absurd ⟨b, c, d, rest, rfl, hb, hc, hd⟩ h
    · rfl
  -- there are less than four characters
  all_goals exact coded?_of_short (by simp)

/-- The letters of `named?` are those in the list `letters`. -/
theorem named?_eq_lookup (c : Char) : named? c = letters.lookup c := by
  unfold named?
  split
  case h_8 =>
    refine (List.lookup_eq_none_iff.mpr ?_).symm
    simp_all [letters]
  all_goals rfl

/-! ### Where both ways to read agree -/

/-- What a text is read as, against what it should be read as: the same unless it has signed
    numbers, each of which is read as one character in place of six. -/
structure Agrees (cs : List Char) : Prop where
  /-- Without signed numbers there is no difference. -/
  same : ¬ HasSigned cs → scan cs = readStrictly cs
  /-- Each of them makes the text shorter. -/
  shorter : HasSigned cs → (scan cs).length < (readStrictly cs).length

namespace Agrees

variable {cs rest : List Char}

/-- What is read is never longer than what should be read. -/
theorem length_le (h : Agrees cs) : (scan cs).length ≤ (readStrictly cs).length := by
  by_cases hsigned : HasSigned cs
  · exact Nat.le_of_lt (h.shorter hsigned)
  · rw [h.same hsigned]

/-- Texts that are too short for a signed number only have to be read alike. -/
theorem of_short (hlength : cs.length < 2) (h : scan cs = readStrictly cs) : Agrees cs where
  same _ := h
  shorter hsigned := absurd hsigned (not_hasSigned_of_short hlength)

/-- Both ways to read go on behind the same piece, which is no part of a signed number. -/
theorem of_piece (h : Agrees rest) (piece : List Char) (hscan : scan cs = piece ++ scan rest)
    (hstrict : readStrictly cs = piece ++ readStrictly rest)
    (hsigned : HasSigned cs ↔ HasSigned rest) : Agrees cs where
  same hnone := by rw [hscan, hstrict, h.same (hnone ∘ hsigned.mpr)]
  shorter hsome := by
    have hlt := h.shorter (hsigned.mp hsome)
    rw [hscan, hstrict, List.length_append, List.length_append]
    omega

/-- A signed number is read as one character, and should be kept, so that what is read is shorter
    from there on (`length_le`). -/
theorem of_startsSigned (h : Agrees (rest.drop 4)) {x : Char} (hstarts : StartsSigned rest)
    (hscan : scan ('\\' :: 'u' :: rest) = x :: scan (rest.drop 4)) :
    Agrees ('\\' :: 'u' :: rest) where
  same hnone := absurd ((hasSigned_pair 'u' rest).mpr (.inl ⟨rfl, hstarts⟩)) hnone
  shorter _ := by
    have hle := h.length_le
    have hletter : letters.lookup 'u' = none := by decide
    rw [hscan, readStrictly_pair, hletter, if_pos rfl, (coded?_of_startsSigned hstarts).2]
    obtain ⟨b, c, d, behind, rfl, hb, hc, hd⟩ := hstarts
    rw [readStrictly_plain (by decide), readStrictly_plain (ne_backslash_of_digit hb),
      readStrictly_plain (ne_backslash_of_digit hc), readStrictly_plain (ne_backslash_of_digit hd)]
    simp only [List.drop_succ_cons, List.drop_zero, List.length_cons] at hle ⊢
    omega

end Agrees

/-- The main step: what `scan` reads agrees with what `readStrictly` reads, but for signed
    numbers. Along the recursion of `scan`, where each case is a piece that both read alike
    (`Agrees.of_piece`), or a number behind `u`, which is signed (`Agrees.of_startsSigned`) or
    not. -/
theorem scan_agrees_readStrictly (cs : List Char) : Agrees cs := by
  -- along the recursion of `scan`; only a number behind `u` is read differently
  fun_induction scan cs with
  | case1 => exact Agrees.of_short (by decide) (by rw [scan, readStrictly])
  | case2 => exact Agrees.of_short (by decide) (by rw [scan, readStrictly_lone])
  | case3 c rest x hnamed ih =>
    -- one of the seven letters
    have hne : c ≠ 'u' := by
      rintro rfl
      cases hnamed
    refine ih.of_piece [x] ?_ ?_ ?_
    · rw [scan, hnamed]
      rfl
    · rw [readStrictly_pair, ← named?_eq_lookup, hnamed]
      rfl
    · simp [hasSigned_pair, hne]
  | case4 rest x hcoded hnamed ih =>
    have hscan : scan ('\\' :: 'u' :: rest) = x :: scan (rest.drop 4) := by
      rw [scan, hnamed, if_pos rfl, hcoded]
    by_cases hstarts : StartsSigned rest
    · -- what should be kept is read as one character, and reading goes on behind it
      exact ih.of_startsSigned hstarts hscan
    · have hfour : numberedAt? rest = some x :=
        (coded?_of_not_startsSigned hstarts).symm.trans hcoded
      refine ih.of_piece [x] hscan ?_ ?_
      · rw [readStrictly_pair, ← named?_eq_lookup, hnamed, if_pos rfl, hfour]
        rfl
      · rw [hasSigned_pair, hasSigned_drop_four hfour]
        simp [hstarts]
  | case5 rest hcoded hnamed ih =>
    -- a `u` behind which nothing is read is kept by both
    have hstarts : ¬ StartsSigned rest := by
      intro h
      obtain ⟨x, hx⟩ := (coded?_of_startsSigned h).1
      cases hcoded.symm.trans hx
    have hfour : numberedAt? rest = none :=
      (coded?_of_not_startsSigned hstarts).symm.trans hcoded
    refine ih.of_piece ['\\', 'u'] ?_ ?_ ?_
    · rw [scan, hnamed, if_pos rfl, hcoded]
      rfl
    · rw [readStrictly_pair, ← named?_eq_lookup, hnamed, if_pos rfl, hfour]
      rfl
    · simp [hasSigned_pair, hstarts]
  | case6 c rest hnamed hne ih =>
    -- any other character is kept by both, with its backslash
    refine ih.of_piece ['\\', c] ?_ ?_ ?_
    · rw [scan, hnamed, if_neg hne]
      rfl
    · rw [readStrictly_pair, ← named?_eq_lookup, hnamed, if_neg hne]
      rfl
    · simp [hasSigned_pair, hne]
  | case7 c rest hlone hpair ih =>
    have hne := ne_backslash hlone hpair
    exact ih.of_piece [c] (scan_plain hne rest) (readStrictly_plain hne rest)
      (hasSigned_plain hne rest)

/-- Reading replaces the escape sequences of a text and nothing else, exactly if there is no signed
    number behind a `u` in it. -/
theorem unescape_eq_readStrictly_iff (s : String) :
    (unescape s).text = String.ofList (readStrictly s.toList) ↔ ¬ HasSigned s.toList := by
  rw [text_unescape, Text.unescape, unescapeChars_eq_scan, String.ofList_inj]
  constructor
  · intro h hsigned
    have hlt := (scan_agrees_readStrictly s.toList).shorter hsigned
    rw [h] at hlt
    exact Nat.lt_irrefl _ hlt
  · exact (scan_agrees_readStrictly s.toList).same

/-- A plus sign and three digits are no escape sequence, and are read as one: an input at which
    both sides of `unescape_eq_readStrictly_iff` fail. -/
theorem unescape_signed :
    (unescape "\\u+041").text = "A" ∧ String.ofList (readStrictly "\\u+041".toList) = "\\u+041" := by
  decide +kernel

end Sparing

end EventReporter.Text
