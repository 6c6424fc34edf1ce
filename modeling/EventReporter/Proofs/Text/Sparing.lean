import EventReporter.Library
import EventReporter.Text.Escape
import EventReporter.Text.Sparing
import Mathlib.Algebra.Group.Nat.Even
import Mathlib.Data.List.Basic
namespace EventReporter.Text

/-!
# Escaping without needless work is escaping

Where a first look finds nothing to escape, every character is written as itself, and where it finds
no backslash, every character is read as itself. So it makes no difference that such a text is
handed back as it is.

* `Sparing.text_escape`, `Sparing.text_unescape` : the answers are those of `escape` and `unescape`.
* `Sparing.unescape_escape` : an escaped text is read as the text, whatever follows it.
-/

/-! ### Hexadecimal numbers -/

/-- Hexadecimal digits are characters of ASCII, and have values below 16. One case for each run of
    digits. -/
theorem hexValue?_eq_some {c : Char} {d : Nat} (h : hexValue? c = some d) :
    c.toNat < 0x80 ∧ d < 16 := by
  have hbound : ∀ x : Char, c ≤ x → c.toNat ≤ x.toNat := fun x hx => UInt32.le_iff_toNat_le.mp hx
  unfold hexValue? at h
  split at h
  · next hdigit =>
    have hle : c.toNat ≤ 57 := hbound '9' hdigit.2
    cases h
    omega
  split at h
  · next hlower =>
    have hle : c.toNat ≤ 102 := hbound 'f' hlower.2
    cases h
    omega
  split at h
  · next hupper =>
    have hle : c.toNat ≤ 70 := hbound 'F' hupper.2
    cases h
    omega
  · cases h

/-- A run of digits has as many bytes as characters, and these bound its number. -/
theorem hexNumber?_eq_some {cs : List Char} {n m : Nat} (h : hexNumber? n cs = some m) :
    byteCount cs = cs.length ∧ m < (n + 1) * 16 ^ cs.length := by
  induction cs generalizing n with
  | nil =>
    cases h
    simp [byteCount]
  | cons c rest ih =>
    obtain ⟨d, hd, hrest⟩ := Option.bind_eq_some_iff.mp h
    obtain ⟨hascii, hlt⟩ := hexValue?_eq_some hd
    obtain ⟨hcount, hm⟩ := ih hrest
    rw [byteCount_cons, utf8Size_of_ascii hascii, hcount, List.length_cons]
    refine ⟨Nat.add_comm _ _, ?_⟩
    calc m < (16 * n + d + 1) * 16 ^ rest.length := hm
      _ ≤ ((n + 1) * 16) * 16 ^ rest.length := Nat.mul_le_mul_right _ (by omega)
      _ = (n + 1) * 16 ^ (rest.length + 1) := by rw [Nat.mul_assoc, Nat.pow_succ']

namespace Sparing

/-! ### Writing -/

/-- The first look, `needsEscape`, finds quotes, backslashes, and control characters of ASCII. -/
theorem needsEscape_iff {c : Char} :
    needsEscape c = true ↔ c = '\\' ∨ c = '"' ∨ c.toNat < 0x20 := by
  have hdelete : c.toNat = 0x7f → c = '\x7f' := fun h => Char.toNat_inj.mp h
  simp only [needsEscape, isControl, Bool.or_eq_true, Bool.and_eq_true, beq_iff_eq, bne_iff_ne,
    decide_eq_true_eq, or_assoc]
  constructor
  · rintro (h | h | ⟨h | h, hne⟩)
    · exact .inl h
    · exact .inr (.inl h)
    · exact .inr (.inr h)
    · exact absurd (hdelete h) hne
  · rintro (h | h | h)
    · exact .inl h
    · exact .inr (.inl h)
    · refine .inr (.inr ⟨.inl h, ?_⟩)
      rintro rfl
      exact absurd h (by decide)

/-- Whatever has a letter of its own is found by the first look. -/
theorem letter?_of_clean {c : Char} (h : needsEscape c = false) : letter? c = none := by
  unfold letter?
  split
  case h_8 => rfl
  all_goals cases h

/-- The number of a control character is padded to four digits; by looking at all of them. -/
theorem padded_of_lt {n : Nat} (h : n < 0x20) :
    padded n = ['0', '0', hexDigit (n / 16), hexDigit (n % 16)] := by
  have hall : ∀ k : Fin 0x20, padded k = ['0', '0', hexDigit (k / 16), hexDigit (k % 16)] := by
    decide +kernel
  exact hall ⟨n, h⟩

/-- `written`, which asks for a letter first and then for a control character, writes what
    `escapeChar` writes. -/
theorem written_eq_escapeChar (c : Char) : written c = escapeChar c := by
  unfold escapeChar
  split
  -- the characters without a letter of their own; for the others both sides compute
  case h_8 hslash hquote hn hr ht hb hf =>
    have hletter : letter? c = none := by
      unfold letter?
      split <;> first | contradiction | rfl
    have hcontrol : needsEscape c = true ↔ c.toNat < 0x20 := by
      rw [needsEscape_iff]
      exact ⟨fun h => (h.resolve_left hslash).resolve_left hquote, fun h => .inr (.inr h)⟩
    rw [written, hletter]
    by_cases hlt : c.toNat < 0x20
    · rw [if_pos hlt, ← padded_of_lt hlt]
      exact if_pos (hcontrol.mpr hlt)
    · rw [if_neg hlt]
      exact if_neg (hlt ∘ hcontrol.mp)
  all_goals rfl

/-- A character that `needsEscape` does not find is written as itself. -/
theorem written_of_clean {c : Char} (h : needsEscape c = false) : written c = [c] := by
  rw [written, letter?_of_clean h, h]
  rfl

/-- The answer of `escape` is that of `Text.escape`, whether or not the text is handed back as it
    is. -/
theorem text_escape (s : String) : (escape s).text = Text.escape s := by
  have hwritten : s.toList.flatMap written = escapeChars s.toList :=
    congrArg s.toList.flatMap (funext written_eq_escapeChar)
  rw [Text.escape, ← hwritten]
  unfold escape
  split
  · rfl
  · next hclean =>
    -- nothing was found, so every character is written as itself
    have hsame : s.toList.flatMap written = s.toList := by
      rw [List.flatMap_congr (g := fun c => [c]), List.flatMap_singleton']
      intro c hc
      refine written_of_clean (Bool.eq_false_iff.mpr fun h => hclean ?_)
      exact List.any_eq_true.mpr ⟨c, hc, h⟩
    rw [hsame, String.ofList_toList]
    rfl

/-! ### Numbers behind a backslash -/

/-- `afterPlus` takes nothing but a plus sign off. -/
theorem afterPlus_of_ne {c : Char} (h : c ≠ '+') (cs : List Char) :
    afterPlus (c :: cs) = c :: cs := by
  unfold afterPlus
  split
  · next heq => exact absurd (List.cons.inj heq).1 h
  · rfl

/-- Four characters without a plus sign are read as four digits. -/
theorem fourDigits?_of_ne {a : Char} (h : a ≠ '+') (b c d : Char) :
    fourDigits? [a, b, c, d] = hexNumber? 0 [a, b, c, d] := by
  unfold fourDigits?
  split
  · next heq => exact absurd (List.cons.inj heq).1 h
  · next heq =>
    cases heq
    rfl
  · next hlength => exact absurd rfl (hlength a b c d)

/-- Four digits state no number that is too large, so `number?` reads them like `fourDigits?`. -/
theorem number?_four (a b c d : Char) : number? [a, b, c, d] = fourDigits? [a, b, c, d] := by
  have hfits : ∀ cs : List Char, cs ≠ [] → cs.length ≤ 4 →
      (if cs = [] then none else (hexNumber? 0 cs).filter (· < UInt32.size)) = hexNumber? 0 cs := by
    intro cs hne hlength
    rw [if_neg hne]
    cases hnumber : hexNumber? 0 cs with
    | none => rfl
    | some m =>
      have hm := (hexNumber?_eq_some hnumber).2
      have hpow : 16 ^ cs.length ≤ 16 ^ 4 := Nat.pow_le_pow_right (by decide) hlength
      have hsize : UInt32.size = 4294967296 := rfl
      have hsmall : m < UInt32.size := by omega
      rw [Option.filter_some, if_pos (decide_eq_true hsmall)]
  -- three digits are left behind a plus sign, and four without one
  by_cases hplus : a = '+'
  · subst hplus
    exact hfits [b, c, d] nofun (Nat.le_succ 3)
  · rw [number?, afterPlus_of_ne hplus, fourDigits?_of_ne hplus]
    exact hfits [a, b, c, d] nofun (Nat.le_refl 4)

/-- Whatever `number?` reads has as many bytes as characters (`hexNumber?_eq_some`). -/
theorem byteCount_of_number? {cs : List Char} {n : Nat} (h : number? cs = some n) :
    byteCount cs = cs.length := by
  unfold number? at h
  split at h
  · cases h
  · obtain ⟨hnumber, _⟩ := Option.filter_eq_some_iff.mp h
    have hdigits := (hexNumber?_eq_some hnumber).1
    unfold afterPlus at hdigits
    split at hdigits
    · rw [byteCount_cons, hdigits, List.length_cons]
      exact Nat.add_comm _ _
    · exact hdigits

/-- `fourDigits?` reads four characters only. -/
theorem fourDigits?_of_length_ne {cs : List Char} (h : cs.length ≠ 4) : fourDigits? cs = none := by
  unfold fourDigits?
  split
  · exact absurd rfl h
  · exact absurd rfl h
  · rfl

/-- `coded?`, which cuts out four bytes, reads what `fourDigits?` reads in four characters: there
    are as many of both in whatever is a number. -/
theorem coded?_eq (cs : List Char) :
    coded? cs = (fourDigits? (cs.take 4)).bind charOfCodePoint? := by
  unfold coded?
  simp only
  generalize cs.take 4 = four
  by_cases hlength : four.length = 4
  · obtain ⟨a, b, c, d, rfl⟩ := List.length_eq_four.mp hlength
    rw [← number?_four]
    cases hnumber : number? [a, b, c, d] with
    | none => rfl
    | some n =>
      rw [byteCount_of_number? hnumber, Option.bind_some]
      cases charOfCodePoint? n <;> rfl
  · -- a number of fewer characters has fewer bytes
    rw [fourDigits?_of_length_ne hlength, Option.bind_none, Option.filter_eq_none_iff]
    intro x hx
    obtain ⟨n, hnumber, _⟩ := Option.bind_eq_some_iff.mp hx
    rw [byteCount_of_number? hnumber]
    simpa using hlength

/-! ### Reading -/

/-- `sequence?` as `scan` looks at it: first for a letter, and then for a number behind a `u`. -/
theorem sequence?_cons (c : Char) (rest : List Char) :
    sequence? (c :: rest)
      = match named? c with
        | some x => some (x, 1)
        | none => if c = 'u' then (coded? rest).map (·, 5) else none := by
  unfold sequence?
  split
  case h_8 rest' heq =>
    obtain ⟨rfl, rfl⟩ := List.cons.inj heq
    rw [← coded?_eq]
    rfl
  case h_9 hslash hquote hn hr ht hb hf hu =>
    have hnamed : named? c = none := by
      unfold named?
      split <;> first | rfl | simp_all
    have hne : c ≠ 'u' := by
      rintro rfl
      exact hu rest rfl
    rw [hnamed, if_neg hne]
  all_goals
    next heq =>
    obtain ⟨rfl, rfl⟩ := List.cons.inj heq
    rfl

/-- A text that starts with a backslash ends there or goes on with a pair. (The last case of
    `scan` excludes both.) -/
theorem ne_backslash {c : Char} {rest : List Char} (hlone : c = '\\' → rest = [] → False)
    (hpair : ∀ d behind, c = '\\' → rest = d :: behind → False) : c ≠ '\\' := by
  rintro rfl
  cases rest with
  | nil => exact hlone rfl rfl
  | cons d behind => exact hpair d behind rfl rfl

/-- `scan` goes past every character but a backslash. -/
theorem scan_plain {c : Char} (h : c ≠ '\\') (rest : List Char) :
    scan (c :: rest) = c :: scan rest := by
  rw [scan]
  · rintro rfl _
    exact h rfl
  · rintro _ _ rfl _
    exact h rfl

/-- A backslash that starts no sequence is kept by `unescapeFrom`, and so is the character behind
    it. -/
theorem unescapeFrom_other {done rest : List Char} {c : Char} (hnamed : named? c = none)
    (hseq : sequence? (c :: rest) = none) :
    unescapeFrom done ('\\' :: c :: rest) = unescapeFrom (c :: '\\' :: done) rest := by
  have hne : c ≠ '\\' := by
    rintro rfl
    cases hnamed
  rw [unescapeFrom, if_pos rfl, hseq]
  simp only
  rw [unescapeFrom, if_neg hne]

/-- `unescapeFrom` reads like `scan`, with what has been read so far in front. Along the recursion
    of `scan`. -/
theorem unescapeFrom_eq_scan (done cs : List Char) :
    unescapeFrom done cs = done.reverse ++ scan cs := by
  -- what has been read so far only stands in front, in the opposite order
  fun_induction scan cs generalizing done with
  | case1 => rw [unescapeFrom, List.append_nil]
  | case2 =>
    rw [unescapeFrom, if_pos rfl]
    show unescapeFrom ('\\' :: done) [] = _
    rw [unescapeFrom, List.reverse_cons]
  | case3 c rest x hnamed ih =>
    rw [unescapeFrom, if_pos rfl, sequence?_cons, hnamed]
    exact (ih (x :: done)).trans (by simp)
  | case4 rest x hcoded hnamed ih =>
    rw [unescapeFrom, if_pos rfl, sequence?_cons, hnamed, hcoded]
    exact (ih (x :: done)).trans (by simp)
  | case5 rest hcoded hnamed ih =>
    -- a `u` without a number behind it
    rw [unescapeFrom_other hnamed (by rw [sequence?_cons, hnamed, hcoded]; rfl), ih]
    simp
  | case6 c rest hnamed hu ih =>
    -- some other character behind the backslash
    rw [unescapeFrom_other hnamed (by rw [sequence?_cons, hnamed]; exact if_neg hu), ih]
    simp
  | case7 c rest hlone hpair ih =>
    rw [unescapeFrom, if_neg (ne_backslash hlone hpair), ih]
    simp

/-- `unescapeFrom_eq_scan` for a text of which nothing has been read. -/
theorem unescapeChars_eq_scan (cs : List Char) : unescapeChars cs = scan cs :=
  unescapeFrom_eq_scan [] cs

/-- Without a backslash nothing is replaced by `scan`. -/
theorem scan_of_notMem {cs : List Char} (h : '\\' ∉ cs) : scan cs = cs := by
  induction cs with
  | nil => rw [scan]
  | cons c rest ih =>
    obtain ⟨hne, hrest⟩ := List.ne_and_not_mem_of_not_mem_cons h
    rw [scan_plain hne.symm, ih hrest]

/-- The answer of `unescape` is that of `Text.unescape`, whether or not the text is handed back as
    it is. -/
theorem text_unescape (s : String) : (unescape s).text = Text.unescape s := by
  rw [Text.unescape, unescapeChars_eq_scan]
  unfold unescape
  split
  · rfl
  · next hclean =>
    have hnone : '\\' ∉ s.toList := fun h => hclean (List.contains_iff_mem.mpr h)
    rw [scan_of_notMem hnone, String.ofList_toList]
    rfl

/-! ### Round trip -/

/-- An escaped text is read as the text. This is so whatever follows: no sequence of it ends behind
    its end, and none goes on where another one has ended. -/
theorem unescape_escape (s t : String) :
    (unescape (escape s).text).text = s ∧
      (unescape ((escape s).text ++ t)).text = s ++ (unescape t).text := by
  simp only [text_escape, text_unescape]
  constructor
  · rw [Text.unescape, Text.escape, String.toList_ofList, unescapeChars_escapeChars,
      String.ofList_toList]
  · have hchars : unescapeChars (escapeChars s.toList ++ t.toList)
        = s.toList ++ unescapeChars t.toList := by
      rw [unescapeChars, unescapeFrom_escapeChars, List.append_nil, unescapeFrom_eq_scan,
        List.reverse_reverse, unescapeChars_eq_scan]
    rw [Text.unescape, Text.unescape, Text.escape, String.toList_append, String.toList_ofList,
      hchars, String.ofList_append, String.ofList_toList]

end Sparing

end EventReporter.Text
