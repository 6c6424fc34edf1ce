import EventReporter.Text
import EventReporter.Text.Cut
import Mathlib.Data.List.TakeWhile
namespace EventReporter.Text

/-!
# Zero bytes in UTF-8

Fixed fields end a name at its first zero byte. The only character whose UTF-8 form has a zero
byte is the one with code point zero, so a field never ends a name inside of a character, and a
name without that character is safe in it.

* `takeWhile_utf8` : what stands before the first zero byte is the text up to that character.
* `mem_of_mem_cut` : a text that is cut has no new characters.
* `nul_notMem_of_isName` : names are without that character.
-/

/-- The character with code point zero. -/
def nul : Char := '\x00'

/-- The bytes of a text are those of its characters, one after the other
    (`String.utf8EncodeChar`). -/
theorem utf8_eq_flatMap (s : String) : utf8 s = s.toList.flatMap String.utf8EncodeChar := by
  rw [utf8, ← String.utf8Encode_toList, List.utf8Encode, List.data_toByteArray]

/-- No character but `nul` has a zero among its bytes. One case for each length of the form. -/
theorem zero_notMem_utf8EncodeChar {c : Char} (h : c ≠ nul) :
    (0 : UInt8) ∉ String.utf8EncodeChar c := by
  have hpos : c.val.toNat ≠ 0 := by
    intro hzero
    exact h (Char.ext (UInt32.toNat_inj.mp hzero))
  have hbyte : ∀ n : Nat, n % 256 ≠ 0 → (0 : UInt8) ≠ UInt8.ofNat n := by
    intro n hn hzero
    exact hn ((UInt8.toNat_ofNat' (n := n)).symm.trans (congrArg UInt8.toNat hzero.symm))
  unfold String.utf8EncodeChar
  simp only
  -- every byte of a longer form has its highest bit set
  split
  · simp only [List.mem_singleton]
    exact hbyte _ (by omega)
  · split
    · simp only [List.mem_cons, List.not_mem_nil, or_false, not_or]
      exact ⟨hbyte _ (by omega), hbyte _ (by omega)⟩
    · split
      · simp only [List.mem_cons, List.not_mem_nil, or_false, not_or]
        exact ⟨hbyte _ (by omega), hbyte _ (by omega), hbyte _ (by omega)⟩
      · simp only [List.mem_cons, List.not_mem_nil, or_false, not_or]
        exact ⟨hbyte _ (by omega), hbyte _ (by omega), hbyte _ (by omega), hbyte _ (by omega)⟩

/-- The characters of a text before its first zero character, all of them if it has none. -/
def upToNul (s : String) : String :=
  String.ofList (s.toList.takeWhile (· ≠ nul))

/-- A text without `nul` is what `upToNul` leaves of it. -/
theorem upToNul_of_noNul {s : String} (h : nul ∉ s.toList) : upToNul s = s := by
  have hall : ∀ c ∈ s.toList, decide (c ≠ nul) = true := by
    intro c hc
    rw [decide_eq_true_eq]
    rintro rfl
    exact h hc
  rw [upToNul, List.takeWhile_eq_self_iff.mpr hall, String.ofList_toList]

/-- The bytes before the first zero are those of the characters before the first `nul`, also where
    zeros fill up a field behind them. -/
theorem takeWhile_flatMap_utf8EncodeChar (cs : List Char) (pad : Nat) :
    (cs.flatMap String.utf8EncodeChar ++ List.replicate pad 0).takeWhile (· != 0)
      = (cs.takeWhile (· ≠ nul)).flatMap String.utf8EncodeChar := by
  -- on the characters: the zero character is one zero byte, any other is taken as a whole
  induction cs with
  | nil => cases pad <;> rfl
  | cons c rest ih =>
    rw [List.flatMap_cons, List.append_assoc]
    by_cases hc : c = nul
    · subst hc
      rfl
    · -- all bytes of the character are taken, and then those of the others
      have hbytes : ∀ b ∈ String.utf8EncodeChar c, (b != 0) = true := by
        intro b hb
        have hne : b ≠ 0 := fun heq => zero_notMem_utf8EncodeChar hc (heq ▸ hb)
        simpa using hne
      rw [List.takeWhile_append_of_pos hbytes, ih, List.takeWhile_cons_of_pos (by simpa using hc),
        List.flatMap_cons]

/-- What stands in a field before its first zero is the text up to its first `nul`:
    `takeWhile_flatMap_utf8EncodeChar` for the characters of a text. -/
theorem takeWhile_utf8 (s : String) (pad : Nat) :
    (utf8 s ++ List.replicate pad 0).takeWhile (· != 0) = utf8 (upToNul s) := by
  rw [utf8_eq_flatMap, takeWhile_flatMap_utf8EncodeChar, utf8_eq_flatMap, upToNul,
    String.toList_ofList]

/-- No character comes in when a text is `cut`. -/
theorem mem_of_mem_cut {max : Nat} {s : String} {c : Char} (h : c ∈ (cut max s).toList) :
    c ∈ s.toList := by
  unfold cut at h
  split at h
  · exact h
  · rw [String.toList_ofList] at h
    exact List.mem_of_mem_take h

/-! ### Names -/

/-- A name keeps to its limit. -/
theorem size_le_of_isName {max : Nat} {s : String} (h : isName max s = true) :
    s.utf8ByteSize ≤ max := by
  unfold isName at h
  split at h
  · cases h
  · rw [Bool.and_eq_true, Bool.and_eq_true, decide_eq_true_eq] at h
    exact h.1.2

/-- A name is without `nul`: it is made of letters, digits and underscores. -/
theorem nul_notMem_of_isName {max : Nat} {s : String} (h : isName max s = true) :
    nul ∉ s.toList := by
  unfold isName at h
  split at h
  · cases h
  · next c rest hs =>
    rw [Bool.and_eq_true, Bool.and_eq_true, List.all_eq_true] at h
    obtain ⟨⟨hfirst, _⟩, hrest⟩ := h
    rw [hs, List.mem_cons]
    rintro (rfl | hmem)
    · exact absurd hfirst (by decide)
    · exact absurd (hrest nul hmem) (by decide)

end EventReporter.Text
