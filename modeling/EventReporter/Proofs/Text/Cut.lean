import EventReporter.Proofs.Text.Utf8
import EventReporter.Text.Cut
import Mathlib.Data.List.Basic
import Mathlib.Data.List.Forall2
namespace EventReporter.Text

/-!
# Cutting keeps as much as it can

What is left of a text is made of its first characters, and no more of these would fit. To search
the bytes of a text for a boundary from the limit down comes to the same as to count the characters
that fit. A character has four bytes at most, so the search ends at most three bytes below the
limit, and never below zero.

* `shortened_cut` : a text is cut to the longest part from its start that keeps to the limit.
* `lastBoundary?_utf8` : where the search ends.
* `cutBack?_eq`, `cutEach?_eq` : both ways of cutting agree.
-/

/-! ### The longest part that fits -/

/-- `t` is the longest part of `s` from its start that is made of whole characters and has at most
    `max` bytes. -/
structure Shortened (max : Nat) (s t : String) : Prop where
  /-- It is made of the first characters of the text. -/
  isPrefix : t.toList <+: s.toList
  /-- It keeps to the limit. -/
  fits : t.utf8ByteSize ≤ max
  /-- Whatever else does so is a part of it. -/
  longest : ∀ u : String, u.toList <+: s.toList → u.utf8ByteSize ≤ max → u.toList <+: t.toList

/-- `byteCount` counts the bytes of the characters, which are those of the text. -/
theorem byteCount_toList (s : String) : byteCount s.toList = s.utf8ByteSize := by
  rw [← utf8ByteSize_ofList, String.ofList_toList]

/-- `countFitting` counts all the first characters that fit: by induction on the characters, with
    the room that each leaves. -/
theorem length_le_countFitting {room : Nat} {us cs : List Char} (h : us <+: cs)
    (hfits : byteCount us ≤ room) : us.length ≤ countFitting room cs 0 := by
  induction cs generalizing room us with
  | nil => simp [List.prefix_nil.mp h]
  | cons c rest ih =>
    cases us with
    | nil => exact Nat.zero_le _
    | cons u us =>
      obtain ⟨rfl, htail⟩ := List.cons_prefix_cons.mp h
      rw [byteCount_cons] at hfits
      -- the first character fits, and the others fit into what it leaves
      have hroom : u.utf8Size ≤ room := by omega
      have htailFits : byteCount us ≤ room - u.utf8Size := by omega
      have hrest := ih htail htailFits
      rw [countFitting, if_pos hroom, countFitting_eq_add, List.length_cons]
      omega

/-- `cut` answers the longest first part of a text that fits, which is `Shortened`. -/
theorem shortened_cut (max : Nat) (s : String) : Shortened max s (cut max s) where
  isPrefix := by
    unfold cut
    split
    · exact List.prefix_refl _
    · rw [String.toList_ofList]
      exact List.take_prefix _ _
  fits := utf8ByteSize_cut_le max s
  longest := by
    intro u hfirst hfits
    unfold cut
    split
    · exact hfirst
    · rw [String.toList_ofList, List.prefix_take_iff]
      rw [← byteCount_toList] at hfits
      exact ⟨hfirst, length_le_countFitting hfirst hfits⟩

/-! ### The bytes of a character -/

/-- `startsChar` tells a byte by its number: from 128 on and below 192 it goes on with a
    character. -/
theorem startsChar_ofNat {n : Nat} (h : n < 256) :
    startsChar (UInt8.ofNat n) = decide (n < 128 ∨ 192 ≤ n) := by
  have hn : (UInt8.ofNat n).toNat = n := UInt8.toNat_ofNat_of_lt' h
  unfold startsChar
  rw [decide_eq_decide, UInt8.lt_iff_toNat_lt, UInt8.le_iff_toNat_le, hn]
  rfl

/-- Only the first byte of a character looks like one to `startsChar`. -/
theorem utf8EncodeChar_eq_cons (c : Char) :
    ∃ first more, String.utf8EncodeChar c = first :: more ∧ startsChar first = true ∧
      ∀ b ∈ more, startsChar b = false := by
  have hfirst : ∀ n : Nat, n < 128 ∨ 192 ≤ n → n < 256 → startsChar (UInt8.ofNat n) = true := by
    intro n h hbyte
    rw [startsChar_ofNat hbyte, decide_eq_true h]
  have hnil : ∀ b ∈ ([] : List UInt8), startsChar b = false := List.forall_mem_nil _
  have hcons : ∀ (n : Nat) {more : List UInt8}, (∀ b ∈ more, startsChar b = false) →
      ∀ b ∈ UInt8.ofNat (n % 64 + 128) :: more, startsChar b = false := by
    intro n more hmore
    refine List.forall_mem_cons.mpr ⟨?_, hmore⟩
    rw [startsChar_ofNat (by omega), decide_eq_false (by omega)]
  unfold String.utf8EncodeChar
  simp only
  split
  · exact ⟨_, _, rfl, hfirst _ (by omega) (by omega), hnil⟩
  · split
    · exact ⟨_, _, rfl, hfirst _ (by omega) (by omega), hcons _ hnil⟩
    · split
      · exact ⟨_, _, rfl, hfirst _ (by omega) (by omega), hcons _ (hcons _ hnil)⟩
      · exact ⟨_, _, rfl, hfirst _ (by omega) (by omega), hcons _ (hcons _ (hcons _ hnil))⟩

/-! ### The search -/

/-- `lastBoundary?` ends at the first boundary that it comes to from above. -/
theorem lastBoundary?_eq {bytes : List UInt8} {stop n : Nat} (hstop : isBoundary bytes stop = true)
    (hle : stop ≤ n) (hinside : ∀ m, stop < m → m ≤ n → isBoundary bytes m = false) :
    lastBoundary? bytes n = some stop := by
  induction n with
  | zero =>
    obtain rfl : stop = 0 := Nat.le_zero.mp hle
    exact if_pos hstop
  | succ n ih =>
    rcases Nat.lt_or_eq_of_le hle with hlt | rfl
    · -- no boundary at the top: the search goes one down
      have hnot := hinside (n + 1) hlt (Nat.le_refl _)
      rw [lastBoundary?, hnot]
      exact ih (by omega) fun m hm hmn => hinside m hm (by omega)
    · exact if_pos hstop

/-- `byteCount` is the number of bytes that the characters are written with. -/
theorem length_flatMap_utf8EncodeChar (cs : List Char) :
    (cs.flatMap String.utf8EncodeChar).length = byteCount cs := by
  induction cs with
  | nil => rfl
  | cons c cs ih =>
    rw [List.flatMap_cons, List.length_append, ih, String.length_utf8EncodeChar, byteCount_cons]

/-- `isBoundary` holds before each character, by `utf8EncodeChar_eq_cons`. -/
theorem isBoundary_byteCount (taken : List Char) (c : Char) (tail : List Char) :
    isBoundary ((taken ++ c :: tail).flatMap String.utf8EncodeChar) (byteCount taken) = true := by
  obtain ⟨first, more, hchar, hfirst, -⟩ := utf8EncodeChar_eq_cons c
  unfold isBoundary
  rw [List.flatMap_append, List.flatMap_cons, hchar, ← length_flatMap_utf8EncodeChar,
    List.getElem?_append_right (Nat.le_refl _), Nat.sub_self]
  simp [hfirst]

/-- `isBoundary` holds nowhere inside of a character. -/
theorem isBoundary_inside (taken : List Char) (c : Char) (tail : List Char) {n : Nat}
    (hpast : byteCount taken < n) (hinside : n < byteCount taken + c.utf8Size) :
    isBoundary ((taken ++ c :: tail).flatMap String.utf8EncodeChar) n = false := by
  obtain ⟨first, more, hchar, -, hmore⟩ := utf8EncodeChar_eq_cons c
  have hsize : more.length + 1 = c.utf8Size := by
    rw [← String.length_utf8EncodeChar, hchar, List.length_cons]
  obtain ⟨k, rfl⟩ : ∃ k, n = byteCount taken + (k + 1) := ⟨n - byteCount taken - 1, by omega⟩
  have hk : k < more.length := by omega
  -- position `k + 1` of the character is position `k` of the bytes behind its first
  have hbyte : ((taken ++ c :: tail).flatMap String.utf8EncodeChar)[byteCount taken + (k + 1)]?
      = some more[k] := by
    rw [List.flatMap_append, List.flatMap_cons, hchar, ← length_flatMap_utf8EncodeChar,
      List.getElem?_append_right (Nat.le_add_right _ _), Nat.add_sub_cancel_left, List.cons_append,
      List.getElem?_cons_succ, List.getElem?_append_left hk, List.getElem?_eq_getElem hk]
  unfold isBoundary
  rw [hbyte]
  simpa using hmore _ (List.getElem_mem hk)

/-! ### The limit -/

/-- Behind the characters that `countFitting` counts stands one that does not fit, if they are not
    all. -/
theorem exists_next_of_exceeds {room : Nat} {cs : List Char} (h : room < byteCount cs) :
    ∃ c tail, cs = cs.take (countFitting room cs 0) ++ c :: tail ∧
      room < byteCount (cs.take (countFitting room cs 0)) + c.utf8Size := by
  induction cs generalizing room with
  | nil => exact absurd h (Nat.not_lt_zero _)
  | cons c rest ih =>
    rw [byteCount_cons] at h
    by_cases hfits : c.utf8Size ≤ room
    · have hlong : room - c.utf8Size < byteCount rest := by omega
      obtain ⟨next, tail, hrest, hover⟩ := ih hlong
      refine ⟨next, tail, ?_, ?_⟩
      · rw [countFitting, if_pos hfits, countFitting_eq_add, List.take_succ_cons, List.cons_append,
          ← hrest]
      · rw [countFitting, if_pos hfits, countFitting_eq_add, List.take_succ_cons, byteCount_cons]
        omega
    · -- the first character does not fit, and none is counted
      refine ⟨c, rest, ?_, ?_⟩
      · rw [countFitting, if_neg hfits]
        rfl
      · rw [countFitting, if_neg hfits]
        simp only [List.take_zero, byteCount, List.foldr_nil]
        omega

variable {max : Nat} {s : String}

/-- `cut` takes the characters that fit from a text that is too long. -/
theorem cut_of_exceeds (h : max < s.utf8ByteSize) :
    cut max s = String.ofList (s.toList.take (countFitting max s.toList 0)) :=
  if_neg (Nat.not_le.mpr h)

/-- A text that is too long is cut before a character that goes beyond the limit:
    `exists_next_of_exceeds`, said of `cut`. -/
theorem exists_next_of_cut (h : max < s.utf8ByteSize) :
    ∃ c tail, s.toList = (cut max s).toList ++ c :: tail ∧
      max < (cut max s).utf8ByteSize + c.utf8Size := by
  rw [← byteCount_toList] at h
  obtain ⟨c, tail, hsplit, hover⟩ := exists_next_of_exceeds h
  rw [byteCount_toList] at h
  refine ⟨c, tail, ?_, ?_⟩
  · rwa [cut_of_exceeds h, String.toList_ofList]
  · rwa [cut_of_exceeds h, utf8ByteSize_ofList]

/-- At most three bytes are lost below the limit, for the character that `exists_next_of_cut`
    finds has four at most. -/
theorem le_utf8ByteSize_cut (h : max < s.utf8ByteSize) : max ≤ (cut max s).utf8ByteSize + 3 := by
  obtain ⟨c, tail, -, hover⟩ := exists_next_of_cut h
  have hchar := c.utf8Size_le_four
  omega

/-- `lastBoundary?` ends behind the characters that fit: there a boundary stands, by
    `isBoundary_byteCount`, and from there up to the limit there is none, by
    `isBoundary_inside`. -/
theorem lastBoundary?_utf8 (h : max < s.utf8ByteSize) :
    lastBoundary? (utf8 s) max = some (cut max s).utf8ByteSize := by
  obtain ⟨c, tail, hsplit, hover⟩ := exists_next_of_cut h
  have hfits := utf8ByteSize_cut_le max s
  rw [← byteCount_toList] at hover hfits ⊢
  rw [utf8_eq_flatMap, hsplit]
  refine lastBoundary?_eq (isBoundary_byteCount _ _ _) hfits fun m hpast hm => ?_
  exact isBoundary_inside _ _ _ hpast (by omega)

/-- The bytes up to the end of `cut max s` are those of that text. -/
theorem take_utf8_cut (h : max < s.utf8ByteSize) :
    (utf8 s).take (cut max s).utf8ByteSize = utf8 (cut max s) := by
  obtain ⟨c, tail, hsplit, -⟩ := exists_next_of_cut h
  have hbytes : utf8 s = utf8 (cut max s) ++ (c :: tail).flatMap String.utf8EncodeChar := by
    rw [utf8_eq_flatMap, hsplit, List.flatMap_append, ← utf8_eq_flatMap]
  rw [hbytes, ← length_utf8, List.take_left]

/-- `cutBack?`, which searches for a boundary, comes to an end, and what it leaves is a text, the
    same that `cut` finds by counting characters. -/
theorem cutBack?_eq (max : Nat) (s : String) :
    cutBack? max s = some (cut max s, exceeds max s) := by
  unfold cutBack? exceeds
  by_cases h : s.utf8ByteSize ≤ max
  · rw [if_pos h, cut_of_fits h, decide_eq_false (Nat.not_lt.mpr h)]
  · have hlong : max < s.utf8ByteSize := Nat.not_le.mp h
    rw [if_neg h, lastBoundary?_utf8 hlong, Option.bind_eq_bind, Option.bind_some,
      take_utf8_cut hlong, ofUtf8?_utf8, decide_eq_true hlong]
    rfl

/-- `cutEach?` cuts every text, whatever the ones before it are, and tells if any was too long. -/
theorem cutEach?_eq (max : Nat) (ss : List String) (shorter : Bool) :
    cutEach? max ss shorter = some (ss.map (cut max), ss.any (exceeds max) || shorter) := by
  induction ss generalizing shorter with
  | nil => rfl
  | cons s ss ih =>
    rw [cutEach?, cutBack?_eq]
    simp only [Option.bind_eq_bind, Option.bind_some, ih, Option.pure_def, List.map_cons,
      List.any_cons, Option.some.injEq, Prod.mk.injEq, true_and]
    cases exceeds max s <;> simp

/-- A text `exceeds` the limit exactly if `cut` changes it. -/
theorem exceeds_iff : exceeds max s = true ↔ cut max s ≠ s := by
  unfold exceeds
  rw [decide_eq_true_eq]
  constructor
  · intro h heq
    have hfits := utf8ByteSize_cut_le max s
    rw [heq] at hfits
    omega
  · intro hne
    by_contra hfits
    exact hne (cut_of_fits (Nat.not_lt.mp hfits))

/-! ### Cutting again -/

/-- To `cut` again changes nothing. -/
theorem cut_cut (max : Nat) (s : String) : cut max (cut max s) = cut max s :=
  cut_of_fits (utf8ByteSize_cut_le max s)

/-- What `cut` leaves keeps to the limit. -/
theorem exceeds_cut (max : Nat) (s : String) : exceeds max (cut max s) = false :=
  decide_eq_false (Nat.not_lt.mpr (utf8ByteSize_cut_le max s))

/-! ### Several texts -/

/-- Each text of a list is `Shortened` for itself. -/
theorem forall₂_shortened (max : Nat) (ss : List String) :
    List.Forall₂ (Shortened max) ss (ss.map (cut max)) := by
  rw [List.forall₂_map_right_iff, List.forall₂_same]
  exact fun s _ => shortened_cut max s

/-- One text that `exceeds` the limit is enough, wherever it stands. -/
theorem any_exceeds_iff (max : Nat) (ss : List String) :
    ss.any (exceeds max) = true ↔ ∃ p ∈ ss.zip (ss.map (cut max)), p.2 ≠ p.1 := by
  rw [← List.map_prod_left_eq_zip, List.any_eq_true]
  simp only [List.mem_map, exceeds_iff]
  constructor
  · rintro ⟨s, hs, hne⟩
    exact ⟨_, ⟨s, hs, rfl⟩, hne⟩
  · rintro ⟨_, ⟨s, hs, rfl⟩, hne⟩
    exact ⟨s, hs, hne⟩

/-- To `cut` all texts of a list again changes nothing. -/
theorem map_cut_map_cut (max : Nat) (ss : List String) :
    (ss.map (cut max)).map (cut max) = ss.map (cut max) := by
  rw [List.map_map]
  exact List.map_congr_left fun s _ => cut_cut max s

/-- No text of a list that has been cut `exceeds` the limit. -/
theorem any_exceeds_map_cut (max : Nat) (ss : List String) :
    (ss.map (cut max)).any (exceeds max) = false := by
  rw [List.any_map, List.any_eq_false]
  intro s _
  rw [Function.comp_apply, exceeds_cut]
  exact Bool.false_ne_true

end EventReporter.Text
