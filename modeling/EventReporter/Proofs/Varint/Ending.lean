import EventReporter.Proofs.Varint.Context
import Mathlib.Algebra.Ring.Int.Defs
import Mathlib.Algebra.Ring.Nat
import Mathlib.Data.List.Induction
import Mathlib.Data.Nat.Find
namespace EventReporter.Varint

/-!
# Where a number ends

A number ends with the first byte that says so, if that is one of the first ten, and each byte up to
there adds its bits. Ten bytes that all go on are malformed, and fewer of them are cut off. So it is
for any bytes whatever, those included that spend more of them on a number than they have to.

* `scan_of_endsAt`, `scan_of_noEnd` : what is read off any bytes.
* `stated_lt` : how large a number some bytes can state.
* `length_encode_le_of_lt` : writing spends no byte that is not needed.
* `reads_to_ending` : success, failure and the offset of each reader.
-/

/-! ### The bytes of a number -/

/-- Whether byte `i` of a number says that another one follows: the tag in bit 5, a later byte in
    bit 7. -/
def goesOn : (i : Nat) → (b : UInt8) → Bool
  | 0, b => b.toNat.testBit 5
  | _ + 1, b => b.toNat.testBit 7

/-- What byte `i` adds to a number: the tag its low five bits, a later byte its low seven bits,
    behind those of the bytes before it. -/
def share : (i : Nat) → (b : UInt8) → Nat
  | 0, b => b.toNat % 2 ^ 5
  | i + 1, b => (b.toNat % 2 ^ 7) <<< (5 + 7 * i)

/-- The number that some bytes state together. -/
def stated (bs : List UInt8) : Nat :=
  (bs.mapIdx share).sum

/-- Byte `i` of a number is there, and says that none follows. -/
def EndsAt (bs : List UInt8) (i : Nat) : Prop :=
  ∃ b ∈ bs[i]?, goesOn i b = false

/-- Every byte says that another one follows. -/
def AllGoOn (bs : List UInt8) : Prop :=
  ∀ i, ¬ EndsAt bs i

/-- In the first byte it is bit 5 that says if the number `goesOn`. -/
theorem goesOn_zero (b : UInt8) : goesOn 0 b = decide (b.toNat / 32 % 2 = 1) :=
  Nat.testBit_eq_decide_div_mod_eq

/-- In all others it is bit 7, so that the byte is 128 or more. -/
theorem goesOn_succ (i : Nat) (b : UInt8) : goesOn (i + 1) b = decide (128 ≤ b.toNat) := by
  have hlt := b.toNat_lt
  rw [goesOn, Nat.testBit_eq_decide_div_mod_eq, decide_eq_decide]
  omega

/-- The `share` of a byte behind the first: its seven bits, behind five and seven for each byte
    before it. -/
theorem share_succ (i : Nat) (b : UInt8) :
    share (i + 1) b = b.toNat % 128 * 2 ^ (5 + 7 * i) :=
  Nat.shiftLeft_eq _ _

/-- `stated` counts one more byte by its `share`. -/
theorem stated_concat (bs : List UInt8) (b : UInt8) :
    stated (bs ++ [b]) = stated bs + share bs.length b := by
  rw [stated, List.mapIdx_concat, List.sum_append, List.sum_singleton]
  rfl

/-- The bytes before the first that ends a number go on: `AllGoOn`. -/
theorem allGoOn_take {bs : List UInt8} {n : Nat} (h : ∀ i < n, ¬ EndsAt bs i) :
    AllGoOn (bs.take n) := by
  rintro i ⟨b, hb, hends⟩
  rw [Option.mem_def, List.getElem?_take] at hb
  split at hb
  · next hi => exact h i hi ⟨b, hb, hends⟩
  · cases hb

/-- Of bytes that go on the last one does, and so do the others. -/
theorem allGoOn_concat {bs : List UInt8} {b : UInt8} (h : AllGoOn (bs ++ [b])) :
    AllGoOn bs ∧ goesOn bs.length b = true := by
  constructor
  · rintro i ⟨b', hb', hends⟩
    refine h i ⟨b', ?_, hends⟩
    rw [Option.mem_def] at hb' ⊢
    obtain ⟨hi, -⟩ := List.getElem?_eq_some_iff.mp hb'
    rw [List.getElem?_append_left hi, hb']
  · by_contra hends
    refine h bs.length ⟨b, ?_, Bool.not_eq_true _ ▸ hends⟩
    rw [Option.mem_def, List.getElem?_concat_length]

/-! ### Scanning -/

/-- `scan` passes over bytes that go on, and adds up their bits as `stated` does. By induction on
    these bytes from the last one back, for that one is where the groups still to come start. -/
theorem scan_append {front : List UInt8} {used : Nat} (hlength : front.length = used + 1)
    (hmax : front.length ≤ maxBytes) (h : AllGoOn front) (rest : List UInt8) :
    scan (front ++ rest) = scanGroups (stated front) (2 ^ (5 + 7 * used)) (used + 1) rest := by
  -- byte by byte from the end, since a scan that goes on is one of the bytes before
  induction front using List.reverseRecOn generalizing used rest with
  | nil => cases hlength
  | append_singleton front b ih =>
    obtain ⟨hfront, hb⟩ := allGoOn_concat h
    rw [List.length_append, List.length_singleton] at hlength hmax
    obtain rfl : used = front.length := by omega
    rw [List.append_assoc, List.singleton_append, stated_concat]
    -- the tag has a unit and a bit of its own
    cases hused : front.length with
    | zero =>
      obtain rfl := List.length_eq_zero_iff.mp hused
      rw [List.length_nil, goesOn_zero, decide_eq_true_eq] at hb
      rw [List.nil_append, scan, if_pos hb]
      simp [stated, share]
    | succ before =>
      rw [hused, goesOn_succ, decide_eq_true_eq] at hb
      have hroom : ¬ maxBytes ≤ before + 1 := by omega
      have hunit : 128 * 2 ^ (5 + 7 * before) = 2 ^ (5 + 7 * (before + 1)) := by
        rw [Nat.mul_add, ← Nat.add_assoc, Nat.pow_add _ _ 7, Nat.mul_comm]
      rw [ih hused (by omega) hfront, scanGroups, if_neg hroom, if_pos hb, share_succ, hunit]

/-- `scan` reads a number to its end: `scan_append` up to the last byte, which does not go on. -/
theorem scan_of_endsAt {bs : List UInt8} {k : Nat} (hk : k < maxBytes) (hends : EndsAt bs k)
    (hfirst : ∀ i < k, ¬ EndsAt bs i) :
    scan bs = .complete (stated (bs.take (k + 1))) (k + 1) := by
  obtain ⟨b, hb, hlast⟩ := hends
  obtain ⟨hlt, hget⟩ := List.getElem?_eq_some_iff.mp hb
  have hlength : (bs.take k).length = k := List.length_take_of_le (Nat.le_of_lt hlt)
  have htake : bs.take (k + 1) = bs.take k ++ [b] := by
    rw [List.take_add_one, hb]
    rfl
  have hsplit : bs = bs.take k ++ b :: bs.drop (k + 1) := by
    rw [← hget, ← List.drop_eq_getElem_cons hlt, List.take_append_drop]
  rw [htake, stated_concat, hlength]
  cases k with
  | zero =>
    rw [goesOn_zero, decide_eq_false_iff_not] at hlast
    rw [hsplit, List.take_zero, List.nil_append, scan, if_neg hlast]
    simp [stated, share]
  | succ used =>
    rw [goesOn_succ, decide_eq_false_iff_not] at hlast
    have hfront := scan_append hlength (by omega) (allGoOn_take hfirst) (b :: bs.drop (used + 2))
    rw [hsplit, List.take_left' hlength, hfront, scanGroups, if_neg (by omega), if_neg hlast,
      share_succ]

/-- `scan` finds bytes that do not end a number too many or too few: `scan_append` over all of
    them, up to ten. -/
theorem scan_of_noEnd {bs : List UInt8} (h : ∀ i < maxBytes, ¬ EndsAt bs i) :
    scan bs = if maxBytes ≤ bs.length then .endless else .truncated bs.length := by
  have hfront := allGoOn_take h
  have hlength : (bs.take maxBytes).length = min maxBytes bs.length := List.length_take
  cases hused : (bs.take maxBytes).length with
  | zero =>
    have hnil : bs.length = 0 := by
      rw [hused, maxBytes] at hlength
      omega
    obtain rfl := List.length_eq_zero_iff.mp hnil
    rfl
  | succ used =>
    have hscan := scan_append hused (by omega) hfront (bs.drop maxBytes)
    rw [List.take_append_drop] at hscan
    rw [hscan]
    by_cases hlong : maxBytes ≤ bs.length
    · have hfull : maxBytes ≤ used + 1 := by omega
      rw [if_pos hlong]
      -- ten bytes go on, and no other byte is looked at
      cases bs.drop maxBytes with
      | nil => rw [scanGroups, if_pos hfull]
      | cons b rest => rw [scanGroups, if_pos hfull]
    · have hshort : ¬ maxBytes ≤ used + 1 := by omega
      have hall : used + 1 = bs.length := by omega
      rw [if_neg hlong, List.drop_of_length_le (by omega), scanGroups, if_neg hshort, hall]

/-! ### Sizes -/

/-- A byte has room for seven bits, or for five if it is the tag, and `stated` is below what these
    make. -/
theorem stated_lt {bs : List UInt8} {k : Nat} (h : bs.length = k + 1) :
    stated bs < 32 * 128 ^ k := by
  induction bs using List.reverseRecOn generalizing k with
  | nil => cases h
  | append_singleton bs b ih =>
    rw [List.length_append, List.length_singleton] at h
    obtain rfl : k = bs.length := by omega
    rw [stated_concat]
    cases hlength : bs.length with
    | zero =>
      obtain rfl := List.length_eq_zero_iff.mp hlength
      simp only [stated, share, List.mapIdx_nil, List.sum_nil]
      omega
    | succ before =>
      have hbefore := ih hlength
      -- all bytes before have room for `32 * 128 ^ before` numbers, the new one for 128 times as
      -- many
      have hunit : 2 ^ (5 + 7 * before) = 32 * 128 ^ before := by
        rw [Nat.pow_add, Nat.pow_mul]
      have hgroup : b.toNat % 128 ≤ 127 := by omega
      have hshare := Nat.mul_le_mul_right (32 * 128 ^ before) hgroup
      rw [share_succ, hunit, Nat.pow_succ]
      omega

/-- `groups` makes no more of a number than it has bits for. -/
theorem length_groups_le_of_lt {k n : Nat} (h : n < 128 ^ k) (room : Nat) :
    (groups room n).length ≤ k := by
  induction room generalizing k n with
  | zero => exact Nat.zero_le k
  | succ room ih =>
    rw [groups]
    split
    · exact Nat.zero_le k
    · next hn =>
      cases k with
      | zero => omega
      | succ k =>
        have hrest : n / 128 < 128 ^ k := by
          rw [Nat.pow_succ] at h
          omega
        exact Nat.succ_le_succ (ih hrest)

/-- `encode` takes no more bytes for a number than it needs, by `length_groups_le_of_lt` behind
    the tag. -/
theorem length_encode_le_of_lt (purpose : Purpose) {k n : Nat} (h : n < 32 * 128 ^ k) :
    (encode purpose n).length ≤ k + 1 := by
  have hrest : n / 32 < 128 ^ k := by omega
  exact Nat.succ_le_succ (length_groups_le_of_lt hrest _)

/-- `signMagnitude` states no integer by a larger number than one it was read from. It may be a
    smaller one: 1 is read as zero, which is written as 0. -/
theorem signMagnitude_ofSignMagnitude_le (n : Nat) : signMagnitude (ofSignMagnitude n) ≤ n := by
  unfold signMagnitude ofSignMagnitude
  split <;> split <;> omega

/-! ### Reading -/

section Reading

variable {α β : Type} (data : List UInt8) (offset : Nat)

/-- A reader that goes on to `judge` what was read, and does not move any more, ends where the
    first one did. -/
theorem runAt_bind_judge {r : Read α} {f : α → Read β} (judge : α → Except WireError β)
    (hf : ∀ x c, f x c = match judge x with
      | .ok y => .ok y c
      | .error e => .error e c) :
    (r >>= f).runAt data offset
      = ((r.runAt data offset).1 >>= judge, (r.runAt data offset).2) := by
  unfold Read.runAt
  rw [bind_apply]
  cases r (Cursor.ofBytes data offset) with
  | error e c => rfl
  | ok x c =>
    simp only [hf]
    cases hjudge : judge x with
    | ok y => exact Prod.ext hjudge.symm rfl
    | error e => exact Prod.ext hjudge.symm rfl

/-- `read` at an offset is `scan` of the bytes from there on. -/
theorem runAt_read :
    read.runAt data offset = match scan (data.drop offset) with
      | .complete n used =>
        (.ok (((data.drop offset).head?.map Purpose.ofTag).getD .value, n), offset + used)
      | .truncated used => (.error (.tooShort (offset + used + 1) data.length), offset)
      | .endless => (.error (.badVarint offset), offset) := by
  have hrest : (Cursor.ofBytes data offset).rest = data.drop offset := rfl
  unfold Read.runAt read
  rw [hrest]
  cases scan (data.drop offset) <;> rfl

/-- A natural number of 64 bits, read at `start`. -/
def judgeNatural (start : Nat) (x : Purpose × Nat) : Except WireError (Purpose × Nat) :=
  if x.2 < Width.w64.count then .ok x else .error (.badVarint start)

/-- An integer of 64 bits, read at `start`. -/
def judgeInteger (start : Nat) (x : Purpose × Nat) : Except WireError (Purpose × Int) :=
  if -(Width.w64.half : Int) ≤ ofSignMagnitude x.2 ∧ ofSignMagnitude x.2 < Width.w64.half then
    .ok (x.1, ofSignMagnitude x.2)
  else .error (.badVarint start)

/-- `readUnsigned` reads as `read` does and then judges with `judgeNatural`. -/
theorem runAt_readUnsigned :
    readUnsigned.runAt data offset
      = ((read.runAt data offset).1 >>= judgeNatural offset, (read.runAt data offset).2) := by
  refine runAt_bind_judge data offset (judgeNatural offset) ?_
  rintro ⟨purpose, n⟩ c
  simp only [judgeNatural]
  split <;> rfl

/-- `readSigned` reads as `read` does and then judges with `judgeInteger`. -/
theorem runAt_readSigned :
    readSigned.runAt data offset
      = ((read.runAt data offset).1 >>= judgeInteger offset, (read.runAt data offset).2) := by
  refine runAt_bind_judge data offset (judgeInteger offset) ?_
  rintro ⟨purpose, n⟩ c
  simp only [judgeInteger]
  split <;> rfl

/-- There is a first byte that ends a number, or none among those that a number may have. -/
theorem exists_first_end (bs : List UInt8) :
    (∃ k < maxBytes, EndsAt bs k ∧ ∀ i < k, ¬ EndsAt bs i) ∨ ∀ i < maxBytes, ¬ EndsAt bs i := by
  classical
  by_cases h : ∃ i, i < maxBytes ∧ EndsAt bs i
  · obtain ⟨hk, hends⟩ := Nat.find_spec h
    refine .inl ⟨Nat.find h, hk, hends, fun i hi hearlier => ?_⟩
    exact Nat.find_min h hi ⟨Nat.lt_trans hi hk, hearlier⟩
  · exact .inr fun i hi hends => h ⟨i, hi, hends⟩

variable {data : List UInt8} {offset : Nat}

/-- `scan_of_endsAt` at an offset: the number and its purpose, and the offset behind the byte that
    ends it. -/
theorem runAt_read_of_endsAt {k : Nat} (hk : k < maxBytes) (hends : EndsAt (data.drop offset) k)
    (hfirst : ∀ i < k, ¬ EndsAt (data.drop offset) i) {tag : UInt8}
    (htag : tag ∈ (data.drop offset).head?) :
    read.runAt data offset
      = (.ok (Purpose.ofTag tag, stated ((data.drop offset).take (k + 1))), offset + k + 1) := by
  rw [runAt_read, scan_of_endsAt hk hends hfirst, Option.mem_def.mp htag]
  rfl

/-- `scan_of_noEnd` at an offset: which of the two errors, with the offset where it was. -/
theorem runAt_read_of_noEnd (h : offset ≤ data.length)
    (hnone : ∀ i < maxBytes, ¬ EndsAt (data.drop offset) i) :
    read.runAt data offset
      = (.error (if maxBytes ≤ (data.drop offset).length then .badVarint offset
          else .tooShort (data.length + 1) data.length), offset) := by
  rw [runAt_read, scan_of_noEnd hnone]
  by_cases hlong : maxBytes ≤ (data.drop offset).length
  · rw [if_pos hlong, if_pos hlong]
  · have hend : offset + (data.drop offset).length = data.length := by
      rw [List.length_drop]
      omega
    rw [if_neg hlong, if_neg hlong]
    simp only [hend]

/-- There is a tag where a number ends. -/
theorem exists_tag {bs : List UInt8} {k : Nat} (h : EndsAt bs k) : ∃ tag, tag ∈ bs.head? := by
  cases bs with
  | nil =>
    obtain ⟨b, hb, -⟩ := h
    cases hb
  | cons tag rest => exact ⟨tag, rfl⟩

/-- When `read` answers a number, and why else it does not: with `exists_first_end`, one of the
    two lemmas above tells the answer. -/
theorem runAt_read_iff (h : offset ≤ data.length) :
    let ahead := data.drop offset
    let raw := read.runAt data offset
    (raw.1.isOk = true ↔ ∃ i < maxBytes, EndsAt ahead i) ∧
      (raw.1 = .error (.badVarint offset) ↔
        maxBytes ≤ ahead.length ∧ ∀ i < maxBytes, ¬ EndsAt ahead i) ∧
      (raw.1 = .error (.tooShort (data.length + 1) data.length) ↔
        ahead.length < maxBytes ∧ ∀ i < maxBytes, ¬ EndsAt ahead i) ∧
      ∀ e, raw.1 = .error e → raw.2 = offset := by
  intro ahead raw
  obtain ⟨k, hk, hends, hfirst⟩ | hnone := exists_first_end ahead
  · obtain ⟨tag, htag⟩ := exists_tag hends
    have hrun : raw = _ := runAt_read_of_endsAt hk hends hfirst htag
    rw [hrun]
    refine ⟨⟨fun _ => ⟨k, hk, hends⟩, fun _ => rfl⟩, ⟨nofun, ?_⟩, ⟨nofun, ?_⟩, nofun⟩
    · rintro ⟨-, hnone⟩
      exact absurd hends (hnone k hk)
    · rintro ⟨-, hnone⟩
      exact absurd hends (hnone k hk)
  · have hrun : raw = _ := runAt_read_of_noEnd h hnone
    rw [hrun]
    have hfails : ¬ ∃ i < maxBytes, EndsAt ahead i := fun ⟨i, hi, hends⟩ => hnone i hi hends
    refine ⟨iff_of_false nofun hfails, ?_, ?_, fun _ _ => rfl⟩
    · split
      · next hlong => exact ⟨fun _ => ⟨hlong, hnone⟩, fun _ => rfl⟩
      · next hshort => exact ⟨nofun, fun hboth => absurd hboth.1 hshort⟩
    · split
      · next hlong => exact ⟨nofun, fun hboth => absurd hlong (Nat.not_le_of_lt hboth.1)⟩
      · next hshort => exact ⟨fun _ => ⟨Nat.lt_of_not_le hshort, hnone⟩, fun _ => rfl⟩

/-- What is read has room in the bytes that it was read from, by `stated_lt`. -/
theorem lt_of_runAt_read (h : offset ≤ data.length) {purpose : Purpose} {n : Nat}
    (hread : (read.runAt data offset).1 = .ok (purpose, n)) :
    ∃ k, n < 32 * 128 ^ k ∧ (read.runAt data offset).2 = offset + k + 1 := by
  obtain ⟨k, hk, hends, hfirst⟩ | hnone := exists_first_end (data.drop offset)
  · obtain ⟨tag, htag⟩ := exists_tag hends
    have hrun := runAt_read_of_endsAt hk hends hfirst htag
    rw [hrun] at hread ⊢
    obtain ⟨b, hb, -⟩ := hends
    obtain ⟨hlt, -⟩ := List.getElem?_eq_some_iff.mp hb
    have hlength : ((data.drop offset).take (k + 1)).length = k + 1 :=
      List.length_take_of_le hlt
    cases hread
    exact ⟨k, stated_lt hlength, rfl⟩
  · rw [runAt_read_of_noEnd h hnone] at hread
    cases hread

/-- `judgeNatural` accepts the numbers of 64 bits as they are. -/
theorem runAt_readUnsigned_eq_ok {purpose : Purpose} {n : Nat} :
    (readUnsigned.runAt data offset).1 = .ok (purpose, n) ↔
      (read.runAt data offset).1 = .ok (purpose, n) ∧ n < Width.w64.count := by
  rw [runAt_readUnsigned]
  cases (read.runAt data offset).1 with
  | error e => exact ⟨nofun, nofun⟩
  | ok x =>
    show judgeNatural offset x = _ ↔ _
    unfold judgeNatural
    split
    · next hlt =>
      refine ⟨fun heq => ⟨heq, ?_⟩, And.left⟩
      cases heq
      exact hlt
    · next hge =>
      refine ⟨nofun, ?_⟩
      rintro ⟨⟨⟩, hlt⟩
      exact absurd hlt hge

/-- `judgeInteger` accepts the numbers that state an integer of 64 bits, and answers that
    integer. -/
theorem runAt_readSigned_eq_ok {purpose : Purpose} {i : Int} :
    (readSigned.runAt data offset).1 = .ok (purpose, i) ↔
      ∃ n, (read.runAt data offset).1 = .ok (purpose, n) ∧ i = ofSignMagnitude n ∧
        -(Width.w64.half : Int) ≤ i ∧ i < Width.w64.half := by
  rw [runAt_readSigned]
  cases (read.runAt data offset).1 with
  | error e => exact ⟨nofun, nofun⟩
  | ok x =>
    show judgeInteger offset x = _ ↔ _
    unfold judgeInteger
    split
    · next hfits =>
      constructor
      · rintro ⟨⟩
        exact ⟨x.2, rfl, rfl, hfits⟩
      · rintro ⟨n, ⟨⟩, rfl, -⟩
        rfl
    · next hnot =>
      refine ⟨nofun, ?_⟩
      rintro ⟨n, ⟨⟩, rfl, hfits⟩
      exact absurd hfits hnot

end Reading

/-- Whatever the bytes behind an offset are: a number is read exactly if one of the first ten ends
    it, as the bits up to the first that does, and the offset moves behind that byte. Ten bytes that
    go on are malformed, fewer of them too short, and neither moves the offset. A natural number or
    an integer is accepted exactly if it has no more than 64 bits, with the offset where it is after
    the number. To write it again takes no more bytes than were read. -/
theorem reads_to_ending {data : List UInt8} {offset : Nat} (h : offset ≤ data.length) :
    let ahead := data.drop offset
    let raw := read.runAt data offset
    let natural := readUnsigned.runAt data offset
    let integer := readSigned.runAt data offset
    (raw.1.isOk = true ↔ ∃ i < maxBytes, EndsAt ahead i) ∧
      (∀ k < maxBytes, EndsAt ahead k → (∀ i < k, ¬ EndsAt ahead i) → ∀ tag ∈ ahead.head?,
        raw = (.ok (Purpose.ofTag tag, stated (ahead.take (k + 1))), offset + k + 1)) ∧
      (raw.1 = .error (.badVarint offset) ↔
        maxBytes ≤ ahead.length ∧ ∀ i < maxBytes, ¬ EndsAt ahead i) ∧
      (raw.1 = .error (.tooShort (data.length + 1) data.length) ↔
        ahead.length < maxBytes ∧ ∀ i < maxBytes, ¬ EndsAt ahead i) ∧
      (∀ e, raw.1 = .error e → raw.2 = offset) ∧
      natural.2 = raw.2 ∧ integer.2 = raw.2 ∧
      (∀ purpose n, natural.1 = .ok (purpose, n) ↔ raw.1 = .ok (purpose, n) ∧ n < 2 ^ 64) ∧
      (∀ purpose i, integer.1 = .ok (purpose, i) ↔
        ∃ n, raw.1 = .ok (purpose, n) ∧ i = ofSignMagnitude n ∧ -2 ^ 63 ≤ i ∧ i < 2 ^ 63) ∧
      (∀ purpose n, natural.1 = .ok (purpose, n) →
        offset + (encode purpose n).length ≤ natural.2) ∧
      ∀ purpose i, integer.1 = .ok (purpose, i) →
        offset + (encodeSigned purpose i).length ≤ integer.2 := by
  intro ahead raw natural integer
  have hnatural : natural.2 = raw.2 := by
    show (readUnsigned.runAt data offset).2 = _
    rw [runAt_readUnsigned]
  have hinteger : integer.2 = raw.2 := by
    show (readSigned.runAt data offset).2 = _
    rw [runAt_readSigned]
  obtain ⟨hok, hendless, hshort, hstill⟩ := runAt_read_iff h
  refine ⟨hok, ?_, hendless, hshort, hstill, hnatural, hinteger, ?_, ?_, ?_, ?_⟩
  · intro k hk hends hfirst tag htag
    exact runAt_read_of_endsAt hk hends hfirst htag
  · intro purpose n
    exact runAt_readUnsigned_eq_ok
  · intro purpose i
    exact runAt_readSigned_eq_ok
  · intro purpose n hn
    -- the number is small enough for the bytes it stood in, so it needs no more of them
    obtain ⟨k, hlt, hbehind⟩ := lt_of_runAt_read h (runAt_readUnsigned_eq_ok.mp hn).1
    have hsize := length_encode_le_of_lt purpose hlt
    rw [hnatural]
    show _ ≤ (read.runAt data offset).2
    omega
  · intro purpose i hi
    obtain ⟨n, hraw, rfl, -⟩ := runAt_readSigned_eq_ok.mp hi
    obtain ⟨k, hlt, hbehind⟩ := lt_of_runAt_read h hraw
    -- the integer may be stated by a smaller number than the one that was read, by no larger one
    have hle := signMagnitude_ofSignMagnitude_le n
    have hsize := length_encode_le_of_lt purpose (Nat.lt_of_le_of_lt hle hlt)
    rw [hinteger]
    show offset + (encode purpose (signMagnitude (ofSignMagnitude n))).length
      ≤ (read.runAt data offset).2
    omega

/-- Four bytes that state 31, behind another one. -/
def paddedNumber : List UInt8 :=
  [0xFF, 0x7F, 0x80, 0x80, 0x00]

/-- Four bytes that state 31, of which one would do, behind another one: they are read up to the
    fourth, as a number and as the integer -15. -/
theorem reads_to_ending_paddedNumber :
    1 ≤ paddedNumber.length ∧
      read.runAt paddedNumber 1 = (.ok (.length, 31), 5) ∧
      readSigned.runAt paddedNumber 1 = (.ok (.length, -15), 5) ∧
      1 + (encodeSigned .length (-15)).length ≤ 5 := by
  have hoffset : 1 ≤ paddedNumber.length := by decide
  obtain ⟨_, hread, _, _, _, _, _, _, _, _, hagain⟩ := reads_to_ending hoffset
  have hends : EndsAt (paddedNumber.drop 1) 3 := ⟨0x00, rfl, rfl⟩
  have hfirst : ∀ i < 3, ¬ EndsAt (paddedNumber.drop 1) i := by
    rintro i hi ⟨b, hb, hlast⟩
    match i, hi with
    | 0, _ => cases hb; cases hlast
    | 1, _ => cases hb; cases hlast
    | 2, _ => cases hb; cases hlast
  have hnumber := hread 3 (by decide) hends hfirst 0x7F rfl
  have hinteger : readSigned.runAt paddedNumber 1 = (.ok (.length, -15), 5) := by
    rw [runAt_readSigned, hnumber]
    rfl
  refine ⟨hoffset, hnumber, hinteger, ?_⟩
  exact hagain .length (-15) (congrArg Prod.fst hinteger)

end EventReporter.Varint
