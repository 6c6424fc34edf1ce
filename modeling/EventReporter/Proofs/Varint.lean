import EventReporter.Proofs.Reading
import EventReporter.Varint
namespace EventReporter.Varint

/-!
# Tagged numbers are read as they were written

The tag holds five bits of a number and each of the nine bytes after it seven, 68 bits together.
Every number with no more bits is read back, so natural numbers and integers of 64 bits are.

* `scan_encode` : the bytes of a number say how many of them there are.
* `yields_readUnsigned`, `yields_readSigned` : numbers of 64 bits are read as they were written.
-/

/-! ### The tag -/

/-- The `tag` is a number below 256: two bits for the purpose, one that says if bytes follow, and
    five of the number. -/
theorem toNat_tag (purpose : Purpose) (n : Nat) :
    (tag purpose n).toNat = 64 * purpose.code + (if 32 ≤ n then 32 else 0) + n % 32 := by
  rw [tag, UInt8.toNat_ofNat']
  apply Nat.mod_eq_of_lt
  cases purpose <;> simp only [Purpose.code] <;> split <;> omega

/-- `ofTag` reads the purpose out of the two upper bits. -/
theorem ofTag_tag (purpose : Purpose) (n : Nat) : Purpose.ofTag (tag purpose n) = purpose := by
  unfold Purpose.ofTag
  rw [toNat_tag]
  cases purpose <;> simp only [Purpose.code] <;> split <;> split <;> first | rfl | omega

/-! ### The bytes after the tag -/

/-- A group with its seven bits, and the one that says if others follow, fits in a byte. -/
theorem toNat_group (n : Nat) :
    (UInt8.ofNat ((if 128 ≤ n then 128 else 0) + n % 128)).toNat
      = (if 128 ≤ n then 128 else 0) + n % 128 := by
  rw [UInt8.toNat_ofNat']
  apply Nat.mod_eq_of_lt
  split <;> omega

/-- No `groups` are left of 0. -/
theorem groups_zero (room : Nat) : groups room 0 = [] := by
  cases room <;> rfl

/-- How many numbers `room` groups of seven bits can tell apart. -/
def groupCount : (room : Nat) → Nat
  | 0 => 1
  | room + 1 => 128 * groupCount room

/-- `scanGroups` reads the groups of `n` as `n` times the unit that the first of them counts in.
    By induction on the number of groups there is room for, where each next one counts in units
    128 times as large. -/
theorem scanGroups_groups {room n : Nat} (hpos : n ≠ 0) (hlt : n < groupCount room)
    (acc unit used : Nat) (hused : used + room ≤ maxBytes) (rest : List UInt8) :
    scanGroups acc unit used (groups room n ++ rest)
      = .complete (acc + n * unit) (used + (groups room n).length) := by
  induction room generalizing n acc unit used with
  | zero =>
    simp only [groupCount] at hlt
    omega
  | succ room ih =>
    have hroom : ¬ maxBytes ≤ used := by omega
    rw [groups, if_neg hpos, List.cons_append, scanGroups, if_neg hroom, toNat_group]
    by_cases hmore : 128 ≤ n
    · -- the rest of the number stands in the groups that follow
      have hrest : n / 128 ≠ 0 := by omega
      have hbound : n / 128 < groupCount room := by
        simp only [groupCount] at hlt
        omega
      have hlow : (128 + n % 128) % 128 = n % 128 := by omega
      rw [if_pos hmore, if_pos (by omega), ih hrest hbound _ _ _ (by omega), hlow]
      have hsum : n % 128 * unit + n / 128 * (128 * unit) = n * unit := by
        rw [← Nat.mul_assoc, ← Nat.add_mul]
        congr 1
        omega
      rw [Nat.add_assoc, hsum, List.length_cons, Nat.add_assoc, Nat.add_comm 1]
    · -- the last group, which holds what is left
      have hlow : (0 + n % 128) % 128 = n := by omega
      have hnone : n / 128 = 0 := by omega
      rw [if_neg hmore, if_neg (by omega), hlow, hnone, groups_zero]
      rfl

/-! ### Whole numbers -/

/-- How many numbers ten bytes can tell apart. -/
def capacity : Nat := 32 * groupCount (maxBytes - 1)

/-- `scan` reads what `encode` writes, up to its last byte: `scanGroups_groups` behind the five
    bits of the tag. -/
theorem scan_encode (purpose : Purpose) {n : Nat} (h : n < capacity) (rest : List UInt8) :
    scan (encode purpose n ++ rest) = .complete n (encode purpose n).length := by
  rw [encode, List.cons_append, scan, toNat_tag]
  have hlow : (64 * purpose.code + (if 32 ≤ n then 32 else 0) + n % 32) % 32 = n % 32 := by
    split <;> omega
  rw [hlow]
  by_cases hmore : 32 ≤ n
  · have hrest : n / 32 ≠ 0 := by omega
    have hbound : n / 32 < groupCount (maxBytes - 1) := by
      simp only [capacity] at h
      omega
    rw [if_pos hmore, if_pos (by omega), scanGroups_groups hrest hbound _ _ _ (by decide)]
    rw [Nat.add_comm 1, List.length_cons]
    congr 1
    omega
  · -- a number below 32 has its place in the tag, which no byte follows
    have hnone : n / 32 = 0 := by omega
    rw [if_neg hmore, if_neg (by omega), hnone, groups_zero, Nat.mod_eq_of_lt (by omega)]
    rfl

/-- `read` reads a number of which the bytes are ahead, whatever follows them, by
    `scan_encode`. -/
theorem read_encode (purpose : Purpose) {n : Nat} (h : n < capacity) {c : Cursor}
    {rest : List UInt8} (hc : c.rest = encode purpose n ++ rest) :
    read c = .ok (purpose, n) (c.advance (encode purpose n).length) := by
  rw [read, hc, scan_encode purpose h]
  simp only [encode, List.cons_append, List.head?_cons, Option.map_some, Option.getD_some,
    ofTag_tag]

/-- `read_encode`, as a reader that yields. -/
theorem yields_read (purpose : Purpose) {n : Nat} (h : n < capacity) :
    Read.Yields read (encode purpose n) (purpose, n) :=
  fun _ _ hc _ => read_encode purpose h hc

/-- A number of 64 bits is below `capacity`, that of ten bytes. -/
theorem lt_capacity {n : Nat} (h : n < Width.w64.count) : n < capacity :=
  Nat.lt_trans h (by decide)

/-- `readUnsigned` accepts what `read` has read, if it is a number of 64 bits. -/
theorem yields_readUnsigned (purpose : Purpose) {n : Nat} (h : n < Width.w64.count) :
    Read.Yields readUnsigned (encode purpose n) (purpose, n) := by
  refine Read.yields_get_bind fun c => (yields_read purpose (lt_capacity h)).map ?_
  exact if_pos h

/-- `signMagnitude` makes 65 bits of 64, which is still below `capacity`. -/
theorem signMagnitude_lt {i : Int} (h : -(Width.w64.half : Int) ≤ i ∧ i < Width.w64.half) :
    signMagnitude i < capacity := by
  have hcap : 2 * Width.w64.half + 1 < capacity := by decide
  unfold signMagnitude
  split <;> omega

/-- `readSigned` takes the sign out of what `read` has read, by
    `ofSignMagnitude_signMagnitude`. -/
theorem yields_readSigned (purpose : Purpose) {i : Int}
    (h : -(Width.w64.half : Int) ≤ i ∧ i < Width.w64.half) :
    Read.Yields readSigned (encodeSigned purpose i) (purpose, i) := by
  refine Read.yields_get_bind fun c => (yields_read purpose (signMagnitude_lt h)).map ?_
  simp only [ofSignMagnitude_signMagnitude]
  exact if_pos h

end EventReporter.Varint
