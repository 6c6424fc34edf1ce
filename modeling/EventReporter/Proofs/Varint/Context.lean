import EventReporter.Buffer
import EventReporter.Proofs.Reading.Local
import EventReporter.Proofs.Varint
namespace EventReporter.Varint

/-!
# Numbers among other bytes

A number that fits into a buffer is written behind what is there already, and from there it is read
again, whatever follows it. The ten bytes that a number may take have room for 68 bits, and an
integer of 64 bits with its sign has 65 of them, so that nothing is left when they are written.

* `writeGroups_eq` : the bytes after the tag hold all bits that are not in the tag.
* `readBack_write` : natural numbers and integers of 64 bits are written, and read again.
-/

/-! ### Writing -/

/-- Writes a natural number behind the bytes of a buffer. -/
def writeUnsigned (b : Buffer) (purpose : Purpose) (n : Width.Unsigned .w64) :
    Except WireError Buffer :=
  b.append (encode purpose n.val)

/-- Writes an integer behind the bytes of a buffer. -/
def writeSigned (b : Buffer) (purpose : Purpose) (i : Width.Signed .w64) :
    Except WireError Buffer :=
  b.append (encodeSigned purpose i.val)

/-- The number of bytes that a natural number takes. -/
def unsignedSize (n : Width.Unsigned .w64) : Nat :=
  (encode .value n.val).length

/-- `groups`, with the bits that are left of the number when they stop. -/
def writeGroups : (room : Nat) → (n : Nat) → List UInt8 × Nat
  | 0, n => ([], n)
  | room + 1, n =>
    if n = 0 then ([], n)
    else
      let (bytes, left) := writeGroups room (n / 128)
      (UInt8.ofNat ((if 128 ≤ n then 128 else 0) + n % 128) :: bytes, left)

/-- `encode` takes as many bytes for one purpose as for another. -/
theorem length_encode (purpose : Purpose) (n : Nat) :
    (encode purpose n).length = (encode .value n).length := rfl

/-- The groups after the tag of `n` are all written before the room for them ends. -/
def LeavesNothing (n : Nat) : Prop :=
  writeGroups (maxBytes - 1) (n / 32) = (groups (maxBytes - 1) (n / 32), 0)

/-- `writeGroups`, which is the loop with its bound, writes the `groups` of a number with no more
    bits than there is room for, and nothing is left of it. -/
theorem writeGroups_eq {room n : Nat} (h : n < groupCount room) :
    writeGroups room n = (groups room n, 0) := by
  induction room generalizing n with
  | zero =>
    simp only [groupCount] at h
    have hzero : n = 0 := by omega
    simp [writeGroups, groups, hzero]
  | succ room ih =>
    by_cases hn : n = 0
    · simp [writeGroups, groups, hn]
    · have hrest : n / 128 < groupCount room := by
        simp only [groupCount] at h
        omega
      simp [writeGroups, groups, hn, ih hrest]

/-- Below `capacity` the loop ends because nothing is left, and not because of its bound. -/
theorem leavesNothing_of_lt {n : Nat} (h : n < capacity) : LeavesNothing n := by
  apply writeGroups_eq
  simp only [capacity] at h
  omega

/-! ### Reading -/

/-- `readUnsigned` reads a number of which the bytes are ahead. -/
theorem readUnsigned_encode (purpose : Purpose) {n : Nat} (h : n < Width.w64.count) {c : Cursor}
    {rest : List UInt8} (hc : c.rest = encode purpose n ++ rest) :
    readUnsigned c = .ok (purpose, n) (c.advance (encode purpose n).length) := by
  show (read >>= _) c = _
  rw [bind_apply, read_encode purpose (lt_capacity h) hc]
  simp only [if_pos h]
  rfl

/-- `readSigned` reads an integer of which the bytes are ahead. -/
theorem readSigned_encode (purpose : Purpose) {i : Int}
    (h : -(Width.w64.half : Int) ≤ i ∧ i < Width.w64.half) {c : Cursor} {rest : List UInt8}
    (hc : c.rest = encodeSigned purpose i ++ rest) :
    readSigned c = .ok (purpose, i) (c.advance (encodeSigned purpose i).length) := by
  show (read >>= _) c = _
  rw [bind_apply, read_encode purpose (signMagnitude_lt h) hc]
  simp only [ofSignMagnitude_signMagnitude, if_pos h]
  rfl

/-! ### Buffers -/

/-- What came of writing `size` bytes into the buffer `b`: if they did fit, they stand behind what
    was there, and `r` reads `x` off them, whatever follows, and stops right behind them. -/
def ReadBack {α : Type} (r : Read α) (x : α) (size : Nat) (b : Buffer) :
    Except WireError Buffer → Prop
  | .ok b' => b'.size = b.size + size ∧ b'.toList.take b.size = b.toList ∧
      ∀ after, r.runAt (b'.toList ++ after) b.size = (.ok x, b'.size)
  | .error _ => b.remaining < size

/-- What a reader reads wherever it is ahead, it reads behind the bytes of a buffer that took it.
    `r`, which is one of the two readers of numbers, need not be known. -/
theorem readBack_append {α : Type} {r : Read α} {x : α} {bs : List UInt8} (b : Buffer)
    (hr : ∀ {c : Cursor} {rest : List UInt8}, c.rest = bs ++ rest →
      r c = .ok x (c.advance bs.length)) :
    ReadBack r x bs.length b (b.append bs) := by
  by_cases hfits : bs.length ≤ b.remaining
  · obtain ⟨b', hwritten⟩ : ∃ b', b.append bs = .ok b' := ⟨_, if_pos hfits⟩
    have hbytes := Buffer.toList_append hwritten
    have hsize : b'.size = b.size + bs.length := by
      rw [← b'.length_toList, hbytes, List.length_append, b.length_toList]
    rw [hwritten]
    refine ⟨hsize, ?_, fun after => ?_⟩
    · rw [hbytes, ← b.length_toList, List.take_left]
    · -- at the place where the buffer ended before, the new bytes are ahead
      have hrest : (Cursor.ofBytes (b'.toList ++ after) b.size).rest = bs ++ after := by
        rw [hbytes, ← b.length_toList, Read.rest_ofBytes]
      rw [Read.runAt, hr hrest, hsize]
      rfl
  · have hfull : b.append bs = .error (.overflow bs.length b.remaining) := if_neg hfits
    rw [hfull]
    exact Nat.lt_of_not_le hfits

/-- A number takes between one and ten bytes, and no bit of it is left out. It is written behind the
    bytes of a buffer, unless it does not fit, and read again from there with its purpose. -/
theorem readBack_write (purpose : Purpose) (b : Buffer) :
    (∀ n : Width.Unsigned .w64,
      1 ≤ unsignedSize n ∧ unsignedSize n ≤ maxBytes ∧ LeavesNothing n.val ∧
        ReadBack readUnsigned (purpose, n.val) (unsignedSize n) b (writeUnsigned b purpose n)) ∧
    ∀ i : Width.Signed .w64,
      1 ≤ (encodeSigned purpose i.val).length ∧ (encodeSigned purpose i.val).length ≤ maxBytes ∧
        LeavesNothing (signMagnitude i.val) ∧
        ReadBack readSigned (purpose, i.val) (encodeSigned purpose i.val).length b
          (writeSigned b purpose i) := by
  constructor
  · intro n
    refine ⟨length_encode_pos _ _, length_encode_le _ _, ?_, ?_⟩
    · exact leavesNothing_of_lt (lt_capacity n.isLt)
    · rw [unsignedSize, ← length_encode purpose]
      exact readBack_append b (readUnsigned_encode purpose n.isLt)
  · intro i
    refine ⟨length_encode_pos _ _, length_encode_le _ _, ?_, ?_⟩
    · exact leavesNothing_of_lt (signMagnitude_lt i.property)
    · exact readBack_append b (readSigned_encode purpose i.property)

/-- The least integer takes all ten bytes. -/
example : encodeSigned .length (-0x8000000000000000)
    = [0x61, 0x80, 0x80, 0x80, 0x80, 0x80, 0x80, 0x80, 0x80, 0x08] := by
  rfl

end EventReporter.Varint
