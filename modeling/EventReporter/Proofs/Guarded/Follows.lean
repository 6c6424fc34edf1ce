import EventReporter.Guarded.Record
import EventReporter.Library
import EventReporter.Proofs.Param.Truncated
namespace EventReporter.Guarded

/-!
# Guarded readers do what plain readers do

On bytes that a machine can hold, a guarded reader of parameters ends like the plain one: with what
it reads, or with its refusal, and at the same offset. So no trap is ever sprung.

* `Follows.bind` : guarded readers that are made of others.
* `follows_number` : the bytes of a number, one by one.
* `follows_param` : parameters.
-/

/-! ### The same verdict at the same offset -/

/-- The bytes are no more than a machine can hold, and no more of them are read than there are. -/
structure Fits (d : Desk) : Prop where
  offset_le : d.offset ≤ d.data.length
  length_lt : d.data.length < Width.w64.half

/-- The place of a guarded reader, for a plain one. -/
def cursor (d : Desk) : Cursor :=
  .ofBytes d.data d.offset

variable {α β : Type} {g : Guarded α} {r : Read α} {g' : α → Guarded β} {f : α → Read β}
  {d d' : Desk} {n : Nat}

/-- How a guarded reader ends if it does what a plain one does that ends with the given result. -/
def answer (d : Desk) : EStateM.Result WireError Cursor α → EStateM.Result Stop Desk α
  | .ok x c => .ok x { d with offset := c.offset }
  | .error e c => .error (.refusal e) { d with offset := c.offset }

/-- At `d`, `g` does what `r` does. -/
def FollowsAt (d : Desk) (g : Guarded α) (r : Read α) : Prop :=
  g d = answer d (r (cursor d))

/-- `g` does what `r` does. -/
def Follows (g : Guarded α) (r : Read α) : Prop :=
  ∀ d, Fits d → FollowsAt d g r

/-- A place further on in the bytes is the one that `cursor` gives for its offset. -/
theorem eq_cursor_of_ahead {c : Cursor} (h : (cursor d).Ahead n c) :
    c = cursor { d with offset := c.offset } :=
  Cursor.Ahead.eq_ofBytes h

/-- `Fits` is kept on the way ahead, where the data stays the same. -/
theorem Fits.of_ahead (hd : Fits d) {c : Cursor} (h : (cursor d).Ahead n c) :
    Fits { d with offset := c.offset } where
  offset_le := by
    have hend := (h.sound (Cursor.sound_ofBytes hd.offset_le)).offset_le
    rwa [h.size_eq] at hend
  length_lt := hd.length_lt

/-- `pure` answers alike on both sides. -/
theorem follows_pure (x : α) : Follows (pure x) (pure x) :=
  fun _ _ => rfl

/-- `refuse` is what `throw` is to the plain readers. -/
theorem follows_refuse (e : WireError) : Follows (refuse e : Guarded α) (throw e) :=
  fun _ _ => rfl

/-- Guarded readers one after the other follow plain ones one after the other. That the plain one
    is `Local` tells that the desk still `Fits` where the second one starts. -/
theorem FollowsAt.bind (hd : Fits d) (hg : FollowsAt d g r) (hr : r.Local n)
    (hf : ∀ x, Follows (g' x) (f x)) : FollowsAt d (g >>= g') (r >>= f) := by
  unfold FollowsAt at hg ⊢
  rw [bind_apply, bind_apply, hg]
  cases hrc : r (cursor d) with
  | error e c => rfl
  | ok x c =>
    -- `r` stopped further on in the same data, which is where `g` has left the desk
    have hahead := (hr.ok hrc).1
    have hnext := hf x _ (hd.of_ahead hahead)
    rw [FollowsAt, ← eq_cursor_of_ahead hahead] at hnext
    exact hnext

/-- `FollowsAt.bind` at every desk. -/
theorem Follows.bind (hg : Follows g r) (hr : r.Local n) (hf : ∀ x, Follows (g' x) (f x)) :
    Follows (g >>= g') (r >>= f) :=
  fun d hd => (hg d hd).bind hd hr hf

/-- To look at the desk first is to look at the cursor first. -/
theorem follows_get_bind {g : Desk → Guarded α} {f : Cursor → Read α}
    (h : ∀ d, Fits d → FollowsAt d (g d) (f (cursor d))) : Follows (get >>= g) (get >>= f) :=
  fun d hd => h d hd

/-- `ofExcept` answers alike on both sides, with a result or a refusal. -/
theorem follows_ofExcept (x : Except WireError α) : Follows (ofExcept x) (Read.ofExcept x) := by
  cases x with
  | ok x => exact follows_pure x
  | error e => exact follows_refuse e

/-! ### Bytes -/

/-- A sum of an offset and the size of a block, none of which is larger than a header, has a
    machine number: `Fits` has the offset in the lower half of them. -/
theorem Fits.sum_eq (hd : Fits d) (hn : n ≤ Header.blockSize) :
    sum .w64 d.offset n = pure (d.offset + n) := by
  have hle := hd.offset_le
  have hlt := hd.length_lt
  have hhalf : Width.w64.half + Header.blockSize ≤ Width.w64.count := by decide
  exact sum_of_lt (by omega)

/-- The `cursor` of a desk has the data behind its offset ahead of it. -/
theorem rest_cursor (d : Desk) : (cursor d).rest = d.data.drop d.offset := rfl

/-- `byte` adds 1 to the offset and looks up one index, and neither traps. -/
theorem follows_byte : Follows byte Read.byte := by
  intro d hd
  unfold FollowsAt
  show (sum .w64 d.offset 1 >>= _) d = _
  rw [hd.sum_eq (by decide), pure_bind, Read.byte, rest_cursor, ← List.head?_drop]
  cases d.data.drop d.offset <;> rfl

/-- `part?` cuts the next `n` bytes out of the data, or answers that they are not there, as `take`
    from the cursor does. -/
theorem cut_cursor (hd : Fits d) : part? d.data d.offset (d.offset + n)
    = if ((cursor d).rest.take n).length = n then some ((cursor d).rest.take n) else none := by
  have hle := hd.offset_le
  rw [rest_cursor, List.length_take, List.length_drop]
  -- both sides look if the part ends within the data
  by_cases hfits : d.offset + n ≤ d.data.length
  · rw [part?_of_le (Nat.le_add_right _ _) hfits, if_pos (by omega), Nat.add_sub_cancel_left]
  · rw [part?_of_lt (by omega), if_neg (by omega)]

/-- `bytes` traps neither in the sum, by `Fits.sum_eq`, nor in the slice, which it asks for with
    `part?`. -/
theorem follows_bytes (hn : n ≤ Header.blockSize) : Follows (bytes n) (Read.bytes n) := by
  intro d hd
  unfold FollowsAt
  show (sum .w64 d.offset n >>= _) d = _
  rw [hd.sum_eq hn, pure_bind, cut_cursor hd, Read.bytes]
  split <;> rfl

/-- `textTo` cuts with `part?`, so it may be refused bytes or their text, but has no trap. -/
theorem follows_textTo (what : String) (hd : Fits d) :
    FollowsAt d (textTo what (d.offset + n)) (Read.asText what n) := by
  unfold FollowsAt
  show ((orRefuse (part? d.data d.offset (d.offset + n)) _ : Guarded _) >>= _) d = _
  rw [cut_cursor hd]
  simp only [Read.asText]
  split
  · show ((orRefuse (Text.ofUtf8? _) _ : Guarded _) >>= _) d = _
    cases Text.ofUtf8? ((cursor d).rest.take n) <;> rfl
  · rfl

/-! ### Numbers of variable length -/

/-- How the guarded reading of a number from `start` on ends that finds out the same as a scan. -/
def scanAnswer (d : Desk) (start : Nat) : Varint.Scan → EStateM.Result Stop Desk (Nat × Nat)
  | .complete n used => .ok (n, start + used) d
  | .truncated used => .error (.refusal (.tooShort (start + used + 1) d.data.length)) d
  | .endless => .error (.refusal (.badVarint start)) d

/-- A group of seven bits fits in where no more than ten bytes have to: it is shifted by 68 bits
    at most, of 128. -/
theorem shift_group (b : UInt8) {bits : Nat} (h : bits ≤ 68) :
    shift (b.toNat % 128) bits = pure (b.toNat % 128 * pow2 bits) := by
  refine shift_of_lt (by omega) ?_
  have hlow : b.toNat % 128 < pow2 7 := Nat.mod_lt _ (by decide)
  calc b.toNat % 128 * pow2 bits
      < pow2 7 * pow2 bits := Nat.mul_lt_mul_of_pos_right hlow (pow2_pos bits)
    _ = pow2 (7 + bits) := (pow2_add 7 bits).symm
    _ < pow2 128 := pow2_lt (by omega)

/-- `groups` follows `scanGroups` from any of its places. By induction on the room for more bytes:
    the bits that are taken and those that can still come stay below 69 together, which keeps each
    shift in its width. -/
theorem groups_eq {start used room : Nat} (hroom : used + room = Varint.maxBytes) (n : Nat)
    {bits : Nat} (hbits : bits + 7 * room ≤ 68) (hlen : d.data.length < Width.w64.half)
    (hpos : start + used ≤ d.data.length) :
    groups start room n bits (start + used) d
      = scanAnswer d start (Varint.scanGroups n (pow2 bits) used (d.data.drop (start + used))) := by
  induction room generalizing n bits used with
  | zero =>
    -- all ten bytes are used up, whether there are more or not
    have hfull : Varint.maxBytes ≤ used := by omega
    cases d.data.drop (start + used) with
    | nil => rw [Varint.scanGroups, if_pos hfull]; rfl
    | cons b rest => rw [Varint.scanGroups, if_pos hfull]; rfl
  | succ room ih =>
    have hfree : ¬ Varint.maxBytes ≤ used := by omega
    have hsum : sum .w64 (start + used) 1 = pure (start + used + 1) := by
      have hhalf : Width.w64.half + 1 ≤ Width.w64.count := by decide
      exact sum_of_lt (by omega)
    have hnext : sum .w32 bits 7 = pure (bits + 7) := by
      have hcount : 100 ≤ Width.w32.count := by decide
      exact sum_of_lt (by omega)
    rw [groups]
    show (sum .w64 (start + used) 1 >>= _) d = _
    rw [hsum, pure_bind, ← List.head?_drop]
    cases hrest : d.data.drop (start + used) with
    | nil =>
      rw [Varint.scanGroups, if_neg hfree]
      rfl
    | cons b rest =>
      obtain ⟨hless, htail⟩ := of_drop_eq_cons hrest
      rw [Nat.add_assoc] at hless htail
      rw [Varint.scanGroups, if_neg hfree]
      show (shift (b.toNat % 128) bits >>= _) d = _
      rw [shift_group b (by omega), pure_bind, hnext, pure_bind]
      by_cases hmore : 128 ≤ b.toNat
      · -- the next group starts seven bits higher
        have hunit : 128 * pow2 bits = pow2 (bits + 7) := by
          rw [pow2_add, Nat.mul_comm]
          rfl
        rw [if_pos hmore, if_pos hmore, hunit, ← htail]
        exact ih (by omega) _ (by omega) hless
      · rw [if_neg hmore, if_neg hmore]
        rfl

/-- `number` reads the first byte with its five bits, and then `groups`, which start at bit 5. -/
theorem follows_number : Follows number Varint.read := by
  intro d hd
  unfold FollowsAt
  show (sum .w64 d.offset 1 >>= _) d = _
  rw [hd.sum_eq (by decide), pure_bind, ← List.head?_drop, Varint.read, rest_cursor]
  cases hrest : d.data.drop d.offset with
  | nil => rfl
  | cons tag rest =>
    obtain ⟨hless, htail⟩ := of_drop_eq_cons hrest
    simp only [List.head?_cons, orRefuse, pure_bind, Varint.scan]
    -- bit 5 of the first byte tells if more bytes belong to the number
    by_cases hmore : tag.toNat / 32 % 2 = 1
    · rw [if_pos hmore, if_pos hmore, bind_apply,
        groups_eq (by decide) (tag.toNat % 32) (by decide) hd.length_lt hless, htail]
      have hunit : pow2 5 = 32 := rfl
      rw [hunit]
      cases Varint.scanGroups (tag.toNat % 32) 32 1 rest <;> rfl
    · rw [if_neg hmore, if_neg hmore]
      rfl

/-- `unsigned` follows `readUnsigned`: both refuse a number beyond 64 bits. -/
theorem follows_unsigned : Follows unsigned Varint.readUnsigned := by
  refine follows_get_bind fun d hd => (follows_number d hd).bind hd Varint.local_read ?_
  rintro ⟨purpose, n⟩
  by_cases h : n < Width.w64.count
  · simp only [if_pos h]
    exact follows_pure _
  · simp only [if_neg h]
    exact follows_refuse _

/-- `signed` follows `readSigned`: both refuse a number beyond 64 bits, the sign among them. -/
theorem follows_signed : Follows signed Varint.readSigned := by
  refine follows_get_bind fun d hd => (follows_number d hd).bind hd Varint.local_read ?_
  rintro ⟨purpose, n⟩
  by_cases h : -(Width.w64.half : Int) ≤ Varint.ofSignMagnitude n ∧
      Varint.ofSignMagnitude n < Width.w64.half
  · simp only [if_pos h]
    exact follows_pure _
  · simp only [if_neg h]
    exact follows_refuse _

/-! ### Texts and values -/

/-- `text` looks at the sum of its length with `sum?`, which is no trap, before it cuts. -/
theorem follows_text (what : String) : Follows (text what) (Read.text what) := by
  refine follows_get_bind fun d hd => (follows_unsigned d hd).bind hd Varint.local_readUnsigned ?_
  rintro ⟨purpose, n⟩
  refine follows_get_bind fun d' hd' => ?_
  have hoffset : (cursor d').offset = d'.offset := rfl
  rw [hoffset]
  -- a length beyond all numbers of the machine is refused on both sides
  by_cases h : Width.w64.count ≤ d'.offset + n
  · have hnone : sum? .w64 d'.offset n = none := if_neg (Nat.not_lt_of_le h)
    simp only [if_pos h, hnone]
    rfl
  · simp only [if_neg h, sum?_of_lt (Nat.lt_of_not_le h)]
    exact follows_textTo what hd'

/-- `element` follows `ElementType.read`, one case for each type. -/
theorem follows_element (t : ElementType) : Follows (element t) t.read := by
  cases t with
  | bool => exact follows_signed.bind Varint.local_readSigned fun _ => follows_pure _
  | signed w =>
    refine follows_signed.bind Varint.local_readSigned ?_
    rintro ⟨purpose, i⟩
    by_cases h : -(w.half : Int) ≤ i ∧ i < w.half
    · simp only [dif_pos h]
      exact follows_pure _
    · simp only [dif_neg h]
      exact follows_refuse _
  | unsigned w =>
    refine follows_unsigned.bind Varint.local_readUnsigned ?_
    rintro ⟨purpose, n⟩
    by_cases h : n < w.count
    · simp only [dif_pos h]
      exact follows_pure _
    · simp only [dif_neg h]
      exact follows_refuse _
  | float => exact (follows_bytes (by decide)).bind (Read.local_bytes 4) fun _ => follows_pure _
  | double => exact (follows_bytes (by decide)).bind (Read.local_bytes 8) fun _ => follows_pure _
  | string => exact follows_text _

/-- `elementsFrom` follows `manyFrom`: by induction on the number of elements. -/
theorem follows_elementsFrom (t : ElementType) (done : List t.Carrier) (count : Nat) :
    Follows (elementsFrom t done count) (Read.manyFrom t.read done count) := by
  induction count generalizing done with
  | zero => exact follows_pure _
  | succ count ih => exact (follows_element t).bind t.local_read fun x => ih (x :: done)

/-- `scalar` follows `readScalar`, with a refusal for a type that is not known. -/
theorem follows_scalar (type : Option ElementType) :
    Follows (scalar type) (Value.readScalar type) := by
  cases type with
  | none => exact follows_refuse _
  | some t => exact (follows_element t).bind t.local_read fun _ => follows_pure _

/-- `array` follows `readArray`: the count is looked at before any element is read. -/
theorem follows_array (type : Option ElementType) :
    Follows (array type) (Value.readArray type) := by
  refine follows_unsigned.bind Varint.local_readUnsigned ?_
  rintro ⟨purpose, count⟩
  by_cases h : Limits.elements < count
  · simp only [if_pos h]
    exact follows_refuse _
  · simp only [if_neg h]
    cases type with
    | none => exact follows_refuse _
    | some t =>
      have hmany := Read.local_many t.local_read count
      exact (follows_elementsFrom t [] count).bind hmany fun _ => follows_pure _

/-- A parameter is read, or refused, without a trap: `param` puts together the readers above, in
    the order in which `Param.read` does. -/
theorem follows_param : Follows param Param.read := by
  refine (follows_text "param key").bind (Read.local_text _) fun key => ?_
  refine follows_byte.bind Read.local_byte fun b => ?_
  refine (follows_ofExcept _).bind (Read.local_ofExcept _) fun kind => ?_
  by_cases h : kind.isArray
  · simp only [if_pos h]
    exact (follows_array _).bind (Value.local_readArray _) fun _ => follows_pure _
  · simp only [if_neg h]
    exact (follows_scalar _).bind (Value.local_readScalar _) fun _ => follows_pure _

end EventReporter.Guarded
