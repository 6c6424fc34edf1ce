import EventReporter.Buffer.History
import EventReporter.Proofs.Buffer
namespace EventReporter.Buffer

/-!
# Buffers are lists with a limit

Whatever is done with a buffer, it has the bytes that a plain list would have, its operations end as
those on the list do, and there are never more bytes than the limit says.

* `getElem?_overwrite`, `getElem?_update` : what an update replaces.
* `step_of_refused` : what a refusal leaves.
* `Holds.step`, `Holds.run` : one operation, and any number of them.
-/

variable {b b' : Buffer} {bs bytes : List UInt8} {offset : Nat}

/-! ### Bytes in place of others -/

/-- `overwrite` adds no bytes and drops none. -/
theorem length_overwrite (bytes : List UInt8) (offset : Nat) (bs : List UInt8) :
    (overwrite bytes offset bs).length = bytes.length :=
  List.length_mapIdx

/-- Where others were written by `overwrite` they stand, and everywhere else the bytes are as they
    were. -/
theorem getElem?_overwrite (h : offset + bs.length ≤ bytes.length) (i : Nat) :
    (overwrite bytes offset bs)[i]?
      = if offset ≤ i ∧ i < offset + bs.length then bs[i - offset]? else bytes[i]? := by
  rw [overwrite, List.getElem?_mapIdx]
  by_cases hinside : offset ≤ i ∧ i < offset + bs.length
  · -- a place that is written to
    have hi : i < bytes.length := by omega
    have hplace : i - offset < bs.length := by omega
    rw [if_pos hinside, List.getElem?_eq_getElem hi, List.getElem?_eq_getElem hplace,
      Option.map_some, if_pos hinside.1, Option.getD_some]
  · -- a place before it, or behind it
    rw [if_neg hinside]
    cases bytes[i]? with
    | none => rfl
    | some x =>
      have hkept : (if offset ≤ i then bs[i - offset]?.getD x else x) = x := by
        split
        · rw [List.getElem?_eq_none (by omega), Option.getD_none]
        · rfl
      rw [Option.map_some, hkept]

/-- The front, the new bytes and what follows them, as `Buffer.update` puts them together, are
    what `overwrite` makes byte by byte. -/
theorem take_append_drop_eq_overwrite (h : offset + bs.length ≤ bytes.length) :
    bytes.take offset ++ bs ++ bytes.drop (offset + bs.length) = overwrite bytes offset bs := by
  apply List.ext_getElem?
  intro i
  have hfront : (bytes.take offset).length = offset := by
    rw [List.length_take]
    omega
  have hwritten : (bytes.take offset ++ bs).length = offset + bs.length := by
    rw [List.length_append, hfront]
  rw [getElem?_overwrite h]
  split
  · next hinside =>
    rw [List.getElem?_append_left (by omega), List.getElem?_append_right (by omega), hfront]
  · next houtside =>
    by_cases hbefore : i < offset
    · -- the front
      rw [List.getElem?_append_left (by omega), List.getElem?_append_left (by omega),
        List.getElem?_take_of_lt hbefore]
    · -- what follows
      rw [List.getElem?_append_right (by omega), hwritten, List.getElem?_drop]
      congr 1
      omega

/-! ### In full or not at all -/

/-- A buffer that is given other bytes `Holds` these, if they keep to the limit. -/
def withBytes (b : Buffer) (bytes : List UInt8) : Buffer :=
  { b with bytes := bytes.toArray }

/-- `append` takes bytes for which there is room. -/
theorem append_of_fits (h : bs.length ≤ b.remaining) : b.append bs = .ok (b.extended bs) :=
  if_pos h

/-- `append` refuses bytes for which there is no room, and says how much there is. -/
theorem append_of_overflow (h : b.remaining < bs.length) :
    b.append bs = .error (.overflow bs.length b.remaining) :=
  if_neg (Nat.not_le_of_lt h)

/-- `update` replaces bytes that are there, like `overwrite`. -/
theorem update_of_fits (h : offset + bs.length ≤ b.size) :
    b.update offset bs = .ok (b.withBytes (overwrite b.toList offset bs)) := by
  have hlength : offset + bs.length ≤ b.toList.length := b.length_toList ▸ h
  rw [update, if_pos h, take_append_drop_eq_overwrite hlength]
  rfl

/-- `update` refuses to replace bytes that are not there, and says how many are. -/
theorem update_of_overrun (h : b.size < offset + bs.length) :
    b.update offset bs = .error (.updateOutOfRange offset bs.length b.size) :=
  if_neg (Nat.not_le_of_lt h)

/-- After a refusal the old buffer goes on, by `goesOn`. -/
theorem goesOn_of_refused {result : Except WireError Buffer} {e : WireError}
    (h : (b.goesOn result).1 = .error e) : (b.goesOn result).2 = b := by
  cases result with
  | ok b' => cases h
  | error e' => rfl

/-- A refusal leaves a buffer as it was: only the operations that `goesOn` follows can be
    refused. -/
theorem step_of_refused {op : Op} {e : WireError} (h : (b.step op).1 = .error e) :
    (b.step op).2 = b := by
  cases op with
  | append bs | appendByte x | update offset bs => exact goesOn_of_refused h
  | reset | take => cases h
  | copy => rfl

/-- An update leaves all bytes but those that it replaces as they were, and adds none
    (`getElem?_overwrite`). -/
theorem getElem?_update (h : b.update offset bs = .ok b') :
    b'.size = b.size ∧
      ∀ i, b'.toList[i]?
        = if offset ≤ i ∧ i < offset + bs.length then bs[i - offset]? else b.toList[i]? := by
  rcases Nat.lt_or_ge b.size (offset + bs.length) with hover | hfits
  · rw [update_of_overrun hover] at h
    cases h
  · have hlength : offset + bs.length ≤ b.toList.length := b.length_toList ▸ hfits
    rw [update_of_fits hfits] at h
    cases h
    exact ⟨length_overwrite b.toList offset bs, getElem?_overwrite hlength⟩

/-! ### Buffers and lists -/

/-- A buffer has some bytes, which are no more than it may have. -/
structure Holds (b : Buffer) (limit : Nat) (bytes : List UInt8) : Prop where
  toList_eq : b.toList = bytes
  limit_eq : b.limit = limit
  length_le : bytes.length ≤ limit

namespace Holds

variable {limit : Nat}

/-- A buffer has as many bytes as the list that it `Holds`. -/
theorem size_eq (h : b.Holds limit bytes) : b.size = bytes.length := by
  rw [← length_toList, h.toList_eq]

/-- A buffer that `Holds` a list has room for what is missing to the limit. -/
theorem remaining_eq (h : b.Holds limit bytes) : b.remaining = limit - bytes.length := by
  rw [remaining, h.limit_eq, h.size_eq]

/-- A buffer that is `extended` holds the longer list, if this one keeps to the limit. -/
theorem extended (h : b.Holds limit bytes) (hfits : bytes.length + bs.length ≤ limit) :
    (b.extended bs).Holds limit (bytes ++ bs) where
  toList_eq := by rw [toList_extended, h.toList_eq]
  limit_eq := h.limit_eq
  length_le := by rwa [List.length_append]

theorem withBytes {bytes' : List UInt8} (h : b.Holds limit bytes) (hle : bytes'.length ≤ limit) :
    (b.withBytes bytes').Holds limit bytes' where
  toList_eq := rfl
  limit_eq := h.limit_eq
  length_le := hle

/-- Bytes are added exactly if the list has room for them. -/
theorem append_isOk_iff (h : b.Holds limit bytes) :
    (b.append bs).isOk = true ↔ bytes.length + bs.length ≤ limit := by
  have hle := h.length_le
  have hremaining := h.remaining_eq
  rcases Nat.lt_or_ge b.remaining bs.length with hover | hfits
  · rw [append_of_overflow hover]
    exact iff_of_false nofun (by omega)
  · rw [append_of_fits hfits]
    exact iff_of_true rfl (by omega)

/-- Bytes are replaced exactly if the list has them all. -/
theorem update_isOk_iff (h : b.Holds limit bytes) :
    (b.update offset bs).isOk = true ↔ offset + bs.length ≤ bytes.length := by
  rw [← h.size_eq]
  rcases Nat.lt_or_ge b.size (offset + bs.length) with hover | hfits
  · rw [update_of_overrun hover]
    exact iff_of_false nofun (Nat.not_le_of_lt hover)
  · rw [update_of_fits hfits]
    exact iff_of_true rfl hfits

/-- Bytes are added to a buffer as they are to a list by `listStep`, with the same answer. The
    step for `append`, of several bytes or of one. -/
theorem goesOn_append (h : b.Holds limit bytes) (bs : List UInt8) :
    (b.goesOn (b.append bs)).1 = (listStep limit bytes (.append bs)).1 ∧
      (b.goesOn (b.append bs)).2.Holds limit (listStep limit bytes (.append bs)).2 := by
  have hle := h.length_le
  have hremaining := h.remaining_eq
  rw [listStep]
  split
  · next hfits =>
    rw [append_of_fits (by omega)]
    exact ⟨rfl, h.extended hfits⟩
  · next hover =>
    rw [append_of_overflow (by omega), hremaining]
    exact ⟨rfl, h⟩

/-- An operation on a buffer ends like the one on a list, `listStep`, and leaves the same
    bytes. -/
theorem step (h : b.Holds limit bytes) (op : Op) :
    (b.step op).1 = (listStep limit bytes op).1 ∧
      (b.step op).2.Holds limit (listStep limit bytes op).2 := by
  cases op with
  | append bs => exact h.goesOn_append bs
  | appendByte x => exact h.goesOn_append [x]
  | update offset bs =>
    have hsize := h.size_eq
    rw [Buffer.step, listStep]
    split
    · next hfits =>
      rw [update_of_fits (by omega), h.toList_eq]
      exact ⟨rfl, h.withBytes (by rw [length_overwrite]; exact h.length_le)⟩
    · next hover =>
      rw [update_of_overrun (by omega), hsize]
      exact ⟨rfl, h⟩
  | reset => exact ⟨rfl, h.withBytes (Nat.zero_le _)⟩
  | take => exact ⟨congrArg _ h.toList_eq, h.withBytes (Nat.zero_le _)⟩
  | copy => exact ⟨congrArg _ h.toList_eq, h⟩

/-- Any number of operations do what they would do to the list. By induction on them, with
    `Holds.step` for each. -/
theorem run (h : b.Holds limit bytes) (ops : List Op) :
    (b.run ops).1 = (Op.run (listStep limit) bytes ops).1 ∧
      (b.run ops).2.Holds limit (Op.run (listStep limit) bytes ops).2 := by
  induction ops generalizing b bytes with
  | nil => exact ⟨rfl, h⟩
  | cons op ops ih =>
    obtain ⟨hanswer, hnext⟩ := h.step op
    obtain ⟨hanswers, hend⟩ := ih hnext
    exact ⟨congr (congrArg List.cons hanswer) hanswers, hend⟩

end Holds

/-- An empty buffer holds the empty list, with which `listRun` begins. -/
theorem holds_empty (limit : Nat) : (empty limit).Holds limit [] :=
  ⟨rfl, rfl, Nat.zero_le _⟩

end EventReporter.Buffer
