import EventReporter.Buffer
namespace EventReporter.Buffer

/-!
# What fits into a buffer

Pieces that are appended one after the other fit exactly if all their bytes together do. What
stops a run of appends is always the limit.

* `appendAll_isOk_iff` : when a run of appends succeeds.
* `isOverflow_of_appendAll` : why it fails.
* `appendAll_of_fits`, `appendAll_of_overflow` : where it ends.
-/

variable {b b' : Buffer} {pieces : List (List UInt8)}

/-! ### Buffers with more bytes -/

/-- A buffer with some more bytes. -/
def extended (b : Buffer) (bs : List UInt8) : Buffer :=
  { b with bytes := b.bytes ++ bs }

/-- `extended` adds its bytes at the end. -/
@[simp]
theorem toList_extended (b : Buffer) (bs : List UInt8) :
    (b.extended bs).toList = b.toList ++ bs :=
  Array.toList_appendList

/-- `extended` leaves the limit alone. -/
@[simp]
theorem limit_extended (b : Buffer) (bs : List UInt8) : (b.extended bs).limit = b.limit :=
  rfl

/-- The buffer has as many bytes more. -/
@[simp]
theorem size_extended (b : Buffer) (bs : List UInt8) :
    (b.extended bs).size = b.size + bs.length := by
  rw [← length_toList, toList_extended, List.length_append, length_toList]

/-- `extended` takes the room of the bytes that it adds. -/
theorem remaining_extended (b : Buffer) (bs : List UInt8) :
    (b.extended bs).remaining = b.remaining - bs.length := by
  rw [remaining, remaining, size_extended, limit_extended, Nat.sub_sub]

/-- To add no bytes is to do nothing. -/
theorem extended_nil (b : Buffer) : b.extended [] = b := by
  rw [extended, Array.appendList_nil]

/-- To add bytes and then others is to add both at once, so that a run of appends is one. -/
theorem extended_extended (b : Buffer) (bs bs' : List UInt8) :
    (b.extended bs).extended bs' = b.extended (bs ++ bs') := by
  have hbytes : (b.bytes ++ bs) ++ bs' = b.bytes ++ (bs ++ bs') := by
    apply Array.ext'
    simp
  simp only [extended, hbytes]

/-! ### Runs of appends -/

/-- `appendAll` takes a piece that fits, and goes on with the others. -/
theorem appendAll_cons_of_fits {piece : List UInt8} (h : piece.length ≤ b.remaining) :
    b.appendAll (piece :: pieces) = (b.extended piece).appendAll pieces := by
  rw [appendAll, if_pos h]
  rfl

/-- If all pieces fit together, `appendAll` takes all of their bytes. By induction on the pieces,
    for every buffer: the first one takes its room from the others. -/
theorem appendAll_of_fits (h : pieces.flatten.length ≤ b.remaining) :
    b.appendAll pieces = (b.extended pieces.flatten, .ok ()) := by
  induction pieces generalizing b with
  | nil =>
    rw [List.flatten_nil, extended_nil]
    rfl
  | cons piece rest ih =>
    rw [List.flatten_cons, List.length_append] at h
    have hrest : rest.flatten.length ≤ (b.extended piece).remaining := by
      rw [remaining_extended]
      omega
    rw [appendAll_cons_of_fits (by omega), ih hrest, extended_extended, List.flatten_cons]

/-- Pieces that do not all fit are appended up to the first for which there is no more room. -/
theorem appendAll_of_overflow (h : b.remaining < pieces.flatten.length) :
    ∃ (done : List (List UInt8)) (next : List UInt8) (rest : List (List UInt8)),
      pieces = done ++ next :: rest ∧
      done.flatten.length ≤ b.remaining ∧
      b.remaining < done.flatten.length + next.length ∧
      b.appendAll pieces =
        (b.extended done.flatten,
          .error (.overflow next.length (b.remaining - done.flatten.length))) := by
  -- on the pieces, for every buffer
  induction pieces generalizing b with
  | nil => cases h
  | cons piece rest ih =>
    by_cases hfits : piece.length ≤ b.remaining
    · -- the first piece fits, so the one for which there is no room is among the others
      rw [List.flatten_cons, List.length_append] at h
      have hrest : (b.extended piece).remaining < rest.flatten.length := by
        rw [remaining_extended]
        omega
      obtain ⟨done, next, later, rfl, hdone, hnext, hrun⟩ := ih hrest
      rw [remaining_extended] at hdone hnext hrun
      refine ⟨piece :: done, next, later, rfl, ?_, ?_, ?_⟩
      · rw [List.flatten_cons, List.length_append]
        omega
      · rw [List.flatten_cons, List.length_append]
        omega
      · rw [appendAll_cons_of_fits hfits, hrun, extended_extended, List.flatten_cons,
          List.length_append, Nat.sub_sub]
    · -- it does not fit itself, and nothing is appended
      refine ⟨[], piece, rest, rfl, Nat.zero_le _, ?_, ?_⟩
      · rw [List.flatten_nil, List.length_nil, Nat.zero_add]
        exact Nat.lt_of_not_le hfits
      · rw [appendAll, if_neg hfits, List.flatten_nil, extended_nil]
        rfl

/-- `appendAll` succeeds exactly if all bytes of the pieces fit together, by `appendAll_of_fits`
    and `appendAll_of_overflow`. -/
theorem appendAll_isOk_iff (b : Buffer) (pieces : List (List UInt8)) :
    (b.appendAll pieces).2.isOk = true ↔ pieces.flatten.length ≤ b.remaining := by
  rcases Nat.lt_or_ge b.remaining pieces.flatten.length with hover | hfits
  · obtain ⟨done, next, rest, -, -, -, hrun⟩ := appendAll_of_overflow hover
    rw [hrun]
    exact iff_of_false nofun (Nat.not_le_of_lt hover)
  · rw [appendAll_of_fits hfits]
    exact iff_of_true rfl hfits

/-- Whether it succeeds or not, the limit stays as it is. -/
theorem limit_of_appendAll {result : Except WireError Unit}
    (h : b.appendAll pieces = (b', result)) : b'.limit = b.limit := by
  rcases Nat.lt_or_ge b.remaining pieces.flatten.length with hover | hfits
  · obtain ⟨done, next, rest, -, -, -, hrun⟩ := appendAll_of_overflow hover
    rw [hrun] at h
    cases h
    rfl
  · rw [appendAll_of_fits hfits] at h
    cases h
    rfl

/-- Only the limit makes it fail: there is no error but an overflow. -/
theorem isOverflow_of_appendAll {e : WireError} (h : b.appendAll pieces = (b', .error e)) :
    e.isOverflow = true := by
  rcases Nat.lt_or_ge b.remaining pieces.flatten.length with hover | hfits
  · obtain ⟨done, next, rest, -, -, -, hrun⟩ := appendAll_of_overflow hover
    rw [hrun] at h
    cases h
    rfl
  · rw [appendAll_of_fits hfits] at h
    cases h

end EventReporter.Buffer
