import EventReporter.Wire
namespace EventReporter

/-!
# Bounded byte buffers

A buffer holds at most `limit` bytes. Each operation either happens in full or leaves the buffer
as it was. How much room is allocated shows in no answer; `Storage` accounts for it.

* `toList_append` : what was appended stands after what was there.
* `append_eq_ok_iff` : an append succeeds exactly when the bytes fit.
* `toList_appendAll` : a run of appends that succeeds adds all its pieces in order.
-/

/-- Bytes under construction, with a limit on their number. -/
structure Buffer where
  /-- The bytes so far. -/
  bytes : Array UInt8
  /-- The most bytes that it may hold. -/
  limit : Nat
deriving DecidableEq, Repr

namespace Buffer

/-- A buffer without bytes. -/
def empty (limit : Nat) : Buffer :=
  ⟨#[], limit⟩

/-- The bytes of a buffer. -/
def toList (b : Buffer) : List UInt8 :=
  b.bytes.toList

/-- The number of bytes in a buffer. -/
def size (b : Buffer) : Nat :=
  b.bytes.size

/-- How many more bytes fit. -/
def remaining (b : Buffer) : Nat :=
  b.limit - b.size

/-- Adds bytes at the end. -/
def append (b : Buffer) (bs : List UInt8) : Except WireError Buffer :=
  if bs.length ≤ b.remaining then .ok { b with bytes := b.bytes ++ bs }
  else .error (.overflow bs.length b.remaining)

/-- Appends pieces one by one, up to the first that does not fit. The buffer keeps the pieces
    before it. -/
def appendAll (b : Buffer) : List (List UInt8) → Buffer × Except WireError Unit
  | [] => (b, .ok ())
  | piece :: rest =>
    if piece.length ≤ b.remaining then appendAll { b with bytes := b.bytes ++ piece } rest
    else (b, .error (.overflow piece.length b.remaining))

/-- Writes bytes over those at `offset`. -/
def update (b : Buffer) (offset : Nat) (bs : List UInt8) : Except WireError Buffer :=
  if offset + bs.length ≤ b.size then
    .ok { b with
      bytes := (b.toList.take offset ++ bs ++ b.toList.drop (offset + bs.length)).toArray }
  else .error (.updateOutOfRange offset bs.length b.size)

/-- Drops all bytes. -/
def reset (b : Buffer) : Buffer :=
  { b with bytes := #[] }

/-- The bytes, and the buffer without them. -/
def take (b : Buffer) : List UInt8 × Buffer :=
  (b.toList, b.reset)

/-! ### The list of bytes -/

/-- A buffer starts without bytes. -/
@[simp]
theorem toList_empty (limit : Nat) : (empty limit).toList = [] := rfl

/-- `size` counts the bytes that `toList` shows. -/
theorem length_toList (b : Buffer) : b.toList.length = b.size := by
  simp [toList, size]

/-- What `append` does: it takes all of the bytes exactly if there is room for them. -/
theorem append_eq_ok_iff {b b' : Buffer} {bs : List UInt8} :
    b.append bs = .ok b' ↔
      bs.length ≤ b.remaining ∧ b' = { b with bytes := b.bytes ++ bs } := by
  unfold append
  split <;> rename_i hfit
  · simp [hfit, eq_comm]
  · simp [hfit]

/-- The bytes that `append` takes stand behind those that were there. -/
theorem toList_append {b b' : Buffer} {bs : List UInt8} (h : b.append bs = .ok b') :
    b'.toList = b.toList ++ bs := by
  obtain ⟨_, rfl⟩ := append_eq_ok_iff.mp h
  simp [toList]

/-- The same for the pieces that `appendAll` takes one after the other: it is their concatenation.
    By induction on the pieces, with `toList_append` for each. -/
theorem toList_appendAll {b b' : Buffer} {pieces : List (List UInt8)}
    (h : b.appendAll pieces = (b', .ok ())) : b'.toList = b.toList ++ pieces.flatten := by
  induction pieces generalizing b with
  | nil => simp_all [appendAll]
  | cons piece rest ih =>
    simp only [appendAll] at h
    split at h
    · rw [ih h]; simp [toList]
    · simp at h

end Buffer

end EventReporter
