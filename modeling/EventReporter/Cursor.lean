import EventReporter.Wire
namespace EventReporter

/-!
# Reading position

A reader walks over bytes with a cursor. A failing reader leaves the cursor where it stood when
the failure was noticed, so the position after an error says how far the bytes made sense.

* `bytes_eq_of_le` : bytes that are there are read, and the cursor moves past them.
* `bytes_eq_of_lt` : a read past the end fails and names the byte that it needed.
-/

/-- A position in a run of bytes. -/
structure Cursor where
  /-- The number of all bytes. -/
  size : Nat
  /-- How many bytes are behind the cursor. -/
  offset : Nat
  /-- The bytes ahead. -/
  rest : List UInt8
deriving DecidableEq, Repr

/-- A reader of an `α`. -/
abbrev Read (α : Type) := EStateM WireError Cursor α

namespace Cursor

/-- The cursor at `offset` in `data`. -/
def ofBytes (data : List UInt8) (offset : Nat) : Cursor :=
  ⟨data.length, offset, data.drop offset⟩

/-- The cursor `n` bytes further on. -/
def advance (c : Cursor) (n : Nat) : Cursor :=
  ⟨c.size, c.offset + n, c.rest.drop n⟩

/-- Going past no bytes is staying. -/
@[simp]
theorem advance_zero (c : Cursor) : c.advance 0 = c := by
  simp [advance]

/-- Steps of `advance` add up. -/
theorem advance_advance (c : Cursor) (m n : Nat) : (c.advance m).advance n = c.advance (m + n) := by
  simp [advance, Nat.add_assoc]

/-- On the cursors that `ofBytes` makes, `advance` moves the offset. -/
theorem advance_ofBytes (data : List UInt8) (offset n : Nat) :
    (ofBytes data offset).advance n = ofBytes data (offset + n) := by
  simp [ofBytes, advance]

end Cursor

namespace Read

/-- Reads the next `n` bytes. -/
def bytes (n : Nat) : Read (List UInt8) := fun c =>
  if (c.rest.take n).length = n then .ok (c.rest.take n) (c.advance n)
  else .error (.tooShort (c.offset + n) c.size) c

/-- Reads the next byte. -/
def byte : Read UInt8 := fun c =>
  match c.rest with
  | b :: _ => .ok b (c.advance 1)
  | [] => .error (.tooShort (c.offset + 1) c.size) c

/-- Reads `n` items, after the items in `done`, last one first. -/
def manyFrom {α : Type} (item : Read α) (done : List α) : Nat → Read (List α)
  | 0 => pure done.reverse
  | n + 1 => do
    let x ← item
    manyFrom item (x :: done) n

/-- Reads `n` items in a row. -/
def many {α : Type} (item : Read α) (n : Nat) : Read (List α) :=
  manyFrom item [] n

/-- Runs a reader on the bytes from `offset` on: its verdict, and the offset that it leaves. -/
def runAt {α : Type} (r : Read α) (data : List UInt8) (offset : Nat) : Except WireError α × Nat :=
  match r (Cursor.ofBytes data offset) with
  | .ok x c => (.ok x, c.offset)
  | .error e c => (.error e, c.offset)

/-- `bytes n` reads the next `n` bytes and goes past them, if there are so many. -/
theorem bytes_eq_of_le {c : Cursor} {n : Nat} (h : n ≤ c.rest.length) :
    bytes n c = .ok (c.rest.take n) (c.advance n) := by
  simp [bytes, h]

/-- `bytes n` fails where there are less, names the offset at which the last of them would end,
    and stays. -/
theorem bytes_eq_of_lt {c : Cursor} {n : Nat} (h : c.rest.length < n) :
    bytes n c = .error (.tooShort (c.offset + n) c.size) c := by
  simp [bytes]; omega

end Read

end EventReporter
