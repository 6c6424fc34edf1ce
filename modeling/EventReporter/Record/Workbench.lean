import EventReporter.Record.History
namespace EventReporter.Record

/-!
# Workbenches

A builder lays out its record in a buffer that it keeps, and uses again for the next layout. A
layout that succeeds leaves the whole record in the buffer, and one that fails leaves what it had
written until then. Before anything is written the buffer is emptied.

* `builder_build` : a layout leaves the builder as it is.
-/

/-- A builder with the buffer in which it lays out its record. -/
structure Workbench where
  /-- The builder. -/
  builder : Builder
  /-- What the last layout left in the buffer. -/
  residue : Array UInt8
deriving DecidableEq

namespace Workbench

/-- A workbench at which nothing was laid out. -/
def fresh (builder : Builder) : Workbench :=
  ⟨builder, #[]⟩

/-- The buffer, which has the limit of the record. -/
def buffer (w : Workbench) : Buffer :=
  ⟨w.residue, w.builder.limit⟩

/-! ### Layout -/

/-- Work in a buffer. What was written before a failure stays there. -/
abbrev Write (α : Type) := EStateM WireError Buffer α

/-- Appends pieces one by one. -/
def append (pieces : List (List UInt8)) : Write Unit := fun buffer =>
  match buffer.appendAll pieces with
  | (buffer, .ok ()) => .ok () buffer
  | (buffer, .error e) => .error e buffer

/-- Writes bytes over the first ones. -/
def overwrite (bytes : List UInt8) : Write Unit := fun buffer =>
  match buffer.update 0 bytes with
  | .ok buffer => .ok () buffer
  | .error e => .error e buffer

/-- Lays out a record, whatever is in the buffer. -/
def layOut (b : Builder) : Write (List UInt8) := do
  modify Buffer.reset
  append b.leadingPieces
  let count ← ofExcept (Builder.stated b.entries.length)
  append (count :: b.entries.map (·.bytes))
  -- the length is known last and stands first
  let length ← ofExcept (Builder.stated (← get).size)
  overwrite length
  return (← get).toList

/-- Lays out the record of the builder. -/
def build (w : Workbench) : Except WireError (List UInt8) × Workbench :=
  match layOut w.builder w.buffer with
  | .ok bytes buffer => (.ok bytes, { w with residue := buffer.bytes })
  | .error e buffer => (.error e, { w with residue := buffer.bytes })

/-- `build` may spoil the scratch buffer, but leaves the builder alone. -/
@[simp]
theorem builder_build (w : Workbench) : w.build.2.builder = w.builder := by
  unfold build
  split <;> rfl

/-! ### Histories -/

/-- What is done at a workbench. -/
inductive Act where
  /-- The record is changed. -/
  | change (c : Change)
  /-- The record is laid out, with whatever result. -/
  | build

/-- The change that something makes. -/
def Act.change? : Act → Option Change
  | change c => some c
  | build => none

/-- The workbench after something was done. -/
def apply (w : Workbench) : Act → Workbench
  | .change c => { w with builder := w.builder.apply c }
  | .build => w.build.2

/-- The workbench after some work. -/
def applyAll (w : Workbench) (acts : List Act) : Workbench :=
  acts.foldl apply w

end Workbench

end EventReporter.Record
