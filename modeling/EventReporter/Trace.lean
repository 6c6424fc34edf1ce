import EventReporter.LittleEndian
import EventReporter.Wire
namespace EventReporter

/-!
# Distributed traces

The identifiers that tie an event to a distributed trace, and their block of 17 bytes in a
record: the flag, the trace, the span and its parent.

* `read_bytes` : a block is read as it was written, whatever follows it.
-/

/-- Identifiers of a distributed trace. -/
structure Trace where
  /-- Flags of the trace. -/
  flag : UInt8
  /-- The trace. Zero means no trace. -/
  id : UInt64
  /-- The span. -/
  span : UInt32
  /-- The span that opened this one. -/
  parent : UInt32
deriving DecidableEq, Repr, Inhabited

namespace Trace

/-- No trace. -/
def none : Trace := ⟨0, 0, 0, 0⟩

/-- Whether there is a trace. -/
def isValid (t : Trace) : Bool :=
  t.id != 0

/-- The size of a trace block. -/
def blockSize : Nat := 17

/-- The trace block. -/
def bytes (t : Trace) : List UInt8 :=
  LittleEndian.bytes 1 t.flag.toNat ++ LittleEndian.bytes 8 t.id.toNat ++
    LittleEndian.bytes 4 t.span.toNat ++ LittleEndian.bytes 4 t.parent.toNat

/-- Reads the trace block at the front of some bytes. -/
def read (data : List UInt8) : Except WireError Trace :=
  if data.length < blockSize then .error (.tooShort blockSize data.length)
  else
    let (flag, data) := LittleEndian.take 1 data
    let (id, data) := LittleEndian.take 8 data
    let (span, data) := LittleEndian.take 4 data
    let (parent, _) := LittleEndian.take 4 data
    .ok ⟨UInt8.ofNat flag, UInt64.ofNat id, UInt32.ofNat span, UInt32.ofNat parent⟩

/-- A trace takes as many bytes as `blockSize` says. -/
@[simp]
theorem length_bytes (t : Trace) : t.bytes.length = blockSize := by
  simp [bytes, blockSize]

/-- `read` finds a trace again in its `bytes`, whatever follows them. -/
theorem read_bytes (t : Trace) (rest : List UInt8) : read (t.bytes ++ rest) = .ok t := by
  have hlen : ¬(t.bytes ++ rest).length < blockSize := by simp
  rw [read, if_neg hlen]
  simp [bytes, List.append_assoc, LittleEndian.count]

end Trace

end EventReporter
