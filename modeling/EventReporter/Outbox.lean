import EventReporter.Journal
namespace EventReporter

/-!
# Outboxes

Records that could not be sent wait in a queue of bounded length. A full outbox makes room for a
new record by dropping its oldest one, and for one that is put back by dropping its newest.

* `size_push_le`, `size_putBack_le` : an outbox stays within its capacity.
-/

/-- Records that wait, oldest first. -/
structure Outbox (α : Type) where
  /-- The records. -/
  records : List α
  /-- The most records. -/
  capacity : Nat
  /-- How many records have been dropped. -/
  evicted : Nat
deriving DecidableEq, Repr

namespace Outbox

variable {α : Type}

/-- An empty outbox. -/
def new (capacity : Nat) : Outbox α :=
  ⟨[], capacity, 0⟩

/-- How many records wait. -/
def size (q : Outbox α) : Nat :=
  q.records.length

/-- Adds a record at the end. The second result is the record that had to go, if any. -/
def push (q : Outbox α) (x : α) : Outbox α × Option α :=
  if q.capacity = 0 then ({ q with evicted := q.evicted + 1 }, some x)
  else if q.size < q.capacity then ({ q with records := q.records ++ [x] }, none)
  else
    -- the oldest record makes room
    ({ q with records := q.records.drop 1 ++ [x], evicted := q.evicted + 1 }, q.records.head?)

/-- Takes the oldest record. -/
def pop? (q : Outbox α) : Option (α × Outbox α) :=
  match q.records with
  | [] => none
  | x :: rest => some (x, { q with records := rest })

/-- Puts a record back at the front. The second result is the record that had to go, if any. -/
def putBack (q : Outbox α) (x : α) : Outbox α × Option α :=
  if q.capacity = 0 then ({ q with evicted := q.evicted + 1 }, some x)
  else if q.size < q.capacity then ({ q with records := x :: q.records }, none)
  else
    -- the newest record makes room
    ({ q with records := x :: q.records.dropLast, evicted := q.evicted + 1 },
      q.records.getLast?)

/-- What is said when a full outbox drops its oldest record. -/
def fullEntry (capacity : Nat) : Journal.Entry where
  level := .warn
  target := Journal.source "transport::retry"
  message := "retry queue full, dropped oldest record"
  fields := [("capacity", .number capacity)]

/-- `push`, with a diagnostic entry if a waiting record had to go. -/
def enqueue {σ : Type} (q : Outbox α) (x : α) : Action σ (Outbox α × Option α) := do
  if 0 < q.capacity ∧ q.capacity ≤ q.size then note (fullEntry q.capacity)
  pure (q.push x)

/-- `pop?` takes a record out of the outbox, which makes it smaller. Draining it comes to an end
    by this. -/
theorem size_of_pop? {q q' : Outbox α} {x : α} (h : q.pop? = some (x, q')) :
    q'.size < q.size := by
  unfold pop? at h
  split at h
  · cases h
  · next hr =>
    cases h
    simp [size, hr]

/-- `push` keeps an outbox within its capacity: what is too many is dropped at the front. -/
theorem size_push_le {q : Outbox α} (h : q.size ≤ q.capacity) (x : α) :
    (q.push x).1.size ≤ q.capacity := by
  unfold push
  split
  · simpa [size] using h
  · split
    · simp only [size, List.length_append, List.length_singleton] at *; omega
    · simp only [size, List.length_append, List.length_singleton, List.length_drop] at *; omega

/-- `putBack` does so as well, by dropping at the back. -/
theorem size_putBack_le {q : Outbox α} (h : q.size ≤ q.capacity) (x : α) :
    (q.putBack x).1.size ≤ q.capacity := by
  unfold putBack
  split
  · simpa [size] using h
  · split
    · simp only [size, List.length_cons] at *; omega
    · simp only [size, List.length_cons, List.length_dropLast] at *; omega

end Outbox

end EventReporter
