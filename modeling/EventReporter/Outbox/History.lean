import EventReporter.Outbox
namespace EventReporter.Outbox

/-!
# Histories of an outbox

What becomes of an outbox into which records are put, from which records are taken, and to which
some of them go back, and in which order the records leave it.

* `after_append` : histories that go on.
-/

/-- What can be done with an outbox. -/
inductive Op (α : Type) where
  /-- A record joins. -/
  | push (x : α)
  /-- The oldest record is taken. -/
  | pop
  /-- A record goes back to the front. -/
  | putBack (x : α)
deriving DecidableEq, Repr

variable {α : Type}

/-- The record that an operation puts into an outbox. -/
def Op.given? : Op α → Option α
  | push x | putBack x => some x
  | pop => none

/-- Whether an operation is one that puts a record back. -/
def Op.isPutBack : Op α → Bool
  | putBack _ => true
  | push _ | pop => false

/-- A record that is no longer in an outbox, and why. -/
inductive Departure (α : Type) where
  /-- It was taken. -/
  | taken (x : α)
  /-- It had to make room. -/
  | dropped (x : α)
deriving DecidableEq, Repr

namespace Departure

/-- The record. -/
def record : Departure α → α
  | taken x | dropped x => x

/-- The record, if it was taken. -/
def taken? : Departure α → Option α
  | taken x => some x
  | dropped _ => none

/-- The record, if it had to make room. -/
def dropped? : Departure α → Option α
  | dropped x => some x
  | taken _ => none

/-- What `taken?` tells of a departure is its record. -/
theorem record_of_taken? (d : Departure α) (x : α) (h : d.taken? = some x) : d.record = x := by
  cases d with
  | taken y => exact Option.some.inj h
  | dropped y => cases h

/-- What `dropped?` tells of a departure is its record. -/
theorem record_of_dropped? (d : Departure α) (x : α) (h : d.dropped? = some x) : d.record = x := by
  cases d with
  | taken y => cases h
  | dropped y => exact Option.some.inj h

/-- A record that had to make room leaves under `record`. -/
theorem map_record_dropped (x : Option α) :
    (x.map dropped).toList.map record = x.toList := by
  cases x <;> rfl

/-- `dropped?` tells what was dropped. -/
theorem filterMap_dropped?_dropped (x : Option α) :
    (x.map dropped).toList.filterMap dropped? = x.toList := by
  cases x <;> rfl

end Departure

/-- The outbox after an operation, and the record that has left it. -/
def step (q : Outbox α) : Op α → Outbox α × Option (Departure α)
  | .push x => ((q.push x).1, (q.push x).2.map .dropped)
  | .pop =>
    match q.pop? with
    | some (x, q') => (q', some (.taken x))
    | none => (q, none)
  | .putBack x => ((q.putBack x).1, (q.putBack x).2.map .dropped)

/-- The outbox after some operations. -/
def after (q : Outbox α) (ops : List (Op α)) : Outbox α :=
  ops.foldl (fun q op => (q.step op).1) q

/-- The records that leave an outbox in the course of some operations, in order. -/
def departures (q : Outbox α) : List (Op α) → List (Departure α)
  | [] => []
  | op :: ops => (q.step op).2.toList ++ departures (q.step op).1 ops

/-- The records that some operations put into an outbox, in order. -/
def given (ops : List (Op α)) : List α :=
  ops.filterMap Op.given?

/-- The records that are taken in the course of some operations, in order. -/
def taken (q : Outbox α) (ops : List (Op α)) : List α :=
  (q.departures ops).filterMap Departure.taken?

/-- The records that have to make room in the course of some operations, in order. -/
def dropped (q : Outbox α) (ops : List (Op α)) : List α :=
  (q.departures ops).filterMap Departure.dropped?

/-- A pop does nothing to an outbox without records. -/
theorem step_pop_of_nil {q : Outbox α} (h : q.records = []) : q.step .pop = (q, none) := by
  simp only [step, pop?, h]

/-- A pop takes the record at the front. -/
theorem step_pop_of_cons {q : Outbox α} {x : α} {rest : List α} (h : q.records = x :: rest) :
    q.step .pop = ({ q with records := rest }, some (.taken x)) := by
  simp only [step, pop?, h]

/-- A history that goes on starts from where `after` has left the outbox. -/
theorem after_append (q : Outbox α) (ops ops' : List (Op α)) :
    q.after (ops ++ ops') = (q.after ops).after ops' :=
  List.foldl_append

end EventReporter.Outbox
