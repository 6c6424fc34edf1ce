import EventReporter.Outbox
import Mathlib.Data.List.Basic
namespace EventReporter.Outbox

/-!
# Outboxes lose nothing unnoticed

A record that joins an outbox is either in it or has been counted as dropped, and so is every
record that was in it before. A record that was taken from an outbox can always go back.

* `perm_push`, `evicted_push` : what becomes of the records when one joins.
* `sublist_push` : they stay in order.
* `putBack_of_cons` : what becomes of them when one goes back.
-/

variable {α : Type} {q : Outbox α} {x : α} {rest : List α}

/-! ### A record that joins -/

/-- `push` leaves the capacity alone. -/
theorem capacity_push (q : Outbox α) (x : α) : (q.push x).1.capacity = q.capacity := by
  unfold push
  split
  · rfl
  · split <;> rfl

/-- Every record that waited, and the new one, either waits after `push` or is dropped by it. -/
theorem perm_push (q : Outbox α) (x : α) :
    ((q.push x).1.records ++ (q.push x).2.toList).Perm (q.records ++ [x]) := by
  unfold push
  split
  · exact List.Perm.refl _
  · split
    · exact List.Perm.of_eq (List.append_nil _)
    · -- the oldest record moves from the front to the end
      cases q.records with
      | nil => exact List.Perm.refl _
      | cons y rest => exact List.perm_append_comm

/-- The records that wait stay in order, with the new one at their end. -/
theorem sublist_push (q : Outbox α) (x : α) : (q.push x).1.records.Sublist (q.records ++ [x]) := by
  unfold push
  split
  · exact List.sublist_append_left _ _
  · split
    · exact List.Sublist.refl _
    · exact List.Sublist.append_right (List.drop_sublist 1 _) [x]

/-- A record that `push` drops is counted. -/
theorem evicted_push (q : Outbox α) (x : α) :
    (q.push x).1.evicted = q.evicted + (q.push x).2.toList.length := by
  unfold push
  split
  · rfl
  · next hzero =>
    split
    · rfl
    · next hfull =>
      -- a full outbox has an oldest record
      cases hrecords : q.records with
      | nil =>
        have hsize : q.size = 0 := by
          rw [size, hrecords]
          rfl
        omega
      | cons y rest => rfl

/-- A record that joins an outbox with any room at all is its newest one. -/
theorem getLast?_push (h : q.capacity ≠ 0) (x : α) : (q.push x).1.records.getLast? = some x := by
  unfold push
  rw [if_neg h]
  split
  · exact List.getLast?_concat
  · exact List.getLast?_concat

/-- An outbox without room counts a record that joins as dropped. -/
theorem push_of_capacity_zero (h : q.capacity = 0) (x : α) :
    q.push x = ({ q with evicted := q.evicted + 1 }, some x) :=
  if_pos h

/-! ### A record that leaves, and goes back -/

/-- `pop?` leaves the capacity alone. -/
theorem capacity_pop? {q' : Outbox α} (h : q.pop? = some (x, q')) : q'.capacity = q.capacity := by
  unfold pop? at h
  split at h
  · cases h
  · cases h
    rfl

/-- `putBack` leaves the capacity as it is. -/
theorem capacity_putBack (q : Outbox α) (x : α) : (q.putBack x).1.capacity = q.capacity := by
  unfold putBack
  split
  · rfl
  · split <;> rfl

/-- `pop?` finds nothing in an empty outbox. -/
theorem pop?_of_nil (h : q.records = []) : q.pop? = none := by
  rw [pop?, h]

/-- `pop?` takes the oldest record. -/
theorem pop?_of_cons (h : q.records = x :: rest) :
    q.pop? = some (x, { q with records := rest }) := by
  rw [pop?, h]

/-- A record that `pop?` has taken goes back to its place, and no other one has to go. -/
theorem putBack_of_cons (h : q.size ≤ q.capacity) (hrecords : q.records = x :: rest) :
    { q with records := rest }.putBack x = (q, none) := by
  have hsize : rest.length + 1 ≤ q.capacity := by
    rw [size, hrecords] at h
    exact h
  have hpos : q.capacity ≠ 0 := by omega
  have hroom : ({ q with records := rest } : Outbox α).size < q.capacity := hsize
  unfold putBack
  rw [if_neg hpos, if_pos hroom, ← hrecords]

end EventReporter.Outbox
