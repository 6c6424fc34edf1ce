import EventReporter.Transport
namespace EventReporter

/-!
# Histories of a sender

What became of the records that were handed to a sender one after the other, and where each of
them is in the end: sent at once, sent later, dropped, or still waiting.

* `perm_delivered` : what goes out is what was sent at once and what was sent later.
-/

/-- The route that a record takes. -/
def Route.taken (record : List UInt8) : Route :=
  match ofRecord record with
  | .ok route => route
  | .error _ => normal

namespace Transport

variable {α σ : Type}

/-- A record that was handed to a sender, and what became of it at once. -/
structure Call (α : Type) where
  /-- The record. -/
  record : α
  /-- What the sender did. -/
  sending : Sending α

namespace Call

/-- Whether the record was sent at once. -/
def succeeded (c : Call α) : Bool :=
  c.sending.result.isOk

/-- A call whose sending ended well has `succeeded`. -/
@[simp] theorem succeeded_ok (x : α) (t : Transport α) (replayed : List α) (dropped : Option α) :
    (mk x ⟨t, replayed, dropped, .ok ()⟩).succeeded = true :=
  rfl

/-- One whose sending ended with an error has not. -/
@[simp] theorem succeeded_error (x : α) (t : Transport α) (replayed : List α)
    (dropped : Option α) (e : SendError) :
    (mk x ⟨t, replayed, dropped, .error e⟩).succeeded = false :=
  rfl

/-- The records that were sent in the course of a call, in order: those that waited, then its
    own. -/
def delivered (c : Call α) : List α :=
  c.sending.replayed ++ if c.succeeded then [c.record] else []

end Call

/-- Sends records in order. -/
def sendAll (net : Network σ) (content : α → List UInt8) (t : Transport α) :
    List α → Action σ (Transport α × List (Call α))
  | [] => pure (t, [])
  | x :: xs => do
    let sending ← send net content t x
    let (last, calls) ← sendAll net content sending.transport xs
    pure (last, ⟨x, sending⟩ :: calls)

/-- Whether a record is of a size that can be sent. -/
def accepts (content : α → List UInt8) (t : Transport α) (x : α) : Bool :=
  decide (0 < (content x).length ∧ (content x).length ≤ t.maxSize)

/-! ### Where the records are -/

/-- The records that were sent at once. -/
def direct (calls : List (Call α)) : List α :=
  (calls.filter Call.succeeded).map Call.record

/-- The records that were sent after they had waited. -/
def replays (calls : List (Call α)) : List α :=
  calls.flatMap (·.sending.replayed)

/-- The records that were dropped. -/
def drops (calls : List (Call α)) : List α :=
  calls.filterMap (·.sending.dropped)

/-- The records that were sent, in the order in which they went out. -/
def delivered (calls : List (Call α)) : List α :=
  calls.flatMap Call.delivered

/-- What is `delivered` was sent at once or sent later. By induction on the calls, each of which
    sends what waited before its own record. -/
theorem perm_delivered (calls : List (Call α)) :
    (delivered calls).Perm (direct calls ++ replays calls) := by
  induction calls with
  | nil => exact List.Perm.refl _
  | cons c calls ih =>
    let own := if c.succeeded then [c.record] else []
    let waited := c.sending.replayed
    have hdelivered : delivered (c :: calls) = waited ++ (own ++ delivered calls) :=
      List.append_assoc waited own _
    have hdirect : direct (c :: calls) = own ++ direct calls := by
      unfold direct own
      cases hc : c.succeeded <;> simp [hc]
    rw [hdelivered, hdirect, List.append_assoc]
    calc
      List.Perm (waited ++ (own ++ delivered calls)) (own ++ (waited ++ delivered calls)) :=
        List.perm_append_comm_assoc ..
      List.Perm _ (own ++ (waited ++ (direct calls ++ replays calls))) :=
        (ih.append_left waited).append_left own
      List.Perm _ (own ++ (direct calls ++ (waited ++ replays calls))) :=
        (List.perm_append_comm_assoc ..).append_left own

end Transport

end EventReporter
