import EventReporter.Proofs.Transport.Step
namespace EventReporter

/-!
# Records that look the same

Two records may have the same bytes. To tell them apart they are handed over together with
something else, such as their position in the history. A sender that sees only the bytes does the
same with them as with the bytes alone.

* `sendAll_map` : what is attached to records does not matter.
* `sendAll_zipIdx` : in particular the position.
-/

variable {α β σ : Type}

namespace Outbox

/-- Changes the records of an outbox. -/
def map (f : α → β) (q : Outbox α) : Outbox β :=
  ⟨q.records.map f, q.capacity, q.evicted⟩

variable (f : α → β) (q : Outbox α) (x : α)

/-- `map` leaves as many records as there are. -/
@[simp] theorem size_map : (q.map f).size = q.size :=
  List.length_map f

/-- `push` does with records what it does with what `map` makes of them. -/
theorem push_map : (q.map f).push (f x) = ((q.push x).1.map f, (q.push x).2.map f) := by
  unfold push
  rw [size_map]
  show (if q.capacity = 0 then _ else _) = _
  split
  · rfl
  · show (if q.size < q.capacity then _ else _) = _
    split
    · simp [map]
    · simp [map]

/-- `putBack` does with records what it does with what `map` makes of them. -/
theorem putBack_map : (q.map f).putBack (f x) = ((q.putBack x).1.map f, (q.putBack x).2.map f) := by
  unfold putBack
  rw [size_map]
  show (if q.capacity = 0 then _ else _) = _
  split
  · rfl
  · show (if q.size < q.capacity then _ else _) = _
    split
    · rfl
    · simp [map]

/-- `enqueue` says the same and does with records what it does with what `map` makes of them. -/
theorem enqueue_map :
    ((q.map f).enqueue (f x) : Action σ _)
      = (fun r => (r.1.map f, r.2.map f)) <$> (q.enqueue x : Action σ _) := by
  unfold enqueue
  rw [size_map, push_map]
  by_cases hfull : 0 < q.capacity ∧ q.capacity ≤ q.size
  · rw [if_pos hfull, if_pos (show 0 < (q.map f).capacity ∧ (q.map f).capacity ≤ q.size from hfull)]
    rfl
  · have hfull' : ¬ (0 < (q.map f).capacity ∧ (q.map f).capacity ≤ q.size) := hfull
    rw [if_neg hfull, if_neg hfull']
    rfl

end Outbox

namespace Transport

/-- Changes the records of a sender. -/
def map (f : α → β) (t : Transport α) : Transport β :=
  ⟨t.normalPath, t.urgentPath, t.attempts, t.maxSize, t.outbox.map f, t.sent, t.failed, t.replayed⟩

/-- Changes the records in what became of one. -/
def Sending.map (f : α → β) (s : Sending α) : Sending β :=
  ⟨s.transport.map f, s.replayed.map f, s.dropped.map f, s.result⟩

/-- Changes the records in a call. -/
def Call.map (f : α → β) (c : Call α) : Call β :=
  ⟨f c.record, c.sending.map f⟩

/-- A sender without records has nothing to change. -/
theorem map_new (f : α → β) (normalPath urgentPath : String) (attempts capacity maxSize : Nat) :
    (new normalPath urgentPath attempts capacity maxSize).map f
      = new normalPath urgentPath attempts capacity maxSize :=
  rfl

variable (net : Network σ) (f : α → β) (content : β → List UInt8) (t : Transport α)

/-- What is sent does not depend on what waits. -/
theorem sendRouted_map (bytes : List UInt8) :
    sendRouted net (t.map f) bytes = sendRouted net t bytes :=
  rfl

/-- `drain` does with records what it does with their bytes: it looks at `content` only, and moves
    the records about. -/
theorem drain_map (done : List α) :
    drain net content (t.map f) (done.map f)
      = (fun r => (r.1.map f, r.2.map f)) <$> drain net (content ∘ f) t done := by
  induction hn : t.outbox.records generalizing t done with
  | nil =>
    have hmap : (t.map f).outbox.records = [] := congrArg (List.map f) hn
    rw [drain_of_nil net hn, drain_of_nil net hmap, map_pure, List.map_reverse]
  | cons y rest ih =>
    have hmap : (t.map f).outbox.records = f y :: rest.map f := congrArg (List.map f) hn
    rw [drain_of_cons net hn, drain_of_cons net hmap, map_bind, sendRouted_map]
    refine bind_congr fun verdict => ?_
    cases verdict with
    | ok _ => exact ih (t.drained [y] rest) (y :: done) rfl
    | error e =>
      have hback := Outbox.putBack_map f { t.outbox with records := rest } y
      simp only [map_bind, map_pure, List.length_map, List.map_reverse]
      refine bind_congr fun _ => congrArg pure ?_
      exact Prod.ext (congrArg (fun q => { t.map f with outbox := q.1 }) hback) rfl

/-- `send` does with a record what it does with its bytes, by `drain_map` and `enqueue_map`. -/
theorem send_map (x : α) :
    send net content (t.map f) (f x) = Sending.map f <$> send net (content ∘ f) t x := by
  by_cases hsize : accepts (content ∘ f) t x
  · have hsize' : accepts content (t.map f) (f x) = true := hsize
    have hdrain : drain net content (t.map f) [] = _ := drain_map net f content t []
    rw [send_of_accepts net hsize, send_of_accepts net hsize', hdrain, map_bind, bind_map_left]
    refine bind_congr fun emptied => ?_
    rw [map_bind]
    refine bind_congr fun verdict => ?_
    cases verdict with
    | ok _ => rfl
    | error e =>
      have henqueue : ((emptied.1.map f).outbox.enqueue (f x) : Action σ _) = _ :=
        Outbox.enqueue_map f emptied.1.outbox x
      simp only [henqueue, bind_map_left, map_bind, map_pure]
      rfl
  · have hsize₁ : accepts (content ∘ f) t x = false := Bool.eq_false_iff.mpr hsize
    have hsize₂ : accepts content (t.map f) (f x) = false := hsize₁
    rw [send_of_not_accepts net hsize₁, send_of_not_accepts net hsize₂]
    rfl

/-- `sendAll` does with records what it does with their bytes: by induction on the records, with
    `send_map` for each. -/
theorem sendAll_map (xs : List α) :
    sendAll net content (t.map f) (xs.map f)
      = (fun r => (r.1.map f, r.2.map (Call.map f))) <$> sendAll net (content ∘ f) t xs := by
  induction xs generalizing t with
  | nil => rfl
  | cons x xs ih =>
    rw [List.map_cons, sendAll, sendAll, send_map, map_bind, bind_map_left]
    refine bind_congr fun sending => ?_
    have hrest : sendAll net content (sending.map f).transport (xs.map f) = _ :=
      ih sending.transport
    rw [hrest, map_bind, bind_map_left]
    rfl

/-- Records and their positions are sent like the records alone: `sendAll_map` with `Prod.fst`. -/
theorem sendAll_zipIdx (normalPath urgentPath : String) (attempts capacity maxSize : Nat)
    (records : List (List UInt8)) :
    sendAll net id (new normalPath urgentPath attempts capacity maxSize) records
      = (fun r => (r.1.map Prod.fst, r.2.map (Call.map Prod.fst))) <$>
          sendAll net Prod.fst (new normalPath urgentPath attempts capacity maxSize)
            records.zipIdx := by
  have hmap := sendAll_map net Prod.fst id
    (new normalPath urgentPath attempts capacity maxSize) records.zipIdx
  rwa [map_new, List.zipIdx_map_fst] at hmap

end Transport

end EventReporter
