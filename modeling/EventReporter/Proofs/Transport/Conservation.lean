import EventReporter.Proofs.Transport.Occurrence
import Mathlib.Data.List.Sigma
namespace EventReporter.Transport

/-!
# No record is lost or sent twice

Every record that a sender has accepted is in exactly one of four places: it was sent at once, it
was sent later, it waits, or it was dropped, and the sender's counters say how many there are of
each. This holds of a new sender and is preserved by each of its steps, whatever the network
answers.

* `accounted_of_step` : a step keeps account of every record.
* `accounted_run` : so does a history.
* `conservation` : the account of a new sender.
-/

variable {α σ : Type} {content : α → List UInt8} {t t' : Transport α} {x : α}
  {calls calls' : List (Call α)} {sending : Sending α}

/-! ### Histories that go on -/

/-- `direct`, of two histories one after the other. -/
theorem direct_append (calls calls' : List (Call α)) :
    direct (calls ++ calls') = direct calls ++ direct calls' := by
  rw [direct, direct, direct, List.filter_append, List.map_append]

/-- `replays`, of two histories one after the other. -/
theorem replays_append (calls calls' : List (Call α)) :
    replays (calls ++ calls') = replays calls ++ replays calls' :=
  List.flatMap_append

/-- `drops`, of two histories one after the other. -/
theorem drops_append (calls calls' : List (Call α)) :
    drops (calls ++ calls') = drops calls ++ drops calls' :=
  List.filterMap_append

/-- `delivered`, of two histories one after the other. -/
theorem delivered_append (calls calls' : List (Call α)) :
    delivered (calls ++ calls') = delivered calls ++ delivered calls' :=
  List.flatMap_append

/-- `delivered`, of one call. -/
theorem delivered_singleton (c : Call α) : delivered [c] = c.delivered :=
  List.append_nil _

/-- `direct`, of one call: its record if it succeeded. -/
theorem direct_singleton (c : Call α) : direct [c] = if c.succeeded then [c.record] else [] := by
  unfold direct
  cases hc : c.succeeded <;> simp [hc]

/-- `replays`, of one call. -/
theorem replays_singleton (c : Call α) : replays [c] = c.sending.replayed :=
  List.append_nil _

/-- `drops`, of one call. -/
theorem drops_singleton (c : Call α) : drops [c] = c.sending.dropped.toList := by
  unfold drops
  cases hc : c.sending.dropped <;> simp [hc]

/-! ### The account -/

/-- The records that a sender has accepted. -/
def accepted (content : α → List UInt8) (t : Transport α) (calls : List (Call α)) : List α :=
  (calls.map Call.record).filter (accepts content t)

/-- A sender keeps account of the records that it was handed in some calls. -/
structure Accounted (content : α → List UInt8) (calls : List (Call α)) (t : Transport α) :
    Prop where
  /-- Every record that was accepted is in one of four places, and nothing else is. -/
  places : (direct calls ++ replays calls ++ t.outbox.records ++ drops calls).Perm
    (accepted content t calls)
  /-- Those that wait do so in the order in which they came. -/
  inOrder : t.outbox.records.Sublist (accepted content t calls)
  /-- A record that was sent from the outbox was handed over in an earlier call. -/
  later : ∀ c ∈ calls, ∀ y ∈ c.sending.replayed, [y, c.record].Sublist (calls.map Call.record)
  /-- The outbox is within its capacity. -/
  within : t.WithinCapacity
  /-- The records that were sent at once are counted. -/
  sent : t.sent = (direct calls).length
  /-- The records that were sent later are counted. -/
  replayed : t.replayed = (replays calls).length
  /-- The records that were dropped are counted. -/
  evicted : t.outbox.evicted = (drops calls).length
  /-- The records that were not sent at once are counted. -/
  failed : (accepted content t calls).length = t.sent + t.failed

namespace Accounted

/-- What was delivered had been `accepted`. -/
theorem mem_accepted_of_delivered (h : Accounted content calls t) {a : α}
    (ha : a ∈ delivered calls) : a ∈ accepted content t calls := by
  rw [(perm_delivered calls).mem_iff] at ha
  rw [← h.places.mem_iff, List.append_assoc]
  exact List.mem_append_left _ ha

/-- A record that was `accepted` has gone out, or waits, or was dropped. -/
theorem mem_places (h : Accounted content calls t) {a : α} (ha : a ∈ accepted content t calls) :
    a ∈ delivered calls ∨ a ∈ t.outbox.records ∨ a ∈ drops calls := by
  rw [← h.places.mem_iff, List.append_assoc] at ha
  rcases List.mem_append.mp ha with hsent | hrest
  · exact .inl ((perm_delivered calls).mem_iff.mpr hsent)
  · exact .inr (List.mem_append.mp hrest)

/-- As many records were `accepted` as are in the four places, by the counters of the sender. -/
theorem length_accepted (h : Accounted content calls t) :
    (accepted content t calls).length
      = t.sent + t.replayed + t.outbox.size + t.outbox.evicted := by
  have hlength := h.places.length_eq
  simp only [List.length_append] at hlength
  rw [h.sent, h.replayed, h.evicted, Outbox.size]
  omega

/-- Records that are told apart are in one of the four places only. -/
theorem nodup (h : Accounted content calls t) (hdistinct : (calls.map Call.record).Nodup) :
    (direct calls ++ replays calls ++ t.outbox.records ++ drops calls).Nodup :=
  h.places.nodup_iff.mpr (hdistinct.filter _)

/-- `nodup`, with the records that went out in the order in which they did. -/
theorem nodup_delivered (h : Accounted content calls t)
    (hdistinct : (calls.map Call.record).Nodup) :
    (delivered calls ++ (t.outbox.records ++ drops calls)).Nodup := by
  rw [← List.append_assoc]
  have hperm := ((perm_delivered calls).append_right t.outbox.records).append_right (drops calls)
  exact hperm.nodup_iff.mpr (h.nodup hdistinct)

/-- A record that leaves the outbox and is `putBack` makes no other one leave: there is the room
    that it left. -/
theorem putBack (h : Accounted content calls t) {gone waiting : List α}
    (hrecords : t.outbox.records = gone ++ x :: waiting) :
    { t.outbox with records := waiting }.putBack x
      = ({ t.outbox with records := x :: waiting }, none) :=
  Outbox.putBack_of_cons (q := { t.outbox with records := x :: waiting })
    (withinCapacity_drained h.within hrecords) rfl

end Accounted

/-- A new sender is `Accounted` for, with nothing in any place. -/
theorem accounted_new (content : α → List UInt8) (normalPath urgentPath : String)
    (attempts capacity maxSize : Nat) :
    Accounted content [] (new normalPath urgentPath attempts capacity maxSize) where
  places := List.Perm.refl _
  inOrder := List.Sublist.refl _
  later := fun _ hc => absurd hc List.not_mem_nil
  within := withinCapacity_new ..
  sent := rfl
  replayed := rfl
  evicted := rfl
  failed := rfl

/-! ### Steps keep account -/

/-- A step adds its record to those `accepted`, if it is of a size that can be sent. -/
theorem accepted_of_step (h : Step content t x sending) (calls : List (Call α)) :
    accepted content sending.transport (calls ++ [Call.mk x sending])
      = accepted content t calls ++ if accepts content t x then [x] else [] := by
  unfold accepted
  rw [accepts_congr (maxSize_of_step h), List.map_append, List.filter_append]
  cases hsize : accepts content t x <;> simp [hsize]

/-- The records that leave the outbox in a step were at its front. -/
theorem exists_waiting_of_step (h : Step content t x sending) :
    ∃ waiting, t.outbox.records = sending.replayed ++ waiting := by
  cases h with
  | refused _ e => exact ⟨t.outbox.records, rfl⟩
  | sent _ gone waiting hsplit => exact ⟨waiting, hsplit⟩
  | kept _ gone waiting hsplit e => exact ⟨waiting, hsplit⟩

/-- A step takes every record from one place to another. The `Step` says which: counted one by
    one, each record is where it was, and the new one in one more place. -/
theorem places_of_step (h : Accounted content calls t) (hstep : Step content t x sending) :
    (direct (calls ++ [Call.mk x sending]) ++ replays (calls ++ [Call.mk x sending])
        ++ sending.transport.outbox.records ++ drops (calls ++ [Call.mk x sending])).Perm
      (accepted content sending.transport (calls ++ [Call.mk x sending])) := by
  classical
  have hbefore := h.places
  rw [accepted_of_step hstep, direct_append, replays_append, drops_append, direct_singleton,
    replays_singleton, drops_singleton]
  -- each record is in as many places as before, but for the new one
  rw [List.perm_iff_count] at hbefore ⊢
  intro y
  have hcount := hbefore y
  cases hstep with
  | refused hsize e =>
    simp only [Call.succeeded_error, hsize, List.append_nil, Option.toList_none,
      Bool.false_eq_true, if_false]
    exact hcount
  | sent hsize gone waiting hsplit =>
    rw [hsplit] at hcount
    simp only [Call.succeeded_ok, hsize, Option.toList_none, if_true, List.count_append, drained,
      List.append_nil] at hcount ⊢
    omega
  | kept hsize gone waiting hsplit e =>
    have hpush := (Outbox.perm_push (t.drained gone waiting).outbox x).count_eq y
    rw [hsplit] at hcount
    simp only [Call.succeeded_error, hsize, Bool.false_eq_true, if_false, if_true,
      List.count_append, List.append_nil, drained, joined] at hcount hpush ⊢
    omega

/-- The records that are left were in the outbox, in this order. -/
theorem waiting_sublist {gone waiting : List α} (hsplit : t.outbox.records = gone ++ waiting) :
    waiting.Sublist t.outbox.records := by
  rw [hsplit]
  exact List.sublist_append_right gone waiting

/-- A step leaves the outbox in the order in which its records came. -/
theorem inOrder_of_step (h : Accounted content calls t) (hstep : Step content t x sending) :
    sending.transport.outbox.records.Sublist
      (accepted content sending.transport (calls ++ [Call.mk x sending])) := by
  have hbefore := h.inOrder
  rw [accepted_of_step hstep]
  cases hstep with
  | refused hsize e => exact hbefore.trans (List.sublist_append_left _ _)
  | sent hsize gone waiting hsplit =>
    exact ((waiting_sublist hsplit).trans hbefore).trans (List.sublist_append_left _ _)
  | kept hsize gone waiting hsplit e =>
    have hpush := Outbox.sublist_push (t.drained gone waiting).outbox x
    -- those that still wait are in the order of before
    have hwaiting : waiting.Sublist (accepted content t calls) :=
      (waiting_sublist hsplit).trans hbefore
    -- the new record is behind all that were accepted before
    rw [if_pos hsize]
    exact hpush.trans (hwaiting.append (List.Sublist.refl [x]))

/-- A record that leaves the outbox in a step was handed over before the record of that step. -/
theorem later_of_step (h : Accounted content calls t) (hstep : Step content t x sending) :
    ∀ c ∈ calls ++ [Call.mk x sending], ∀ y ∈ c.sending.replayed,
      [y, c.record].Sublist ((calls ++ [Call.mk x sending]).map Call.record) := by
  intro c hc y hy
  rw [List.map_append]
  rcases List.mem_append.mp hc with hold | hnew
  · exact (h.later c hold y hy).trans (List.sublist_append_left _ _)
  · obtain rfl := List.mem_singleton.mp hnew
    obtain ⟨waiting, hsplit⟩ := exists_waiting_of_step hstep
    have hwaited : y ∈ t.outbox.records := by
      rw [hsplit]
      exact List.mem_append_left waiting hy
    -- what waits was handed over in one of the calls before
    have hrecord : y ∈ calls.map Call.record :=
      List.mem_of_mem_filter (h.inOrder.subset hwaited)
    exact (List.singleton_sublist.mpr hrecord).append (List.Sublist.refl [x])

/-- A step keeps account of the records that were handed over before, and of the new one: each
    field of `Accounted` by one of the lemmas above, or by a look at the counters in the three
    kinds of `Step`. -/
theorem accounted_of_step (h : Accounted content calls t) (hstep : Step content t x sending) :
    Accounted content (calls ++ [Call.mk x sending]) sending.transport where
  places := places_of_step h hstep
  inOrder := inOrder_of_step h hstep
  later := later_of_step h hstep
  within := withinCapacity_of_step h.within hstep
  sent := by
    rw [direct_append, direct_singleton, List.length_append, ← h.sent]
    cases hstep <;> rfl
  replayed := by
    rw [replays_append, replays_singleton, List.length_append, ← h.replayed]
    cases hstep <;> rfl
  evicted := by
    rw [drops_append, drops_singleton, List.length_append, ← h.evicted]
    cases hstep with
    | refused _ e => rfl
    | sent _ gone waiting _ => rfl
    | kept _ gone waiting _ e => exact Outbox.evicted_push _ x
  failed := by
    rw [accepted_of_step hstep, List.length_append, h.failed]
    cases hstep with
    | refused hsize e => simp [hsize]
    | sent hsize gone waiting _ => simp [hsize, drained]; omega
    | kept hsize gone waiting _ e => simp [hsize, drained, joined]; omega

/-! ### Histories keep account -/

/-- A `Run` keeps account of all records, those of earlier histories included: by induction on the
    steps, with `accounted_of_step` for each. -/
theorem accounted_run {xs : List α} (h : Accounted content calls t)
    (hrun : Run content t xs calls' t') : Accounted content (calls ++ calls') t' := by
  -- on the run, with the calls before it in hand
  induction hrun generalizing calls with
  | nil t =>
    rw [List.append_nil]
    exact h
  | @cons _ _ x _ sending calls'' hstep _ ih =>
    have hnext := ih (accounted_of_step h hstep)
    rwa [List.append_assoc] at hnext

/-- A new sender that is handed records, each together with its position, does with them what it
    does with the records alone, and keeps account of every one of them. A waiting record that
    is put back makes no other one go. A record of a size that cannot be sent has no effect at
    all. What the network tells to have arrived is what the sender takes for sent. The records
    are any that there are, so all of this is true after each of them. -/
theorem conservation (net : Network σ) (normalPath urgentPath : String)
    (attempts capacity maxSize : Nat) (records : List (List UInt8)) (s : Scene σ) :
    let start : Transport (List UInt8 × Nat) := new normalPath urgentPath attempts capacity maxSize
    let run := (sendAll net Prod.fst start records.zipIdx).run s
    let t := run.1.1
    let calls := run.1.2
    (sendAll net id (new normalPath urgentPath attempts capacity maxSize) records).run s
        = ((t.map Prod.fst, calls.map (Call.map Prod.fst)), run.2) ∧
      calls.map Call.record = records.zipIdx ∧
      accepted Prod.fst t calls = records.zipIdx.filter (accepts Prod.fst start) ∧
      Accounted Prod.fst calls t ∧
      (direct calls ++ replays calls ++ t.outbox.records ++ drops calls).Nodup ∧
      (accepted Prod.fst t calls).length
        = t.sent + t.replayed + t.outbox.size + t.outbox.evicted ∧
      t.outbox.size ≤ capacity ∧
      (∀ gone x waiting, t.outbox.records = gone ++ x :: waiting →
        { t.outbox with records := waiting }.putBack x
          = ({ t.outbox with records := x :: waiting }, none)) ∧
      (∀ x, accepts Prod.fst start x = false →
        send net Prod.fst t x = pure ⟨t, [], none, .error (refusal x.1.length maxSize)⟩) ∧
      ∀ arrived, net.Records arrived →
        arrived run.2.world
          = arrived s.world ++ (delivered calls).map (start.datagram Prod.fst) := by
  intro start run t calls
  obtain ⟨hrun, harrived⟩ :=
    run_sendAll net Prod.fst (t := start) (withinCapacity_new ..) records.zipIdx s
  have haccounted : Accounted Prod.fst calls t := accounted_run (accounted_new ..) hrun
  have hrecords : calls.map Call.record = records.zipIdx := hrun.map_record
  have hdistinct : records.zipIdx.Nodup := (List.nodup_zipIdx_map_snd records).of_map
  have hmaxSize : t.maxSize = maxSize := hrun.maxSize_eq
  have haccepts : accepts Prod.fst t = accepts Prod.fst start := accepts_congr hmaxSize
  refine ⟨?_, hrecords, ?_, haccounted, ?_, haccounted.length_accepted, ?_, ?_, ?_, harrived⟩
  · rw [sendAll_zipIdx]
    rfl
  · rw [accepted, hrecords, haccepts]
  · exact haccounted.nodup (hrecords ▸ hdistinct)
  · have hcapacity : t.outbox.capacity = capacity := hrun.capacity_eq
    have hwithin := haccounted.within
    rwa [WithinCapacity, hcapacity] at hwithin
  · intro gone x waiting hsplit
    exact haccounted.putBack hsplit
  · intro x hx
    have hrefused := send_of_not_accepts net (t := t) (haccepts ▸ hx)
    rwa [hmaxSize] at hrefused


/-- A scene in which nothing gets through for four datagrams. -/
def away : Scene (List (Except Fault Unit) × List Datagram) :=
  ⟨(List.replicate 4 (.error .notFound) ++ [.ok (), .ok ()], []), #[]⟩

/-- Five records, of which the third looks like the first and the fourth is empty. The outbox has
    room for one. -/
theorem conservation_away :
    let start : Transport (List UInt8 × Nat) := new "normal" "fast" 1 1 2
    let run := (sendAll scripted Prod.fst start [[1], [2], [1], [], [3]].zipIdx).run away
    scripted.Records Prod.snd ∧
      Prod.snd run.2.world
        = Prod.snd away.world ++ (delivered run.1.2).map (start.datagram Prod.fst) ∧
      direct run.1.2 = [([1], 2)] ∧ replays run.1.2 = [([2], 1)] ∧
      run.1.1.outbox.records = [([3], 4)] ∧ drops run.1.2 = [([1], 0)] := by
  obtain ⟨_, _, _, _, _, _, _, _, _, harrived⟩ :=
    conservation scripted "normal" "fast" 1 1 2 [[1], [2], [1], [], [3]] away
  have hplaces := harrived Prod.snd records_scripted
  exact ⟨records_scripted, hplaces, by decide +kernel⟩

end EventReporter.Transport
