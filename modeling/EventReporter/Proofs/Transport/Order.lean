import EventReporter.Library
import EventReporter.Proofs.Transport.Conservation
namespace EventReporter

/-!
# The order in which records are sent

A sender empties its outbox up to the first record that cannot be sent, and then sends the new
record in any case. A record that still waits is overtaken if that succeeds. In a history without
duplicates two records that are both sent are sent in the order in which they were handed over
exactly if the later one did not overtake the earlier one.

* `overtaken_of_step` : what becomes of a record that is overtaken.
* `pair_delivered` : when two records go out in order.
* `ordered_iff` : the histories in which the records of each socket are sent in order.
* `scripted_overtakes` : there are others.
-/

namespace Transport

variable {α σ : Type} {content : α → List UInt8} {t t' : Transport α} {a b x : α}
  {calls calls' : List (Call α)} {sending : Sending α}

/-! ### Records that are overtaken -/

/-- The record `b` is sent at once while `a` waits. -/
def Overtakes (calls : List (Call α)) (b a : α) : Prop :=
  ∃ c ∈ calls, c.record = b ∧ c.succeeded ∧ a ∈ c.sending.transport.outbox.records

/-- A record that `Overtakes` another one has gone out. -/
theorem mem_delivered_of_overtakes (h : Overtakes calls b a) : b ∈ delivered calls := by
  obtain ⟨c, hc, rfl, hsucceeded, _⟩ := h
  refine List.mem_flatMap.mpr ⟨c, hc, ?_⟩
  unfold Call.delivered
  rw [if_pos hsucceeded]
  exact List.mem_append_right _ List.mem_cons_self

/-- A record overtakes another one in the first calls or in those after them. -/
theorem overtakes_append :
    Overtakes (calls ++ calls') b a ↔ Overtakes calls b a ∨ Overtakes calls' b a := by
  unfold Overtakes
  simp only [List.mem_append, or_and_right, exists_or]

/-- What is true of the order in which records have been sent. -/
structure Ordered (content : α → List UInt8) (calls : List (Call α)) (t : Transport α) :
    Prop where
  /-- A record that is overtaken was handed over before the one that overtakes it. -/
  earlier : ∀ a b, Overtakes calls b a → [a, b].Sublist (calls.map Call.record)
  /-- It goes on to wait until it is dropped or sent. -/
  overtaken : ∀ a b, Overtakes calls b a →
    a ∈ t.outbox.records ∨ a ∈ drops calls ∨ [b, a].Sublist (delivered calls)
  /-- A record that is not overtaken is sent first, unless it is dropped. -/
  sentFirst : ∀ a b, [a, b].Sublist (accepted content t calls) → b ∈ delivered calls →
    ¬ Overtakes calls b a → a ∈ drops calls ∨ [a, b].Sublist (delivered calls)

/-- A new sender is `Ordered`, with no calls to speak of. -/
theorem ordered_new (content : α → List UInt8) (normalPath urgentPath : String)
    (attempts capacity maxSize : Nat) :
    Ordered content [] (new normalPath urgentPath attempts capacity maxSize) where
  earlier := fun _ _ ⟨_, hc, _⟩ => absurd hc List.not_mem_nil
  overtaken := fun _ _ ⟨_, hc, _⟩ => absurd hc List.not_mem_nil
  sentFirst := fun _ _ _ hb _ => absurd hb List.not_mem_nil

/-! ### Steps and the order -/

/-- A record that waited has been sent by a step, or waits, or was dropped. -/
theorem stays_of_step (h : Step content t x sending) (ha : a ∈ t.outbox.records) :
    a ∈ sending.replayed ∨ a ∈ sending.transport.outbox.records ∨ a ∈ sending.dropped := by
  cases h with
  | refused _ e => exact .inr (.inl ha)
  | sent _ gone waiting hsplit =>
    rw [hsplit, List.mem_append] at ha
    exact ha.imp_right .inl
  | kept _ gone waiting hsplit e =>
    rw [hsplit, List.mem_append] at ha
    refine ha.imp_right fun hwaiting => ?_
    have hpush := (Outbox.perm_push (t.drained gone waiting).outbox x).mem_iff (a := a)
    rw [List.mem_append, List.mem_append, Option.mem_toList] at hpush
    exact hpush.mpr (.inl hwaiting)

/-- No record joins the outbox in a step that sends its own. -/
theorem waited_of_step (h : Step content t x sending) (hsucceeded : (Call.mk x sending).succeeded)
    (ha : a ∈ sending.transport.outbox.records) : a ∈ t.outbox.records := by
  cases h with
  | refused _ e => cases hsucceeded
  | sent _ gone waiting hsplit =>
    rw [hsplit]
    exact List.mem_append_right gone ha
  | kept _ gone waiting hsplit e => cases hsucceeded

/-- A record that overtakes another one in a step is the one that is handed over. -/
theorem overtakes_singleton :
    Overtakes [Call.mk x sending] b a ↔
      x = b ∧ (Call.mk x sending).succeeded ∧ a ∈ sending.transport.outbox.records := by
  unfold Overtakes
  simp

/-- What is overtaken in a step was in the outbox before, by `waited_of_step`, and so had been
    handed over. -/
theorem earlier_of_step (h : Accounted content calls t) (ho : Ordered content calls t)
    (hstep : Step content t x sending) (hover : Overtakes (calls ++ [Call.mk x sending]) b a) :
    [a, b].Sublist ((calls ++ [Call.mk x sending]).map Call.record) := by
  rw [List.map_append]
  rcases overtakes_append.mp hover with hold | hnew
  · exact (ho.earlier a b hold).trans (List.sublist_append_left _ _)
  · obtain ⟨rfl, hsucceeded, ha⟩ := overtakes_singleton.mp hnew
    have hwaited := waited_of_step hstep hsucceeded ha
    have hrecord : a ∈ calls.map Call.record :=
      List.mem_of_mem_filter (h.inOrder.subset hwaited)
    exact pair_sublist_append hrecord List.mem_cons_self

/-- What was overtaken goes on to wait, is dropped, or goes out behind what overtook it. -/
theorem overtaken_of_step (ho : Ordered content calls t) (hstep : Step content t x sending)
    (hover : Overtakes (calls ++ [Call.mk x sending]) b a) :
    a ∈ sending.transport.outbox.records ∨ a ∈ drops (calls ++ [Call.mk x sending]) ∨
      [b, a].Sublist (delivered (calls ++ [Call.mk x sending])) := by
  rw [drops_append, drops_singleton, delivered_append, List.mem_append, Option.mem_toList]
  rcases overtakes_append.mp hover with hold | hnew
  · -- it was overtaken before
    rcases ho.overtaken a b hold with hwaits | hdropped | hsent
    · rcases stays_of_step hstep hwaits with hreplayed | hwaits | hdropped
      · have ha : a ∈ delivered [Call.mk x sending] := by
          rw [delivered_singleton]
          exact List.mem_append_left _ hreplayed
        exact .inr (.inr (pair_sublist_append (mem_delivered_of_overtakes hold) ha))
      · exact .inl hwaits
      · exact .inr (.inl (.inr hdropped))
    · exact .inr (.inl (.inl hdropped))
    · exact .inr (.inr (hsent.trans (List.sublist_append_left _ _)))
  · -- it is overtaken now, and so it waits
    exact .inl (overtakes_singleton.mp hnew).2.2

/-- A record that is sent was handed over after those that it does not overtake. Each of these has
    gone out, leaves the outbox in this step, or is dropped: the cases of `mem_places`. -/
theorem sentFirst_direct (h : Accounted content calls t) (hstep : Step content t x sending)
    (hsucceeded : (Call.mk x sending).succeeded) (ha : a ∈ accepted content t calls)
    (hnot : ¬ Overtakes [Call.mk x sending] x a) :
    a ∈ drops (calls ++ [Call.mk x sending]) ∨
      [a, x].Sublist (delivered (calls ++ [Call.mk x sending])) := by
  have hx : x ∈ delivered [Call.mk x sending] := by
    rw [delivered_singleton, Call.delivered, if_pos hsucceeded]
    exact List.mem_append_right _ List.mem_cons_self
  rw [drops_append, drops_singleton, delivered_append, List.mem_append, Option.mem_toList]
  rcases h.mem_places ha with hsent | hwaits | hdropped
  · exact .inr (pair_sublist_append hsent hx)
  · rcases stays_of_step hstep hwaits with hreplayed | hwaits | hdropped
    · refine .inr (List.Sublist.trans ?_ (List.sublist_append_right _ _))
      rw [delivered_singleton, Call.delivered, if_pos hsucceeded]
      exact pair_sublist_append hreplayed List.mem_cons_self
    · -- it would still wait while this one is sent, and so be overtaken
      exact absurd (overtakes_singleton.mpr ⟨rfl, hsucceeded, hwaits⟩) hnot
    · exact .inl (.inr hdropped)
  · exact .inl (.inl hdropped)

/-- Records leave the outbox in the order in which they were handed over. -/
theorem sentFirst_replayed (h : Accounted content calls t) (hstep : Step content t x sending)
    (hdistinct : (accepted content t calls).Nodup) (hab : [a, b].Sublist (accepted content t calls))
    (hb : b ∈ sending.replayed) :
    a ∈ drops calls ∨ [a, b].Sublist (delivered (calls ++ [Call.mk x sending])) := by
  obtain ⟨waiting, hsplit⟩ := exists_waiting_of_step hstep
  have hb' : b ∈ delivered [Call.mk x sending] := by
    rw [delivered_singleton]
    exact List.mem_append_left _ hb
  rw [delivered_append]
  rcases h.mem_places (hab.subset List.mem_cons_self) with hsent | hwaits | hdropped
  · exact .inr (pair_sublist_append hsent hb')
  · -- both were in the outbox, and what leaves it leaves at its front
    have hb'' : b ∈ t.outbox.records := by
      rw [hsplit]
      exact List.mem_append_left waiting hb
    have hqueue := pair_sublist_of_mem hdistinct hab h.inOrder hwaits hb''
    have hqueue' := hdistinct.sublist h.inOrder
    rw [hsplit] at hqueue hqueue'
    have hfront := pair_sublist_left hqueue' hqueue hb
    refine .inr (List.Sublist.trans ?_ (List.sublist_append_right _ _))
    rw [delivered_singleton]
    exact hfront.trans (List.sublist_append_left _ _)
  · exact .inl hdropped

/-- Of two records the one that was handed over first goes out first, unless it is dropped or
    overtaken: `sentFirst_direct` or `sentFirst_replayed`, if the later one goes out in this
    step. -/
theorem sentFirst_of_step (h : Accounted content calls t) (ho : Ordered content calls t)
    (hstep : Step content t x sending)
    (hdistinct : ((calls ++ [Call.mk x sending]).map Call.record).Nodup)
    (hab : [a, b].Sublist (accepted content sending.transport (calls ++ [Call.mk x sending])))
    (hb : b ∈ delivered (calls ++ [Call.mk x sending]))
    (hnot : ¬ Overtakes (calls ++ [Call.mk x sending]) b a) :
    a ∈ drops (calls ++ [Call.mk x sending]) ∨
      [a, b].Sublist (delivered (calls ++ [Call.mk x sending])) := by
  rw [overtakes_append, not_or] at hnot
  have hnodup : (accepted content sending.transport (calls ++ [Call.mk x sending])).Nodup :=
    hdistinct.filter _
  rw [accepted_of_step hstep] at hab hnodup
  have hbefore := (List.nodup_append.mp hnodup).1
  rw [delivered_append, List.mem_append] at hb
  rcases hb with hold | hnew
  · -- both were sent before
    have hab' := pair_sublist_left hnodup hab (h.mem_accepted_of_delivered hold)
    rw [drops_append, delivered_append]
    exact (ho.sentFirst a b hab' hold hnot.1).imp (List.mem_append_left _)
      (·.trans (List.sublist_append_left _ _))
  · rw [delivered_singleton, Call.delivered, List.mem_append] at hnew
    rcases hnew with hreplayed | hdirect
    · -- the later one leaves the outbox
      obtain ⟨waiting, hsplit⟩ := exists_waiting_of_step hstep
      have hwaited : b ∈ t.outbox.records := by
        rw [hsplit]
        exact List.mem_append_left waiting hreplayed
      have hab' := pair_sublist_left hnodup hab (h.inOrder.subset hwaited)
      rw [drops_append]
      exact (sentFirst_replayed h hstep hbefore hab' hreplayed).imp_left (List.mem_append_left _)
    · -- the later one is the new one
      split at hdirect
      · next hsucceeded =>
        obtain rfl := List.mem_singleton.mp hdirect
        have ha : a ∈ accepted content t calls := by
          rcases List.mem_append.mp (hab.subset List.mem_cons_self) with ha | ha
          · exact ha
          · -- it would be the same record
            split at ha
            · obtain rfl := List.mem_singleton.mp ha
              exact absurd hab (not_pair_sublist hnodup hab)
            · cases ha
        exact sentFirst_direct h hstep hsucceeded ha hnot.2
      · cases hdirect

/-- A step keeps what is true of the order. -/
theorem ordered_of_step (h : Accounted content calls t) (ho : Ordered content calls t)
    (hstep : Step content t x sending)
    (hdistinct : ((calls ++ [Call.mk x sending]).map Call.record).Nodup) :
    Ordered content (calls ++ [Call.mk x sending]) sending.transport where
  earlier := fun _ _ => earlier_of_step h ho hstep
  overtaken := fun _ _ => overtaken_of_step ho hstep
  sentFirst := fun _ _ => sentFirst_of_step h ho hstep hdistinct

/-! ### Histories and the order -/

/-- A `Run` without duplicates keeps what is true of the order: by induction on its steps, with
    `ordered_of_step` for each. -/
theorem ordered_run {xs : List α} (h : Accounted content calls t) (ho : Ordered content calls t)
    (hrun : Run content t xs calls' t') (hdistinct : (calls.map Call.record ++ xs).Nodup) :
    Ordered content (calls ++ calls') t' := by
  induction hrun generalizing calls with
  | nil t =>
    rw [List.append_nil]
    exact ho
  | @cons _ _ x xs sending calls'' hstep hrest ih =>
    have hxs : (calls ++ [Call.mk x sending]).map Call.record ++ xs
        = calls.map Call.record ++ x :: xs := by
      rw [List.map_append, List.append_assoc]
      rfl
    rw [← hxs] at hdistinct
    have hnext := ih (accounted_of_step h hstep)
      (ordered_of_step h ho hstep (List.nodup_append.mp hdistinct).1) hdistinct
    rwa [List.append_assoc] at hnext

/-- Two records that have both been sent went out in the order in which they were handed over
    exactly if the later one did not overtake the earlier one. -/
theorem pair_delivered (h : Accounted content calls t) (ho : Ordered content calls t)
    (hdistinct : (calls.map Call.record).Nodup) (hab : [a, b].Sublist (calls.map Call.record))
    (ha : a ∈ delivered calls) (hb : b ∈ delivered calls) :
    [a, b].Sublist (delivered calls) ↔ ¬ Overtakes calls b a := by
  obtain ⟨hnodup, _, hdisjoint⟩ := List.nodup_append.mp (h.nodup_delivered hdistinct)
  have ha' : a ∉ t.outbox.records ++ drops calls := fun hmem => hdisjoint a ha a hmem rfl
  rw [List.mem_append, not_or] at ha'
  constructor
  · intro hsent hover
    -- it has gone out, so it went out behind the one that overtook it
    rcases ho.overtaken a b hover with hwaits | hdropped | hlater
    · exact ha'.1 hwaits
    · exact ha'.2 hdropped
    · exact not_pair_sublist hnodup hsent hlater
  · intro hnot
    have hab' : [a, b].Sublist (accepted content t calls) :=
      pair_sublist_of_mem hdistinct hab List.filter_sublist
        (h.mem_accepted_of_delivered ha) (h.mem_accepted_of_delivered hb)
    exact (ho.sentFirst a b hab' hb hnot).resolve_left ha'.2

/-- The records of each socket are sent in the order in which they were handed over exactly if no
    record is sent at once while another one for the same socket waits and is sent later. What is
    sent arrives in that order. -/
theorem ordered_iff (net : Network σ) (normalPath urgentPath : String)
    (attempts capacity maxSize : Nat) (records : List (List UInt8)) (s : Scene σ) :
    let start : Transport (List UInt8 × Nat) := new normalPath urgentPath attempts capacity maxSize
    let run := (sendAll net Prod.fst start records.zipIdx).run s
    let calls := run.1.2
    (sendAll net id (new normalPath urgentPath attempts capacity maxSize) records).run s
        = ((run.1.1.map Prod.fst, calls.map (Call.map Prod.fst)), run.2) ∧
    ((∀ a b, [a, b].Sublist records.zipIdx → Route.taken a.1 = Route.taken b.1 →
        a ∈ delivered calls → b ∈ delivered calls → [a, b].Sublist (delivered calls)) ↔
      ∀ c ∈ calls, c.succeeded → ∀ a ∈ c.sending.transport.outbox.records,
        Route.taken a.1 = Route.taken c.record.1 → a ∉ delivered calls) ∧
    ∀ arrived, net.Records arrived →
      arrived run.2.world
        = arrived s.world ++ (delivered calls).map (start.datagram Prod.fst) := by
  intro start run calls
  obtain ⟨hrun, harrived⟩ :=
    run_sendAll net Prod.fst (t := start) (withinCapacity_new ..) records.zipIdx s
  have haccounted : Accounted Prod.fst calls run.1.1 := accounted_run (accounted_new ..) hrun
  have hrecords : calls.map Call.record = records.zipIdx := hrun.map_record
  have hdistinct : records.zipIdx.Nodup := (List.nodup_zipIdx_map_snd records).of_map
  have hordered : Ordered Prod.fst calls run.1.1 :=
    ordered_run (accounted_new ..) (ordered_new ..) hrun hdistinct
  rw [← hrecords] at hdistinct ⊢
  refine ⟨?_, ⟨?_, ?_⟩, harrived⟩
  · rw [sendAll_zipIdx]
    rfl
  · intro hall c hc hsucceeded a hwaits hroute ha
    have hover : Overtakes calls c.record a := ⟨c, hc, rfl, hsucceeded, hwaits⟩
    have hab := hordered.earlier _ _ hover
    have hb := mem_delivered_of_overtakes hover
    exact (pair_delivered haccounted hordered hdistinct hab ha hb).mp (hall _ _ hab hroute ha hb)
      hover
  · intro hnone a b hab hroute ha hb
    refine (pair_delivered haccounted hordered hdistinct hab ha hb).mpr ?_
    -- whatever overtakes is a call that succeeds while the other record waits
    rintro ⟨c, hc, rfl, hsucceeded, hwaits⟩
    exact hnone c hc hsucceeded a hwaits hroute ha

/-- A record that reports that nothing is drawn goes to the socket that is served first. -/
def urgentRecord : List UInt8 :=
  LittleEndian.intBytes Record.lengthSize 88 ++ (Header.new "GRAPHIC" "NO_DRAW" .fault).bytes ++
    LittleEndian.intBytes Record.countSize 0

/-- Both sockets are away while an urgent record and two others are handed over, but for the
    normal socket, which is back for the third. The second record still waits behind the urgent
    one at that time. It goes out with the fourth, after the third. -/
theorem scripted_overtakes :
    let start : Transport (List UInt8 × Nat) := new "normal" "fast" 1 10 393216
    let answers := List.replicate 4 (.error .notFound) ++ List.replicate 4 (.ok ())
    let records := [urgentRecord, [1], [2], [3]]
    let calls := ((sendAll scripted Prod.fst start records.zipIdx).run ⟨(answers, []), #[]⟩).1.2
    [([1], 1), ([2], 2)].Sublist records.zipIdx ∧ Route.taken [1] = Route.taken [2] ∧
      Route.taken urgentRecord ≠ Route.taken [1] ∧
      delivered calls = [([2], 2), (urgentRecord, 0), ([1], 1), ([3], 3)] ∧
      ¬ [([1], 1), ([2], 2)].Sublist (delivered calls) := by
  decide +kernel

end Transport

end EventReporter
