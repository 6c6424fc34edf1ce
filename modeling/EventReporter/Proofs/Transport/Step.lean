import EventReporter.Proofs.Outbox
import EventReporter.Proofs.Transport.Arrival
namespace EventReporter.Transport

/-!
# What a sender can do

Whatever a network answers, a sender that is handed a record does one of three things: it refuses
the record; it sends some of the waiting records, oldest first, and then the new one; or it sends
some of the waiting records and lets the new one join those that still wait. All that is said of
histories follows from this.

* `step_send` : these are the things that a sender does.
* `run_sendAll` : a history is made of such steps.
* `withinCapacity_of_step` : each of them keeps the outbox within its capacity.
-/

variable {α σ : Type} {content : α → List UInt8} {t t' : Transport α} {x : α}

/-! ### Steps -/

/-- The sender after some records have left its outbox and others are left. -/
def drained (t : Transport α) (gone waiting : List α) : Transport α :=
  { t with
    outbox := { t.outbox with records := waiting }
    replayed := t.replayed + gone.length }

/-- The sender after a record has joined its outbox. -/
def joined (t : Transport α) (x : α) : Transport α :=
  { t with
    outbox := (t.outbox.push x).1
    failed := t.failed + 1 }

/-- What a sender can do with a record. -/
inductive Step (content : α → List UInt8) (t : Transport α) (x : α) : Sending α → Prop where
  /-- A record of a size that cannot be sent is refused, and nothing else happens. -/
  | refused (hsize : accepts content t x = false) (e : SendError) :
    Step content t x ⟨t, [], none, .error e⟩
  /-- Some records leave the outbox, and the new one is sent. -/
  | sent (hsize : accepts content t x = true) (gone waiting : List α)
    (hsplit : t.outbox.records = gone ++ waiting) :
    Step content t x ⟨{ t.drained gone waiting with sent := t.sent + 1 }, gone, none, .ok ()⟩
  /-- Some records leave the outbox, and the new one joins it. -/
  | kept (hsize : accepts content t x = true) (gone waiting : List α)
    (hsplit : t.outbox.records = gone ++ waiting) (e : SendError) :
    Step content t x
      ⟨(t.drained gone waiting).joined x, gone, ((t.drained gone waiting).outbox.push x).2,
        .error e⟩

/-- The outbox holds no more records than it may. -/
def WithinCapacity (t : Transport α) : Prop :=
  t.outbox.size ≤ t.outbox.capacity

/-- A new sender has nothing in its outbox. -/
theorem withinCapacity_new (normalPath urgentPath : String) (attempts capacity maxSize : Nat) :
    (new normalPath urgentPath attempts capacity maxSize : Transport α).WithinCapacity :=
  Nat.zero_le _

/-- A sender some of whose records have left is `WithinCapacity`. -/
theorem withinCapacity_drained (h : t.WithinCapacity) {gone waiting : List α}
    (hsplit : t.outbox.records = gone ++ waiting) : (t.drained gone waiting).WithinCapacity := by
  have hlength := congrArg List.length hsplit
  rw [List.length_append] at hlength
  unfold WithinCapacity Outbox.size at h ⊢
  simp only [drained]
  omega

/-- A sender that takes a record into its outbox is `WithinCapacity`, as `push` drops one if it
    must. -/
theorem withinCapacity_joined (h : t.WithinCapacity) (x : α) : (t.joined x).WithinCapacity := by
  show (t.outbox.push x).1.size ≤ (t.outbox.push x).1.capacity
  rw [Outbox.capacity_push]
  exact Outbox.size_push_le h x

/-- No step takes the outbox beyond its capacity. -/
theorem withinCapacity_of_step (h : t.WithinCapacity) {sending : Sending α}
    (hstep : Step content t x sending) : sending.transport.WithinCapacity := by
  cases hstep with
  | refused _ e => exact h
  | sent _ gone waiting hsplit => exact withinCapacity_drained h hsplit
  | kept _ gone waiting hsplit e => exact withinCapacity_joined (withinCapacity_drained h hsplit) x

/-! ### Emptying the outbox -/

/-- `drain` ends with the outbox. -/
theorem drain_of_nil (net : Network σ) (h : t.outbox.records = []) (done : List α) :
    drain net content t done = pure (t, done.reverse) := by
  have hpop := Outbox.pop?_of_nil h
  unfold drain
  split
  · rfl
  · next hsome =>
    rw [hpop] at hsome
    cases hsome

/-- `drain` goes on with the records that are left, or puts the one that failed back and ends. -/
theorem drain_of_cons (net : Network σ) {rest : List α} (h : t.outbox.records = x :: rest)
    (done : List α) :
    drain net content t done = (do
      match ← sendRouted net t (content x) with
      | .ok () => drain net content (t.drained [x] rest) (x :: done)
      | .error e =>
        note (keptEntry e (rest.length + 1))
        pure ({ t with outbox := ({ t.outbox with records := rest }.putBack x).1 },
          done.reverse)) := by
  have hpop := Outbox.pop?_of_cons h
  rw [drain]
  split
  · next hnone =>
    rw [hpop] at hnone
    cases hnone
  · next y outbox hsome =>
    rw [hpop] at hsome
    cases hsome
    rfl

/-- A sender none of whose records has left stays as it is. -/
theorem drained_nil {waiting : List α} (h : t.outbox.records = waiting) :
    t.drained [] waiting = t := by
  subst h
  rfl

/-- Records that leave one after the other leave together. -/
theorem drained_drained (t : Transport α) (gone₁ gone₂ waiting₁ waiting₂ : List α) :
    (t.drained gone₁ waiting₁).drained gone₂ waiting₂ = t.drained (gone₁ ++ gone₂) waiting₂ := by
  unfold drained
  rw [List.length_append, Nat.add_assoc]

/-- `drain` empties the outbox from its front, and what leaves it arrives. The loop ends at the
    first record that fails, which is back in its place then. -/
theorem run_drain (net : Network σ) (content : α → List UInt8) (h : t.WithinCapacity)
    (done : List α) (s : Scene σ) :
    ∃ gone waiting, t.outbox.records = gone ++ waiting ∧
      ((drain net content t done).run s).1 = (t.drained gone waiting, done.reverse ++ gone) ∧
      ∀ arrived, net.Records arrived →
        arrived ((drain net content t done).run s).2.world
          = arrived s.world ++ gone.map (t.datagram content) := by
  -- on the records that wait
  induction hn : t.outbox.records generalizing t done s with
  | nil =>
    -- nothing leaves an empty outbox
    refine ⟨[], [], rfl, ?_, ?_⟩
    · rw [drain_of_nil net hn, drained_nil hn, List.append_nil]
      rfl
    · rw [drain_of_nil net hn]
      exact fun arrived _ => (List.append_nil _).symm
  | cons y rest ih =>
    have harrives := fun arrived (hnet : net.Records arrived) =>
      arrives_sendRouted hnet t content y s
    rw [drain_of_cons net hn, run_bind]
    generalize (sendRouted net t (content y)).run s = attempt at harrives ⊢
    obtain ⟨verdict, s₁⟩ := attempt
    cases verdict with
    | ok _ =>
      -- the record leaves the outbox ahead of those that the rest of the loop sends
      have hwithin : (t.drained [y] rest).WithinCapacity := withinCapacity_drained h hn
      obtain ⟨gone, waiting, hsplit, hrun, harrived⟩ := ih hwithin (y :: done) s₁ rfl
      have hsplit' : rest = gone ++ waiting := hsplit
      refine ⟨y :: gone, waiting, congrArg (y :: ·) hsplit', ?_, ?_⟩
      · rw [drained_drained, List.reverse_cons, List.append_assoc] at hrun
        exact hrun
      · intro arrived hnet
        refine (harrived arrived hnet).trans ?_
        rw [show arrived s₁.world = _ from harrives arrived hnet, List.append_assoc]
        rfl
    | error e =>
      -- the record goes back, and nothing has changed
      refine ⟨[], y :: rest, rfl, ?_, ?_⟩
      · rw [drained_nil hn, Outbox.putBack_of_cons h hn, List.append_nil]
        rfl
      · exact harrives

/-! ### Sending a record -/

/-- Why a record of a size that cannot be sent is refused. -/
def refusal (size maxSize : Nat) : SendError :=
  if size = 0 then .empty else .overSize size maxSize

/-- `send` refuses a record of a wrong size with no network, and changes nothing. -/
theorem send_of_not_accepts (net : Network σ) (h : accepts content t x = false) :
    send net content t x
      = pure ⟨t, [], none, .error (refusal (content x).length t.maxSize)⟩ := by
  have hsize := of_decide_eq_false h
  unfold send refusal
  by_cases hempty : (content x).length = 0
  · rw [if_pos hempty, if_pos hempty]
  · have hmany : t.maxSize < (content x).length := by omega
    rw [if_neg hempty, if_pos hmany, if_neg hempty]

/-- `send` of a record of a size that can be sent: it goes out behind those that wait, or joins
    them. -/
theorem send_of_accepts (net : Network σ) (h : accepts content t x = true) :
    send net content t x = (do
      let (t, replayed) ← drain net content t []
      match ← sendRouted net t (content x) with
      | .ok () => pure ⟨{ t with sent := t.sent + 1 }, replayed, none, .ok ()⟩
      | .error e =>
        let (outbox, dropped) ← t.outbox.enqueue x
        pure ⟨{ t with outbox, failed := t.failed + 1 }, replayed, dropped, .error e⟩) := by
  obtain ⟨hsome, hfits⟩ := of_decide_eq_true h
  unfold send
  exact (if_neg (Nat.ne_of_gt hsome)).trans (if_neg (Nat.not_lt.mpr hfits))

/-- `enqueue` is `push`, and an entry about a full outbox. -/
theorem run_enqueue (q : Outbox α) (x : α) (s : Scene σ) :
    ∃ journal, (q.enqueue x).run s = (q.push x, { s with journal }) := by
  unfold Outbox.enqueue
  split
  · exact ⟨_, rfl⟩
  · exact ⟨_, rfl⟩

/-- What `send` does is one `Step`, and what it says has been sent arrives: `run_drain` for the
    records that waited, and one more attempt for the new one. -/
theorem step_send (net : Network σ) (content : α → List UInt8) (h : t.WithinCapacity) (x : α)
    (s : Scene σ) :
    Step content t x ((send net content t x).run s).1 ∧
      ∀ arrived, net.Records arrived →
        arrived ((send net content t x).run s).2.world
          = arrived s.world ++ (Call.mk x ((send net content t x).run s).1).delivered.map
              (t.datagram content) := by
  by_cases hsize : accepts content t x
  · obtain ⟨gone, waiting, hsplit, hrun, harrived⟩ := run_drain net content h [] s
    rw [send_of_accepts net hsize, run_bind]
    generalize (drain net content t []).run s = emptied at hrun harrived ⊢
    obtain ⟨_, s₁⟩ := emptied
    obtain rfl : _ = (t.drained gone waiting, [].reverse ++ gone) := hrun
    have harrives := fun arrived (hnet : net.Records arrived) =>
      arrives_sendRouted hnet (t.drained gone waiting) content x s₁
    simp only [run_bind]
    generalize (sendRouted net (t.drained gone waiting) (content x)).run s₁ = attempt
      at harrives ⊢
    obtain ⟨verdict, s₂⟩ := attempt
    cases verdict with
    | ok _ =>
      refine ⟨.sent hsize gone waiting hsplit, fun arrived hnet => ?_⟩
      -- the records that waited arrive first, then the new one
      calc arrived s₂.world
          = arrived s₁.world ++ [t.datagram content x] := harrives arrived hnet
        _ = arrived s.world ++ (gone.map (t.datagram content) ++ [t.datagram content x]) := by
            rw [harrived arrived hnet, List.append_assoc]
        _ = arrived s.world ++ (gone ++ [x]).map (t.datagram content) := by
            rw [List.map_append, List.map_singleton]
    | error e =>
      obtain ⟨journal, henqueue⟩ := run_enqueue (t.drained gone waiting).outbox x s₂
      simp only [run_bind, henqueue]
      refine ⟨.kept hsize gone waiting hsplit e, fun arrived hnet => ?_⟩
      -- the new record does not arrive
      show arrived s₂.world = arrived s.world ++ (gone ++ []).map (t.datagram content)
      have hnothing : arrived s₂.world = arrived s₁.world :=
        (harrives arrived hnet).trans (List.append_nil _)
      rw [hnothing, List.append_nil]
      exact harrived arrived hnet
  · rw [Bool.not_eq_true] at hsize
    rw [send_of_not_accepts net hsize]
    -- a refused record arrives nowhere
    exact ⟨.refused hsize _, fun arrived _ => (List.append_nil _).symm⟩

/-! ### Sending records in order -/

/-- A sender that is handed records in order, with what it does with each of them. -/
inductive Run (content : α → List UInt8) :
    Transport α → List α → List (Call α) → Transport α → Prop where
  | nil (t : Transport α) : Run content t [] [] t
  | cons {t last : Transport α} {x : α} {xs : List α} {sending : Sending α}
    {calls : List (Call α)} (hstep : Step content t x sending)
    (hrest : Run content sending.transport xs calls last) :
    Run content t (x :: xs) (⟨x, sending⟩ :: calls) last

/-- A step leaves the sockets and the contents of records as they are. -/
theorem datagram_of_step {sending : Sending α} (h : Step content t x sending) :
    sending.transport.datagram content = t.datagram content := by
  cases h <;> rfl

/-- A step leaves the size of records as it is. -/
theorem maxSize_of_step {sending : Sending α} (h : Step content t x sending) :
    sending.transport.maxSize = t.maxSize := by
  cases h <;> rfl

/-- `accepts` looks at the size of the record and at `maxSize`. -/
theorem accepts_congr (h : t'.maxSize = t.maxSize) : accepts content t' = accepts content t := by
  unfold accepts
  rw [h]

/-- A step leaves the capacity as it is. -/
theorem capacity_of_step {sending : Sending α} (h : Step content t x sending) :
    sending.transport.outbox.capacity = t.outbox.capacity := by
  cases h with
  | refused _ e => rfl
  | sent _ gone waiting _ => rfl
  | kept _ gone waiting _ e => exact Outbox.capacity_push _ x

namespace Run

variable {xs : List α} {calls : List (Call α)}

/-- A `Run` has one call for each record. -/
theorem map_record (h : Run content t xs calls t') : calls.map Call.record = xs := by
  induction h with
  | nil t => rfl
  | cons hstep _ ih => exact congrArg (_ :: ·) ih

/-- A `Run` leaves the size of records as it is, by `maxSize_of_step`. -/
theorem maxSize_eq (h : Run content t xs calls t') : t'.maxSize = t.maxSize := by
  induction h with
  | nil t => rfl
  | cons hstep _ ih => exact ih.trans (maxSize_of_step hstep)

/-- A `Run` leaves the capacity as it is, by `capacity_of_step`. -/
theorem capacity_eq (h : Run content t xs calls t') :
    t'.outbox.capacity = t.outbox.capacity := by
  induction h with
  | nil t => rfl
  | cons hstep _ ih => exact ih.trans (capacity_of_step hstep)

end Run

/-- What `sendAll` does with records in order is a `Run` of steps, and what it says has been sent
    arrives in that order: by induction on the records, with `step_send` for each. -/
theorem run_sendAll (net : Network σ) (content : α → List UInt8) (h : t.WithinCapacity)
    (xs : List α) (s : Scene σ) :
    Run content t xs ((sendAll net content t xs).run s).1.2
        ((sendAll net content t xs).run s).1.1 ∧
      ∀ arrived, net.Records arrived →
        arrived ((sendAll net content t xs).run s).2.world
          = arrived s.world ++ (delivered ((sendAll net content t xs).run s).1.2).map
              (t.datagram content) := by
  induction xs generalizing t s with
  | nil => exact ⟨.nil t, fun arrived _ => (List.append_nil _).symm⟩
  | cons x xs ih =>
    obtain ⟨hstep, harrives⟩ := step_send net content h x s
    rw [sendAll, run_bind]
    generalize (send net content t x).run s = first at hstep harrives ⊢
    obtain ⟨sending, s₁⟩ := first
    obtain ⟨hrest, harrived⟩ := ih (withinCapacity_of_step h hstep) s₁
    simp only [run_bind]
    generalize (sendAll net content sending.transport xs).run s₁ = rest at hrest harrived ⊢
    obtain ⟨⟨last, calls⟩, s₂⟩ := rest
    refine ⟨.cons hstep hrest, fun arrived hnet => ?_⟩
    rw [datagram_of_step hstep] at harrived
    calc arrived s₂.world
        = arrived s₁.world ++ (delivered calls).map (t.datagram content) := harrived arrived hnet
      _ = arrived s.world ++ ((Call.mk x sending).delivered ++ delivered calls).map
            (t.datagram content) := by
          rw [harrives arrived hnet, List.map_append, List.append_assoc]

end EventReporter.Transport
