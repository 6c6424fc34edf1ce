import EventReporter.Proofs.Transport.Step
import EventReporter.Writer.History
namespace EventReporter.Writer

/-!
# What a writer can do

A write stops at a mask, at the limiter, at one of the names, or at a record that cannot be laid
out; else the record is handed to the sender, whose answer is the outcome. Of its parts it changes
no more than the limiter in the first cases, and nothing at all for a mask.

* `step_tryWrite` : these are the things that a writer does.
* `step_serve` : the status code tells the outcome.
* `Reachable.setUp` : what stays true of a writer.
-/

variable {σ : Type} {w w' : Writer} {q : Request}

/-! ### Steps -/

/-- The writer after its limiter was asked about a request. -/
def asked (w : Writer) (q : Request) : Writer :=
  { w with limiter := (w.verdict q).1 }

/-- The outcome for a record that was handed to the sender. -/
def handedOutcome (code : Int) : Except SendError Unit → Except WriteError Int
  | .ok () => .ok code
  | .error cause => .error (.unsent cause)

/-- What a writer can do with a request: the writer, the outcome and the world after it. -/
inductive Step (net : Network σ) (w : Writer) (q : Request) (world : σ) :
    Writer → Except WriteError Int → σ → Prop where
  /-- The domain is masked. -/
  | masked (hmask : w.isMasked q.event.domain = true) :
    Step net w q world w (.error (.masked q.event.domain)) world
  /-- The limiter does not admit the write. -/
  | suppressed (hmask : w.isMasked q.event.domain = false)
    (hlimit : (w.verdict q).2 = .suppressed) :
    Step net w q world (w.asked q) (.error (.tooFrequent q.event.domain q.event.name)) world
  /-- The domain is no name. -/
  | badDomain (hmask : w.isMasked q.event.domain = false) (hlimit : (w.verdict q).2 = .admitted)
    (hdomain : Text.isName Limits.domainBytes q.event.domain = false) :
    Step net w q world (w.asked q) (.error (.badDomain q.event.domain)) world
  /-- The event name is no name. -/
  | badName (hmask : w.isMasked q.event.domain = false) (hlimit : (w.verdict q).2 = .admitted)
    (hdomain : Text.isName Limits.domainBytes q.event.domain = true)
    (hname : Text.isName Limits.eventNameBytes q.event.name = false) :
    Step net w q world (w.asked q) (.error (.badName q.event.name)) world
  /-- There is no record. -/
  | unencodable (h : w.Admits q) {cause : WireError}
    (hrecord : q.record w.transport.maxSize = .error cause) :
    Step net w q world (w.asked q) (.error (.unencodable cause)) world
  /-- The record is handed to the sender. -/
  | handed (h : w.Admits q) {record : List UInt8}
    (hrecord : q.record w.transport.maxSize = .ok record) {s : Scene σ} (hworld : s.world = world) :
    Step net w q world
      { w.asked q with transport := ((w.transport.send net id record).run s).1.transport }
      (handedOutcome (q.draft w.transport.maxSize).code
        ((w.transport.send net id record).run s).1.result)
      ((w.transport.send net id record).run s).2.world

/-! ### What is said on the way -/

/-- To `note` several things changes nothing else. -/
theorem run_notes (notes : Array Journal.Entry) (s : Scene σ) :
    ∃ journal, (notes.forM note : Action σ Unit).run s = ((), { s with journal }) := by
  obtain ⟨entries⟩ := notes
  have hlist : (Array.forM note ⟨entries⟩ : Action σ Unit) = entries.forM note :=
    List.forM_toArray entries note
  rw [hlist]
  clear hlist
  induction entries generalizing s with
  | nil => exact ⟨s.journal, rfl⟩
  | cons e entries ih =>
    obtain ⟨journal, hrest⟩ := ih { s with journal := s.journal.push e }
    exact ⟨journal, hrest⟩

/-- `ask` is `check`, and an entry about what was suppressed. -/
theorem run_ask (l : Limiter) (quota : Option Quota) (domain event : String) (site : CallSite)
    (now : UInt64) (s : Scene σ) :
    ∃ journal, (l.ask quota domain event site now : Action σ _).run s
      = (l.check quota event site now, { s with journal }) := by
  unfold Limiter.ask
  simp only
  split
  · exact ⟨_, rfl⟩
  · exact ⟨_, rfl⟩

/-! ### The program's steps -/

/-- What `deliver` does with an admitted event. -/
theorem deliver_asked (net : Network σ) (w : Writer) (q : Request) :
    deliver net (w.asked q) q.surroundings q.event = (do
      (q.draft w.transport.maxSize).notes.forM note
      match q.record w.transport.maxSize with
      | .error cause => pure (w.asked q, .error (.unencodable cause))
      | .ok record =>
        let sending ← w.transport.send net id record
        let served := { w.asked q with transport := sending.transport }
        match sending.result with
        | .error cause => pure (served, .error (.unsent cause))
        | .ok () =>
          note (sentEntry q.event record.length
            (q.draft w.transport.maxSize).builder.entries.length)
          pure (served, .ok (q.draft w.transport.maxSize).code)) :=
  rfl

/-- What `deliver` does is a `Step`: there is no record, or there is one that the sender takes. -/
theorem step_deliver (net : Network σ) (h : w.Admits q) (s : Scene σ) :
    let run := (deliver net (w.asked q) q.surroundings q.event).run s
    Step net w q s.world run.1.1 run.1.2 run.2.world := by
  obtain ⟨journal, hnotes⟩ := run_notes (q.draft w.transport.maxSize).notes s
  simp only [deliver_asked, run_bind, hnotes]
  cases hrecord : q.record w.transport.maxSize with
  | error cause => exact .unencodable h hrecord
  | ok record =>
    have hstep : Step net w q s.world _ _ _ := .handed h hrecord (s := { s with journal }) rfl
    simp only [run_bind]
    generalize (w.transport.send net id record).run { s with journal } = sent at hstep ⊢
    obtain ⟨sending, s'⟩ := sent
    cases hresult : sending.result with
    | error cause =>
      rw [hresult] at hstep
      exact hstep
    | ok _ =>
      rw [hresult] at hstep
      exact hstep

/-- What `tryWrite` does is a `Step`. The four checks come one after the other, and the first that
    fails gives the case. -/
theorem step_tryWrite (net : Network σ) (w : Writer) (q : Request) (s : Scene σ) :
    let run := (w.tryWrite net q.surroundings q.quota q.site q.event).run s
    Step net w q s.world run.1.1 run.1.2 run.2.world := by
  by_cases hmask : w.isMasked q.event.domain = true
  · simp only [tryWrite_of_masked net q.surroundings q.quota q.site hmask]
    exact .masked hmask
  · obtain ⟨journal, hask⟩ := run_ask w.limiter q.quota q.event.domain q.event.name q.site
      q.surroundings.now s
    unfold tryWrite
    simp only [if_neg hmask, run_bind, hask]
    rw [Bool.not_eq_true] at hmask
    by_cases hlimit : (w.limiter.check q.quota q.event.name q.site q.surroundings.now).2
        = .suppressed
    · rw [if_pos hlimit]
      exact .suppressed hmask hlimit
    · have hadmitted : (w.verdict q).2 = .admitted := by
        cases hverdict : (w.verdict q).2 with
        | admitted => rfl
        | suppressed => exact absurd hverdict hlimit
      by_cases hdomain : Text.isName Limits.domainBytes q.event.domain = true
      · by_cases hname : Text.isName Limits.eventNameBytes q.event.name = true
        · rw [if_neg hlimit, if_neg (not_not_intro hdomain), if_neg (not_not_intro hname)]
          exact step_deliver net ⟨hmask, hadmitted, hdomain, hname⟩ { s with journal }
        · rw [if_neg hlimit, if_neg (not_not_intro hdomain), if_pos hname]
          exact .badName hmask hadmitted hdomain (Bool.not_eq_true _ ▸ hname)
      · rw [if_neg hlimit, if_pos hdomain]
        exact .badDomain hmask hadmitted (Bool.not_eq_true _ ▸ hdomain)

/-- The status code tells the outcome, and what is said about it changes nothing else. -/
theorem step_serve (net : Network σ) (w : Writer) (q : Request) (s : Scene σ) :
    let run := (w.serve net q).run s
    let outcome := ((w.tryWrite net q.surroundings q.quota q.site q.event).run s).1.2
    Step net w q s.world run.1.1 outcome run.2.world ∧ run.1.2 = outcomeCode outcome := by
  have hstep := step_tryWrite net w q s
  unfold serve write
  simp only [run_bind] at hstep ⊢
  generalize (w.tryWrite net q.surroundings q.quota q.site q.event).run s = tried at hstep ⊢
  obtain ⟨⟨served, outcome⟩, s'⟩ := tried
  simp only
  cases outcomeEntry? q.event outcome with
  | none => exact ⟨hstep, rfl⟩
  | some entry => exact ⟨hstep, rfl⟩

/-! ### What stays true of a writer -/

/-- A sender is as some settings say, and its outbox keeps to its capacity. -/
structure SetUp (settings : TransportSettings) (t : Transport (List UInt8)) : Prop where
  maxSize : t.maxSize = settings.maxSize
  path : ∀ route, t.path route = (settings.transport : Transport (List UInt8)).path route
  capacity : t.outbox.capacity = settings.queueSize
  within : t.WithinCapacity

variable {settings : TransportSettings} {t : Transport (List UInt8)}

/-- A new sender is `SetUp` by its settings. -/
theorem setUp_new (settings : TransportSettings) : SetUp settings settings.transport where
  maxSize := rfl
  path := fun _ => rfl
  capacity := rfl
  within := Transport.withinCapacity_new ..

/-- Nothing that `send` does changes how a sender was set up. -/
theorem SetUp.send (h : SetUp settings t) (net : Network σ) (record : List UInt8) (s : Scene σ) :
    SetUp settings ((t.send net id record).run s).1.transport := by
  obtain ⟨hstep, _⟩ := Transport.step_send net id h.within record s
  generalize ((t.send net id record).run s).1 = sending at hstep ⊢
  refine ⟨?_, fun route => ?_, ?_, Transport.withinCapacity_of_step h.within hstep⟩
  · rw [Transport.maxSize_of_step hstep, h.maxSize]
  · rw [← h.path route]
    cases hstep <;> rfl
  · rw [Transport.capacity_of_step hstep, h.capacity]

/-- What others do with the outbox of a sender does not change how it was set up, as long as they
    keep to the capacity. -/
theorem SetUp.withOutbox (h : SetUp settings t) {outbox : Outbox (List UInt8)}
    (hcapacity : outbox.capacity = t.outbox.capacity) (hsize : outbox.size ≤ t.outbox.capacity) :
    SetUp settings { t with outbox } where
  maxSize := h.maxSize
  path := h.path
  capacity := hcapacity.trans h.capacity
  within := by
    show outbox.size ≤ outbox.capacity
    rw [hcapacity]
    exact hsize

/-- Of its sender a writer changes no more than the sender itself. -/
theorem SetUp.step (h : SetUp settings w.transport) {net : Network σ} {world world' : σ}
    {outcome : Except WriteError Int} (hstep : Step net w q world w' outcome world') :
    SetUp settings w'.transport := by
  cases hstep with
  | handed _ _ _ => exact h.send net _ _
  | _ => exact h

/-- Whatever was done to a writer and its parts, its sender is `SetUp` as before: one case for
    each way to reach a writer. -/
theorem Reachable.setUp {settings : Settings} (h : Reachable settings w) :
    SetUp settings.transport w.transport := by
  induction h with
  | new => exact setUp_new settings.transport
  | serve _ net q s ih =>
    obtain ⟨hstep, _⟩ := step_serve net _ q s
    -- the limiter is no part of the sender
    exact ih.step hstep
  | limiter _ op ih => exact ih
  | send _ net record s ih => exact ih.send net record s
  | push _ record ih =>
    exact ih.withOutbox (Outbox.capacity_push ..) (Outbox.size_push_le ih.within record)
  | @pop w _ _ outbox hpop ih =>
    have hsize := Outbox.size_of_pop? hpop
    have hcapacity : outbox.capacity = w.transport.outbox.capacity := Outbox.capacity_pop? hpop
    have hwithin := ih.within
    rw [Transport.WithinCapacity] at hwithin
    exact ih.withOutbox hcapacity (Nat.le_trans (Nat.le_of_lt hsize) hwithin)
  | putBack _ record ih =>
    exact ih.withOutbox (Outbox.capacity_putBack ..) (Outbox.size_putBack_le ih.within record)

end EventReporter.Writer
