import EventReporter.Proofs.Transport.Occurrence
import EventReporter.Proofs.Writer.Status
import Mathlib.Data.List.Induction
import Mathlib.Data.List.Nodup
namespace EventReporter

/-!
# What reaches a collector is what was written

Every datagram that arrives while a writer serves requests is the record of the event of one of
them, and of one that was served before or is being served. No two datagrams belong to the same
request. Records may look the same, so each is tagged with the position of its request, and the
writer's sender is followed by one that handles the tagged records.

* `Transport.perm_of_step` : where the records are after one was handed over.
* `Writer.tracked_concat` : one more request.
* `Writer.arrived_belongs` : all of them.
-/

/-! ### Where the records are -/

namespace Transport

variable {α : Type} {content : α → List UInt8} {t : Transport α} {x : α} {sending : Sending α}

/-- The records that waited, and the new one if it is accepted, go out, still wait or are dropped:
    one case for each kind of `Step`. -/
theorem perm_of_step (h : Step content t x sending) :
    ((Call.mk x sending).delivered ++ sending.transport.outbox.records
        ++ sending.dropped.toList).Perm
      (t.outbox.records ++ if accepts content t x then [x] else []) := by
  cases h with
  | refused hsize e =>
    rw [hsize]
    exact List.Perm.refl (t.outbox.records ++ [])
  | sent hsize gone waiting hsplit =>
    rw [hsize, hsplit]
    show ((gone ++ [x]) ++ waiting ++ []).Perm ((gone ++ waiting) ++ [x])
    rw [List.append_nil, List.append_assoc, List.append_assoc]
    exact List.perm_append_comm.append_left gone
  | kept hsize gone waiting hsplit e =>
    have hpush := Outbox.perm_push (t.drained gone waiting).outbox x
    rw [hsize, hsplit]
    show ((gone ++ []) ++ _ ++ _).Perm ((gone ++ waiting) ++ [x])
    rw [List.append_nil, List.append_assoc, List.append_assoc]
    exact hpush.append_left gone

/-- `WithinCapacity` counts records, whatever they are. -/
theorem withinCapacity_of_map {β : Type} {f : α → β} (h : (t.map f).WithinCapacity) :
    t.WithinCapacity := by
  rwa [WithinCapacity, map, Outbox.size_map] at h

end Transport

namespace Writer

variable {σ : Type} {net : Network σ} {settings : Settings} {w w' : Writer} {q : Request}
  {world world' : σ} {outcome : Except WriteError Int}

/-! ### One more request -/

/-- A record and the position of the request that it was laid out for. -/
abbrev Tagged := List UInt8 × Nat

/-- The datagram that a record goes out as. -/
def datagramOf (settings : Settings) (record : List UInt8) : Datagram :=
  (settings.transport.transport : Transport (List UInt8)).datagram id record

/-- A record is that of an event that got as far as its record. -/
structure Turn.Wrote (settings : Settings) (turn : Turn) (record : List UInt8) : Prop where
  admits : turn.before.Admits turn.request
  describes : turn.request.Describes settings.transport.maxSize record

/-- Tagged records belong to some turns: each is the record of the turn at its position, and no two
    are at the same position. -/
structure Belong (settings : Settings) (turns : List Turn) (records : List Tagged) : Prop where
  owned : ∀ x ∈ records, ∃ turn, turns[x.2]? = some turn ∧ turn.Wrote settings x.1
  distinct : (records.map Prod.snd).Nodup

namespace Belong

variable {turns : List Turn} {records records' lost : List Tagged}

/-- Every record that `Belong`s to a turn is marked with one that there was. -/
theorem lt_length (h : Belong settings turns records) {x : Tagged} (hx : x ∈ records) :
    x.2 < turns.length := by
  obtain ⟨turn, hturn, _⟩ := h.owned x hx
  exact (List.getElem?_eq_some_iff.mp hturn).1

/-- Later turns take no record away from the earlier ones. -/
theorem later (h : Belong settings turns records) (turn : Turn) :
    Belong settings (turns ++ [turn]) records where
  owned := by
    intro x hx
    rw [List.getElem?_append_left (h.lt_length hx)]
    exact h.owned x hx
  distinct := h.distinct

/-- A further turn brings a record of its own, marked with its position. -/
theorem concat (h : Belong settings turns records) {turn : Turn} {record : List UInt8}
    (hwrote : turn.Wrote settings record) :
    Belong settings (turns ++ [turn]) (records ++ [(record, turns.length)]) where
  owned := by
    intro x hx
    rcases List.mem_append.mp hx with hold | hnew
    · exact (h.later turn).owned x hold
    · obtain rfl := List.mem_singleton.mp hnew
      exact ⟨turn, List.getElem?_concat_length, hwrote⟩
  distinct := by
    rw [List.map_append, List.map_singleton, ← List.concat_eq_append, List.nodup_concat]
    -- the new position is that of no record so far
    refine ⟨fun hmem => ?_, h.distinct⟩
    obtain ⟨x, hx, hposition⟩ := List.mem_map.mp hmem
    exact absurd (h.lt_length hx) (Nat.not_lt_of_le (Nat.le_of_eq hposition.symm))

/-- Records `Belong` to their turns wherever they are, and when some are lost. -/
theorem of_perm (h : Belong settings turns records) (hperm : (records' ++ lost).Perm records) :
    Belong settings turns records' where
  owned := fun x hx => h.owned x (hperm.subset (List.mem_append_left lost hx))
  distinct := by
    have hall := (hperm.map Prod.snd).nodup_iff.mpr h.distinct
    rw [List.map_append] at hall
    exact hall.of_append_left

end Belong

/-- What a writer does with a request, and with the tagged records that wait: some go out, and the
    new one may be among them; all others wait or are lost. `send_map` has the sender treat tagged
    records like records. -/
theorem tagged_of_step {t : Transport Tagged} (hsame : t.map Prod.fst = w.transport)
    (hsetUp : SetUp settings.transport w.transport)
    (h : Step net w q world w' outcome world') (n : Nat) :
    ∃ (own log lost : List Tagged) (t' : Transport Tagged),
      t'.map Prod.fst = w'.transport ∧
      (log ++ t'.outbox.records ++ lost).Perm (t.outbox.records ++ own) ∧
      (own = [] ∨ ∃ record, own = [(record, n)] ∧ w.Admits q ∧
        q.Describes settings.transport.maxSize record) ∧
      ∀ arrived, net.Records arrived →
        arrived world' = arrived world ++ log.map fun x => datagramOf settings x.1 := by
  cases h with
  | @handed hadmits record hrecord s hworld =>
    have hdescribes := Request.describes_of_record hadmits.domain hadmits.name hrecord
    have haccepts : Transport.accepts Prod.fst t (record, n) = true := by
      have hplain := accepts_of_describes hdescribes
      rw [← hsame] at hplain
      exact hplain
    have hwithin : t.WithinCapacity :=
      Transport.withinCapacity_of_map (hsame ▸ hsetUp.within)
    obtain ⟨hstep, harrives⟩ := Transport.step_send net Prod.fst hwithin (record, n) s
    -- the tagged record is handled like the record
    have hrun : (w.transport.send net id record).run s
        = ((((t.send net Prod.fst (record, n)).run s).1).map Prod.fst,
          ((t.send net Prod.fst (record, n)).run s).2) := by
      have hmap := Transport.send_map net Prod.fst id t (record, n)
      rw [← hsame]
      exact congrArg (StateT.run · s) hmap
    rw [hrun]
    generalize (t.send net Prod.fst (record, n)).run s = sent at hstep harrives
    obtain ⟨sending, s'⟩ := sent
    have hperm := Transport.perm_of_step hstep
    rw [haccepts, if_pos rfl] at hperm
    rw [hsetUp.maxSize] at hdescribes
    -- what goes out, waits or is lost is what `perm_of_step` says
    refine ⟨[(record, n)], _, _, sending.transport, rfl, hperm,
      .inr ⟨record, rfl, hadmits, hdescribes⟩, fun arrived hnet => ?_⟩
    have hpath : ∀ route, t.path route = (settings.transport.transport :
        Transport (List UInt8)).path route := by
      intro route
      rw [← hsetUp.path route, ← hsame]
      rfl
    have hdatagram : t.datagram Prod.fst = fun x => datagramOf settings x.1 := by
      funext x
      show (t.path _, x.1) = _
      rw [hpath]
      rfl
    have harrived := harrives arrived hnet
    rwa [hworld, hdatagram] at harrived
  | _ =>
    exact ⟨[], [], [], t, hsame, by simp, .inl rfl, fun _ _ => (List.append_nil _).symm⟩

/-! ### All requests -/

/-- A new writer serves some requests: the writer, the turns and the scene after them. -/
def served (settings : Settings) (net : Network σ) (s : Scene σ) (requests : List Request) :
    (Writer × List Turn) × Scene σ :=
  (serveAll net settings.writer requests).run s

variable {s : Scene σ} {requests : List Request}

/-- `served` one request more: the last one is served by the writer that the others have left. -/
theorem served_concat (settings : Settings) (net : Network σ) (s : Scene σ)
    (requests : List Request) (q : Request) :
    let before := served settings net s requests
    let run := (before.1.1.serve net q).run before.2
    served settings net s (requests ++ [q])
      = ((run.1.1, before.1.2 ++ [⟨q, before.1.1, run.1.2⟩]), run.2) := by
  intro before run
  rw [served, serveAll_append]
  rfl

/-- The writer is `Reachable` after any requests, so what is true of such writers is true of
    it. -/
theorem reachable_served (settings : Settings) (net : Network σ) (s : Scene σ)
    (requests : List Request) : Reachable settings (served settings net s requests).1.1 := by
  induction requests using List.reverseRecOn with
  | nil => exact .new
  | append_singleton requests q ih =>
    rw [served_concat]
    exact ih.serve net q _

/-- There is one turn for each request. -/
theorem map_request_served (settings : Settings) (net : Network σ) (s : Scene σ)
    (requests : List Request) :
    (served settings net s requests).1.2.map Turn.request = requests := by
  induction requests using List.reverseRecOn with
  | nil => rfl
  | append_singleton requests q ih =>
    rw [served_concat, List.map_append, ih]
    rfl

/-- There are as many turns as requests. -/
theorem length_served (settings : Settings) (net : Network σ) (s : Scene σ)
    (requests : List Request) : (served settings net s requests).1.2.length = requests.length := by
  rw [← List.length_map (f := Turn.request), map_request_served]

/-- For each of some requests, the tagged records that went out with it; and a sender of tagged
    records with those that wait. -/
structure Tracked (settings : Settings) (net : Network σ) (s : Scene σ) (requests : List Request)
    (sent : List (List Tagged)) (t : Transport Tagged) : Prop where
  /-- The writer's sender is this one without the tags. -/
  same : t.map Prod.fst = (served settings net s requests).1.1.transport
  /-- There is something to tell of each request. -/
  length : sent.length = requests.length
  /-- The records are those of the requests. -/
  belong : Belong settings (served settings net s requests).1.2
    (sent.flatten ++ t.outbox.records)
  /-- It went out with its request or with one that came later. -/
  earlier : ∀ n, ∀ x ∈ (sent.take n).flatten, x.2 < n
  /-- What went out has arrived. -/
  arrived : ∀ arrived, net.Records arrived → ∀ n,
    arrived (served settings net s (requests.take n)).2.world
      = arrived s.world ++ (sent.take n).flatten.map fun x => datagramOf settings x.1

/-- Before any request nothing is `Tracked`. -/
theorem tracked_nil (settings : Settings) (net : Network σ) (s : Scene σ) :
    Tracked settings net s [] [] settings.transport.transport where
  same := rfl
  length := rfl
  belong := ⟨fun _ hx => absurd hx List.not_mem_nil, List.nodup_nil⟩
  earlier := by
    intro n x hx
    rw [List.take_nil] at hx
    exact absurd hx List.not_mem_nil
  arrived := by
    intro arrived _ n
    rw [List.take_nil, List.take_nil]
    exact (List.append_nil _).symm

variable {sent : List (List Tagged)} {t : Transport Tagged}

/-- One more request: its turn brings a log of what goes out in its course, and what goes out or
    waits then went out or waited before, or is the new record. This is the step of
    `exists_tracked`, and `tagged_of_step` is what it rests on. -/
theorem tracked_concat (h : Tracked settings net s requests sent t) (q : Request) :
    ∃ log t', Tracked settings net s (requests ++ [q]) (sent ++ [log]) t' := by
  have hsetUp := (reachable_served settings net s requests).setUp
  have hconcat := served_concat settings net s requests q
  obtain ⟨hstep, _⟩ := step_serve net (served settings net s requests).1.1 q
    (served settings net s requests).2
  obtain ⟨own, log, lost, t', hsame, hperm, hown, harrives⟩ :=
    tagged_of_step h.same hsetUp hstep requests.length
  rw [← length_served settings net s requests] at hown
  have hplaces : ((sent ++ [log]).flatten ++ t'.outbox.records ++ lost).Perm
      (sent.flatten ++ t.outbox.records ++ own) := by
    have hbehind := hperm.append_left sent.flatten
    simpa only [List.flatten_append, List.flatten_singleton, List.append_assoc] using hbehind
  have hbelong : Belong settings (served settings net s (requests ++ [q])).1.2
      ((sent ++ [log]).flatten ++ t'.outbox.records) := by
    rw [hconcat]
    -- a turn that admits nothing brings no record, so those of before are the only ones
    rcases hown with rfl | ⟨record, rfl, hadmits, hdescribes⟩
    · rw [List.append_nil] at hplaces
      exact (h.belong.later _).of_perm hplaces
    · exact (h.belong.concat ⟨hadmits, hdescribes⟩).of_perm hplaces
  have hlast : (sent ++ [log]).length = (requests ++ [q]).length := by
    rw [List.length_append, List.length_append, h.length]
    rfl
  refine ⟨log, t', ?_, hlast, hbelong, fun n x hx => ?_, fun arrived hnet n => ?_⟩
  · rw [hconcat]
    exact hsame
  · by_cases hn : n ≤ sent.length
    · rw [List.take_append_of_le_length hn] at hx
      exact h.earlier n x hx
    · -- all of them are among the requests so far
      obtain ⟨some, hsome, hx⟩ := List.mem_flatten.mp hx
      have hmem : x ∈ (sent ++ [log]).flatten :=
        List.mem_flatten.mpr ⟨some, List.mem_of_mem_take hsome, hx⟩
      have hposition := hbelong.lt_length (List.mem_append_left _ hmem)
      rw [length_served, ← hlast, List.length_append, List.length_singleton] at hposition
      omega
  · by_cases hn : n ≤ sent.length
    · rw [List.take_append_of_le_length hn, List.take_append_of_le_length (h.length ▸ hn)]
      exact h.arrived arrived hnet n
    · have hall : (sent ++ [log]).length ≤ n := by
        rw [List.length_append, List.length_singleton]
        omega
      have hbefore := h.arrived arrived hnet requests.length
      rw [List.take_length, ← h.length, List.take_length] at hbefore
      rw [List.take_of_length_le (hlast ▸ hall), List.take_of_length_le hall, hconcat]
      show arrived _ = _
      rw [harrives arrived hnet, hbefore, List.flatten_append, List.flatten_singleton,
        List.map_append, List.append_assoc]

/-- All requests are `Tracked`: by induction on them from the last one back, with `tracked_concat`
    for each. -/
theorem exists_tracked (settings : Settings) (net : Network σ) (s : Scene σ)
    (requests : List Request) : ∃ sent t, Tracked settings net s requests sent t := by
  induction requests using List.reverseRecOn with
  | nil => exact ⟨[], _, tracked_nil settings net s⟩
  | append_singleton requests q ih =>
    obtain ⟨sent, t, h⟩ := ih
    obtain ⟨log, t', h'⟩ := tracked_concat h q
    exact ⟨_, t', h'⟩

/-- A new writer serves some requests on any network. To each of them belong the datagrams that
    arrive in its course, and to each of these datagrams a request of its own, which is this one or
    an earlier one, at whose time it was admitted: the datagram arrives at the socket of its route,
    and a reader finds the event in it. -/
theorem arrived_belongs (settings : Settings) (net : Network σ) (requests : List Request)
    (s : Scene σ) {arrived : σ → List Datagram} (hnet : net.Records arrived) :
    let turns := ((serveAll net settings.writer requests).run s).1.2
    turns.map Turn.request = requests ∧
      ∃ sent : List (List (Datagram × Nat)), sent.length = requests.length ∧
        (∀ n, arrived ((serveAll net settings.writer (requests.take n)).run s).2.world
            = arrived s.world ++ (sent.take n).flatten.map Prod.fst ∧
          ∀ x ∈ (sent.take n).flatten, x.2 < n) ∧
        (sent.flatten.map Prod.snd).Nodup ∧
        ∀ x ∈ sent.flatten, ∃ turn, turns[x.2]? = some turn ∧
          turn.before.Admits turn.request ∧
          turn.request.Describes settings.transport.maxSize x.1.2 ∧
          x.1.1
            = (settings.transport.transport : Transport (List UInt8)).path turn.request.route := by
  intro turns
  obtain ⟨sent, t, h⟩ := exists_tracked settings net s requests
  -- what is known of the tagged records holds of the datagrams that they go out as
  let goesOutAs : Tagged → Datagram × Nat := fun x => (datagramOf settings x.1, x.2)
  have hflatten : ∀ logs : List (List Tagged),
      (logs.map (List.map goesOutAs)).flatten = logs.flatten.map goesOutAs :=
    fun logs => List.map_flatten.symm
  refine ⟨map_request_served settings net s requests, sent.map (List.map goesOutAs), ?_, ?_, ?_, ?_⟩
  · rw [List.length_map, h.length]
  · intro n
    rw [← List.map_take, hflatten, List.map_map]
    refine ⟨h.arrived arrived hnet n, fun x hx => ?_⟩
    obtain ⟨y, hy, rfl⟩ := List.mem_map.mp hx
    exact h.earlier n y hy
  · have hdistinct := h.belong.distinct
    rw [List.map_append] at hdistinct
    rw [hflatten, List.map_map]
    exact hdistinct.of_append_left
  · intro x hx
    rw [hflatten] at hx
    obtain ⟨y, hy, rfl⟩ := List.mem_map.mp hx
    obtain ⟨turn, hturn, hwrote⟩ := h.belong.owned y (List.mem_append_left _ hy)
    refine ⟨turn, hturn, hwrote.admits, hwrote.describes, ?_⟩
    show (settings.transport.transport : Transport (List UInt8)).path (Route.taken y.1) = _
    rw [Request.taken_of_describes hwrote.describes]

/-- A scene in which nobody listens to the first datagram. -/
def faltering : Scene (List (Except Fault Unit) × List Datagram) :=
  ⟨([.error .refused, .ok (), .ok ()], []), #[]⟩

/-- Two requests, of which the first has to wait for the second. -/
def twoRequests : List Request :=
  [sampleRequest, sampleRequest]

/-- Both arrive with the second one, and are told apart. -/
theorem arrived_belongs_faltering :
    Transport.scripted.Records Prod.snd ∧
      ((serveAll Transport.scripted (Settings.writer {}) twoRequests).run
        faltering).2.world.2.length = 2 ∧
      ∃ sent : List (List (Datagram × Nat)),
        ((serveAll Transport.scripted (Settings.writer {}) twoRequests).run faltering).2.world.2
          = sent.flatten.map Prod.fst ∧
        (sent.flatten.map Prod.snd).Nodup ∧ ∀ x ∈ sent.flatten, x.2 < 2 := by
  obtain ⟨_, sent, hlength, harrived, hdistinct, _⟩ :=
    arrived_belongs {} Transport.scripted twoRequests faltering Transport.records_scripted
  obtain ⟨hall, hearlier⟩ := harrived 2
  have hrequests : twoRequests.take 2 = twoRequests := rfl
  have hsent : sent.take 2 = sent := List.take_of_length_le (Nat.le_of_eq hlength)
  have hnothing : faltering.world.2 = [] := rfl
  rw [hrequests, hsent, hnothing, List.nil_append] at hall
  rw [hsent] at hearlier
  exact ⟨Transport.records_scripted, by decide +kernel, sent, hall, hdistinct, hearlier⟩

end Writer

end EventReporter
