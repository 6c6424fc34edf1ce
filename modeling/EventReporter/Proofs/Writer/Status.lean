import EventReporter.Proofs.Transport.Cause
import EventReporter.Proofs.Writer.Record
import EventReporter.Proofs.Writer.Step
namespace EventReporter.Writer

/-!
# What a status code tells

A status code that is no failure says that the event's record has arrived, and only such a code
does. A failure says how far the write came: the mask leaves everything as it was, what stops a
write before its record is handed over leaves the sender and the sockets as they were, and a
record that did not get through waits in the outbox.

* `fate_of_step` : what can become of a write.
* `code_tells` : the code tells which of them it was.
-/

variable {σ : Type} {net : Network σ} {arrived : σ → List Datagram} {w w' : Writer} {q : Request}
  {world world' : σ} {outcome : Except WriteError Int} {settings : TransportSettings}

/-! ### What can become of a write -/

/-- Some waiting records arrived, oldest first, then the event's own, once and at the socket of its
    route. Those behind still wait, and the event's own does not. -/
def Delivered (arrived : σ → List Datagram) (w : Writer) (q : Request) (world : σ) (w' : Writer)
    (world' : σ) : Prop :=
  ∃ record gone waiting,
    q.record w.transport.maxSize = .ok record ∧ q.Describes w.transport.maxSize record ∧
      w.transport.outbox.records = gone ++ waiting ∧
      w'.transport = { w.transport.drained gone waiting with sent := w.transport.sent + 1 } ∧
      arrived world' = arrived world ++ gone.map (w.transport.datagram id)
        ++ [(w.transport.path q.route, record)]

/-- Some waiting records arrived, oldest first, and the event's own did not. It is the newest one
    that waits, or counts as dropped if none can wait. -/
def Kept (arrived : σ → List Datagram) (w : Writer) (q : Request) (world : σ) (w' : Writer)
    (world' : σ) : Prop :=
  ∃ record gone waiting,
    q.record w.transport.maxSize = .ok record ∧ q.Describes w.transport.maxSize record ∧
      w.transport.outbox.records = gone ++ waiting ∧
      w'.transport = (w.transport.drained gone waiting).joined record ∧
      arrived world' = arrived world ++ gone.map (w.transport.datagram id) ∧
      if w.transport.outbox.capacity = 0 then
        w'.transport.outbox.records = waiting ∧
          w'.transport.outbox.evicted = w.transport.outbox.evicted + 1
      else w'.transport.outbox.records.getLast? = some record

/-- The codes of what stops a write behind the mask and before its record is handed over. -/
def stopCodes : List Int :=
  [Status.tooFrequent, Status.domainInvalid, Status.nameInvalid, Status.overSize]

/-- The codes of what keeps a record from its socket. -/
def keepCodes : List Int :=
  [Status.sendFailed, Status.noSocket]

/-- What can become of a write: the writer, the world and the status code after it. -/
inductive Fate (arrived : σ → List Datagram) (w : Writer) (q : Request) (world : σ) :
    Writer → σ → Int → Prop where
  /-- It was masked, and nothing has changed. -/
  | masked : Fate arrived w q world w world Status.domainMasked
  /-- It was stopped, and nothing has changed for the sender and outside. -/
  | stopped {w' : Writer} {code : Int} (hcode : code ∈ stopCodes)
    (htransport : w'.transport = w.transport) : Fate arrived w q world w' world code
  /-- Its record has arrived. -/
  | delivered {w' : Writer} {world' : σ} {code : Int} (hcode : 0 ≤ code)
    (h : Delivered arrived w q world w' world') : Fate arrived w q world w' world' code
  /-- Its record has not arrived. -/
  | kept {w' : Writer} {world' : σ} {code : Int} (hcode : code ∈ keepCodes)
    (h : Kept arrived w q world w' world') : Fate arrived w q world w' world' code

/-! ### A record that is handed over -/

/-- A record that describes an event is of a size that can be sent: it can be read, so it is no
    smaller than `minSize`. -/
theorem accepts_of_describes {record : List UInt8}
    (h : q.Describes w.transport.maxSize record) :
    Transport.accepts id w.transport record = true := by
  obtain ⟨r, hread, _⟩ := h.read
  have hmin : 88 ≤ record.length := Record.minSize_le_of_decode hread
  exact decide_eq_true ⟨Nat.lt_of_lt_of_le (by decide) hmin, h.fits⟩

/-- A record that describes an event goes to the socket of the event. -/
theorem datagram_of_describes {record : List UInt8}
    (h : q.Describes w.transport.maxSize record) :
    w.transport.datagram id record = (w.transport.path q.route, record) := by
  rw [Transport.datagram, id_eq, Request.taken_of_describes h]

/-- A record that joins an outbox is its newest one, or counts as dropped. -/
theorem newest_joined (t : Transport (List UInt8)) (gone waiting : List (List UInt8))
    (record : List UInt8) :
    if t.outbox.capacity = 0 then
      ((t.drained gone waiting).joined record).outbox.records = waiting ∧
        ((t.drained gone waiting).joined record).outbox.evicted = t.outbox.evicted + 1
    else ((t.drained gone waiting).joined record).outbox.records.getLast? = some record := by
  split
  · next hzero =>
    have hpush := Outbox.push_of_capacity_zero (q := (t.drained gone waiting).outbox) hzero record
    unfold Transport.joined
    rw [hpush]
    exact ⟨rfl, rfl⟩
  · next hroom => exact Outbox.getLast?_push (q := (t.drained gone waiting).outbox) hroom record

/-- Whatever a writer does with a request, this is what becomes of it: one `Fate` for each kind of
    `Step`, and two for a record that is handed to the sender. -/
theorem fate_of_step (h : SetUp settings w.transport) (hnet : net.Records arrived)
    (hstep : Step net w q world w' outcome world') :
    Fate arrived w q world w' world' (outcomeCode outcome) := by
  cases hstep with
  | masked _ => exact .masked
  | suppressed _ _ =>
    have hcode : Status.tooFrequent ∈ stopCodes := by decide
    exact .stopped hcode rfl
  | badDomain _ _ _ =>
    have hcode : Status.domainInvalid ∈ stopCodes := by decide
    exact .stopped hcode rfl
  | badName _ _ _ _ =>
    have hcode : Status.nameInvalid ∈ stopCodes := by decide
    exact .stopped hcode rfl
  | unencodable _ hrecord =>
    -- only a limit can stand in the way
    have hcode : outcomeCode (.error (.unencodable _)) = Status.overSize :=
      if_pos (Record.Builder.isOverflow_of_build hrecord)
    refine .stopped ?_ rfl
    rw [hcode]
    decide
  | @handed hadmits record hrecord s hworld =>
    have hdescribes := Request.describes_of_record hadmits.domain hadmits.name hrecord
    have haccepts := accepts_of_describes hdescribes
    have hsent := Transport.step_send net id h.within record s
    have hcause := Transport.isOutside_of_send net haccepts s
    generalize (w.transport.send net id record).run s = sent at hsent hcause ⊢
    obtain ⟨sending, s'⟩ := sent
    obtain ⟨hsending, harrives⟩ := hsent
    have harrived := harrives arrived hnet
    rw [hworld] at harrived
    cases hsending with
    | refused hsize e =>
      rw [haccepts] at hsize
      -- a record that describes an event is not refused
      cases hsize
    | sent _ gone waiting hsplit =>
      have hcode : 0 ≤ (q.draft w.transport.maxSize).code := Draft.code_addAll _ _
      refine .delivered hcode ⟨record, gone, waiting, hrecord, hdescribes, hsplit, rfl, ?_⟩
      rw [List.append_assoc, ← datagram_of_describes hdescribes, ← List.map_singleton,
        ← List.map_append]
      exact harrived
    | kept _ gone waiting hsplit e =>
      refine .kept ?_ ⟨record, gone, waiting, hrecord, hdescribes, hsplit, rfl, ?_,
        newest_joined w.transport gone waiting record⟩
      · have hcode := SendError.code_of_isOutside (hcause e rfl)
        show e.code ∈ keepCodes
        rcases hcode with hcode | hcode
        · rw [hcode]
          decide
        · rw [hcode]
          decide
      · rw [← List.append_nil gone]
        exact harrived

/-! ### Which of them it was -/

/-- A write that has `Delivered` is counted. -/
theorem sent_of_delivered (h : Delivered arrived w q world w' world') :
    w'.transport.sent = w.transport.sent + 1 := by
  obtain ⟨_, _, _, _, _, _, htransport, _⟩ := h
  rw [htransport]

/-- A write that has `Kept` its record is not counted. -/
theorem sent_of_kept (h : Kept arrived w q world w' world') :
    w'.transport.sent = w.transport.sent := by
  obtain ⟨_, _, _, _, _, _, htransport, _⟩ := h
  rw [htransport]
  rfl

/-- A write that is not counted has not `Delivered`. -/
theorem not_delivered (h : w'.transport.sent = w.transport.sent) :
    ¬ Delivered arrived w q world w' world' := by
  intro hdelivered
  have hsent := sent_of_delivered hdelivered
  omega

/-- The codes of a write that was stopped are no others. -/
theorem stopCodes_apart : ∀ code ∈ stopCodes, ¬ 0 ≤ code ∧ code ≠ Status.domainMasked ∧
    code ∉ keepCodes := by
  decide

/-- The codes of a write that has `Kept` its record are no others. -/
theorem keepCodes_apart : ∀ code ∈ keepCodes, ¬ 0 ≤ code ∧ code ≠ Status.domainMasked ∧
    code ∉ stopCodes := by
  decide

/-- The code of a write tells what became of it, since the codes of the four fates are apart. -/
theorem tells_of_fate {code : Int} (h : Fate arrived w q world w' world' code) :
    (0 ≤ code ↔ Delivered arrived w q world w' world') ∧
      (code = Status.domainMasked → w' = w ∧ world' = world) ∧
      (code ∈ stopCodes → w'.transport = w.transport ∧ world' = world) ∧
      (code ∈ keepCodes → Kept arrived w q world w' world') ∧
      (code < 0 → code = Status.domainMasked ∨ code ∈ stopCodes ∨ code ∈ keepCodes) := by
  cases h with
  | masked =>
    have hnot : ¬ Delivered arrived w q world w world := not_delivered rfl
    refine ⟨iff_of_false (by decide) hnot, fun _ => ⟨rfl, rfl⟩, ?_, ?_, fun _ => .inl rfl⟩
    · intro hstopped
      exact absurd hstopped (by decide)
    · intro hkept
      exact absurd hkept (by decide)
  | stopped hcode htransport =>
    obtain ⟨hfails, hunmasked, hother⟩ := stopCodes_apart code hcode
    have hnot : ¬ Delivered arrived w q world w' world := not_delivered (by rw [htransport])
    refine ⟨iff_of_false hfails hnot, ?_, fun _ => ⟨htransport, rfl⟩, ?_,
      fun _ => .inr (.inl hcode)⟩
    · intro hmasked
      exact absurd hmasked hunmasked
    · intro hkept
      exact absurd hkept hother
  | delivered hcode hdelivered =>
    refine ⟨iff_of_true hcode hdelivered, ?_, ?_, ?_, ?_⟩
    · rintro rfl
      exact absurd hcode (by decide)
    · intro hstopped
      exact absurd hcode (stopCodes_apart code hstopped).1
    · intro hkept
      exact absurd hcode (keepCodes_apart code hkept).1
    · intro hfailed
      exact absurd hcode (Int.not_le.mpr hfailed)
  | kept hcode hkept =>
    obtain ⟨hfails, hunmasked, hother⟩ := keepCodes_apart code hcode
    have hnot : ¬ Delivered arrived w q world w' world' := not_delivered (sent_of_kept hkept)
    refine ⟨iff_of_false hfails hnot, ?_, ?_, fun _ => hkept, fun _ => .inr (.inr hcode)⟩
    · intro hmasked
      exact absurd hmasked hunmasked
    · intro hstopped
      exact absurd hstopped hother

/-- A limit is all that can keep a record from being laid out, by `isOverflow_of_build`, and what
    lies outside all that can keep it from being sent, by `isOutside_of_send`. -/
theorem cause_of_step (h : Step net w q world w' outcome world') :
    (∀ cause, outcome = .error (.unencodable cause) → cause.isOverflow = true) ∧
      ∀ cause, outcome = .error (.unsent cause) → cause.isOutside = true := by
  cases h with
  | unencodable _ hrecord =>
    refine ⟨?_, nofun⟩
    rintro _ ⟨⟩
    exact Record.Builder.isOverflow_of_build hrecord
  | @handed hadmits record hrecord s _ =>
    have haccepts :=
      accepts_of_describes (Request.describes_of_record hadmits.domain hadmits.name hrecord)
    have hcause := Transport.isOutside_of_send net haccepts s
    cases hresult : ((w.transport.send net id record).run s).1.result with
    | ok _ => exact ⟨nofun, nofun⟩
    | error e =>
      refine ⟨nofun, ?_⟩
      rintro _ ⟨⟩
      exact hcause e hresult
  | _ => exact ⟨nofun, nofun⟩

/-- Whatever was done before to a writer and its parts, and whatever the network answers: the code
    of a write is no failure exactly if the event's record has arrived; a masked domain leaves all
    as it was; what else stops a write leaves the sender and the network as they were; and a record
    that did not get through waits as the newest. There are no other failures. The sender does not
    find the record empty or too large, and a limit is all that can keep it from being laid out. -/
theorem code_tells {settings : Settings} (h : Reachable settings w) (net : Network σ) (q : Request)
    (s : Scene σ) {arrived : σ → List Datagram} (hnet : net.Records arrived) :
    let run := (w.serve net q).run s
    let after := run.1.1
    let code := run.1.2
    let outcome := ((w.tryWrite net q.surroundings q.quota q.site q.event).run s).1.2
    (0 ≤ code ↔ Delivered arrived w q s.world after run.2.world) ∧
      (code = Status.domainMasked → after = w ∧ run.2.world = s.world) ∧
      (code ∈ stopCodes → after.transport = w.transport ∧ run.2.world = s.world) ∧
      (code ∈ keepCodes → Kept arrived w q s.world after run.2.world) ∧
      (code < 0 → code = Status.domainMasked ∨ code ∈ stopCodes ∨ code ∈ keepCodes) ∧
      code = outcomeCode outcome ∧
      (∀ cause, outcome = .error (.unencodable cause) → cause.isOverflow = true) ∧
      ∀ cause, outcome = .error (.unsent cause) → cause.isOutside = true := by
  intro run after code outcome
  obtain ⟨hstep, hcode⟩ := step_serve net w q s
  obtain ⟨hoverflow, houtside⟩ := cause_of_step hstep
  have hfate := fate_of_step h.setUp hnet hstep
  rw [← hcode] at hfate
  obtain ⟨hdelivered, hmasked, hstopped, hkept, hall⟩ := tells_of_fate hfate
  exact ⟨hdelivered, hmasked, hstopped, hkept, hall, hcode, hoverflow, houtside⟩

/-- A fault of the graphics with a trace and one parameter, of a program without a clock. -/
def sampleRequest : Request where
  surroundings := ⟨0, 0, "+0000", 0, 0, 0, some ⟨1, 77, 2, 3⟩⟩
  ambient := ⟨⟨1, 77, 2, 3⟩⟩
  inForce := rfl
  quota := none
  site := ⟨"draw", 12⟩
  event := ⟨"GRAPHIC", "NO_DRAW", .fault, [⟨"WINDOW", .scalar .string "main"⟩]⟩

/-- A writer that has met with nobody who listens. -/
def unheard : Writer :=
  (((Settings.writer {}).serve Transport.scripted sampleRequest).run
    ⟨([.error .refused], []), #[]⟩).1.1

/-- A scene in which somebody listens, for two datagrams. -/
def listening : Scene (List (Except Fault Unit) × List Datagram) :=
  ⟨([.ok (), .ok ()], []), #[]⟩

/-- The next write sends the record that waits, and then its own. -/
theorem code_tells_unheard :
    Reachable {} unheard ∧ Transport.scripted.Records Prod.snd ∧
      Delivered Prod.snd unheard sampleRequest listening.world
        ((unheard.serve Transport.scripted sampleRequest).run listening).1.1
        ((unheard.serve Transport.scripted sampleRequest).run listening).2.world ∧
      ((unheard.serve Transport.scripted sampleRequest).run listening).2.world.2.map Prod.fst
        = ["/dev/unix/socket/hisysevent_fast", "/dev/unix/socket/hisysevent_fast"] := by
  have hreachable : Reachable {} unheard := Reachable.serve .new Transport.scripted sampleRequest _
  obtain ⟨hdelivered, _⟩ :=
    code_tells hreachable Transport.scripted sampleRequest listening Transport.records_scripted
  have hcode : 0 ≤ ((unheard.serve Transport.scripted sampleRequest).run listening).1.2 := by
    decide +kernel
  exact ⟨hreachable, Transport.records_scripted, hdelivered.mp hcode, by decide +kernel⟩

end EventReporter.Writer
