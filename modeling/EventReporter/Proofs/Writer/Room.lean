import EventReporter.Library
import EventReporter.Proofs.Writer.Status
import EventReporter.Settings
namespace EventReporter

/-!
# Settings that leave room for events

Settings are taken only if records may be as large as a header. That is enough for an event that
belongs to no trace, whatever its parameters. An event that belongs to one needs room for its trace
as well, which the settings need not leave.

* `Settings.maxSize_of_check` : the sizes of records that settings may ask for.
* `Writer.unencodable_iff` : the events that have no room.
-/

/-! ### Settings that are taken -/

/-- `requireThat` answers only if the condition is met. -/
theorem eq_true_of_requireThat {ok : Bool} {e : SettingsError} {u : Unit}
    (h : requireThat ok e = .ok u) : ok = true := by
  unfold requireThat at h
  split at h
  · next hok => exact hok
  · cases h

/-- `check` accepts no size of records below `minSize`, nor one above `recordBytes`. -/
theorem TransportSettings.maxSize_of_check {settings : TransportSettings} {u : Unit}
    (h : settings.check = .ok u) :
    Record.minSize ≤ settings.maxSize ∧ settings.maxSize ≤ Limits.recordBytes := by
  obtain ⟨_, _, h⟩ := bind_eq_ok h
  obtain ⟨_, hsize, _⟩ := bind_eq_ok h
  have hboth := eq_true_of_requireThat hsize
  rwa [Bool.and_eq_true, decide_eq_true_eq, decide_eq_true_eq] at hboth

/-- The settings of the transport are checked with the others. -/
theorem Settings.maxSize_of_check {settings : Settings} (h : settings.check = .ok settings) :
    Record.minSize ≤ settings.transport.maxSize ∧
      settings.transport.maxSize ≤ Limits.recordBytes := by
  obtain ⟨_, _, h⟩ := bind_eq_ok h
  obtain ⟨_, htransport, _⟩ := bind_eq_ok h
  exact TransportSettings.maxSize_of_check htransport

namespace Writer

variable {σ : Type} {net : Network σ} {w w' : Writer} {q : Request} {world world' : σ}
  {outcome : Except WriteError Int}

/-! ### Events that are admitted -/

/-- Whether there is a record decides what becomes of an admitted event: the other steps are for
    events that are not admitted. -/
theorem outcome_of_admits (h : Step net w q world w' outcome world') (hadmits : w.Admits q) :
    (∃ cause, q.record w.transport.maxSize = .error cause ∧
        outcome = .error (.unencodable cause)) ∨
      (q.record w.transport.maxSize).isOk = true ∧
        ((∃ code, outcome = .ok code) ∨ ∃ cause, outcome = .error (.unsent cause)) := by
  obtain ⟨hmask, hlimit, hdomain, hname⟩ := hadmits
  cases h with
  | masked hmasked => exact absurd (hmask.symm.trans hmasked) (by decide)
  | suppressed _ hsuppressed => exact absurd (hlimit.symm.trans hsuppressed) (by decide)
  | badDomain _ _ hbad => exact absurd (hdomain.symm.trans hbad) (by decide)
  | badName _ _ _ hbad => exact absurd (hname.symm.trans hbad) (by decide)
  | unencodable _ hrecord => exact .inl ⟨_, hrecord, rfl⟩
  | @handed _ record hrecord s _ =>
    refine .inr ⟨by rw [hrecord]; rfl, ?_⟩
    cases ((w.transport.send net id record).run s).1.result with
    | ok _ => exact .inl ⟨_, rfl⟩
    | error cause => exact .inr ⟨cause, rfl⟩

/-- With settings that were taken, an admitted event whose names are names has a record, unless it
    belongs to a trace and records may not be as large as a header and a trace. If it has one it is
    sent, or it is the fault of the outside that it is not. -/
theorem unencodable_iff {settings : Settings} (hcheck : settings.check = .ok settings)
    (h : Reachable settings w) (hadmits : w.Admits q) (net : Network σ) (s : Scene σ) :
    let outcome := ((w.tryWrite net q.surroundings q.quota q.site q.event).run s).1.2
    ((∃ cause, outcome = .error (.unencodable cause)) ↔
        q.ambient.stored.id ≠ 0 ∧
          settings.transport.maxSize < Record.minSize + Trace.blockSize) ∧
      ((∃ cause, outcome = .error (.unencodable cause)) ∨ (∃ code, outcome = .ok code) ∨
        ∃ cause, outcome = .error (.unsent cause) ∧ cause.isOutside = true) := by
  intro outcome
  have hstep := step_tryWrite net w q s
  obtain ⟨_, houtside⟩ := cause_of_step hstep
  obtain ⟨hmin, hmax⟩ := settings.maxSize_of_check hcheck
  rw [← h.setUp.maxSize] at hmin hmax ⊢
  have hroom := q.record_isOk_iff hmax
  rcases outcome_of_admits hstep hadmits with ⟨cause, hrecord, hfailed⟩ | ⟨hrecord, hsent⟩
  · -- there is no record, so there is a trace and no room for it
    have hnone : ¬ (q.record w.transport.maxSize).isOk = true := by
      rw [hrecord]
      nofun
    rw [hroom] at hnone
    refine ⟨iff_of_true ⟨cause, hfailed⟩ ?_, .inl ⟨cause, hfailed⟩⟩
    by_cases hid : q.ambient.stored.id = 0
    · rw [if_pos hid] at hnone
      exact absurd hmin hnone
    · rw [if_neg hid] at hnone
      exact ⟨hid, Nat.lt_of_not_le hnone⟩
  · -- there is a record, so there is no trace or room for it
    have hsome := hroom.mp hrecord
    refine ⟨iff_of_false ?_ ?_, .inr ?_⟩
    · rintro ⟨cause, hfailed⟩
      rcases hsent with ⟨code, hcode⟩ | ⟨other, hother⟩
      · cases hfailed.symm.trans hcode
      · cases hfailed.symm.trans hother
    · rintro ⟨hid, hsmall⟩
      rw [if_neg hid] at hsome
      exact absurd hsome (Nat.not_le_of_lt hsmall)
    · rcases hsent with hcode | ⟨cause, hcause⟩
      · exact .inl hcode
      · exact .inr ⟨cause, hcause, houtside cause hcause⟩

/-- Settings with room for a header and a trace, and for no parameter. -/
def roomy : Settings :=
  { transport := { maxSize := Record.minSize + Trace.blockSize } }

/-- `roomy` settings are enough for an event that belongs to a trace. -/
theorem encodable_roomy :
    roomy.check = .ok roomy ∧ Reachable roomy roomy.writer ∧ roomy.writer.Admits sampleRequest ∧
      ¬ ∃ cause, ((roomy.writer.tryWrite Transport.scripted sampleRequest.surroundings
        sampleRequest.quota sampleRequest.site sampleRequest.event).run listening).1.2
          = .error (.unencodable cause) := by
  have hcheck : roomy.check = .ok roomy := rfl
  have hadmits : roomy.writer.Admits sampleRequest :=
    ⟨by decide, by decide +kernel, by decide, by decide⟩
  obtain ⟨hiff, _⟩ := unencodable_iff hcheck .new hadmits Transport.scripted listening
  refine ⟨hcheck, .new, hadmits, fun hfailed => ?_⟩
  obtain ⟨_, hsmall⟩ := hiff.mp hfailed
  exact absurd hsmall (by decide)

/-- Settings with room for a header and no more. -/
def cramped : Settings :=
  { transport := { maxSize := Record.minSize } }

/-- `cramped` settings are taken, and yet an event that belongs to a trace cannot be laid out. -/
theorem unencodable_cramped :
    cramped.check = .ok cramped ∧ Reachable cramped cramped.writer ∧
      cramped.writer.Admits sampleRequest ∧
      ((cramped.writer.tryWrite Transport.scripted sampleRequest.surroundings sampleRequest.quota
        sampleRequest.site sampleRequest.event).run listening).1.2
          = .error (.unencodable (.overflow 17 4)) := by
  have hadmits : cramped.writer.Admits sampleRequest :=
    ⟨by decide, by decide +kernel, by decide, by decide⟩
  exact ⟨rfl, .new, hadmits, rfl⟩

end Writer

end EventReporter
