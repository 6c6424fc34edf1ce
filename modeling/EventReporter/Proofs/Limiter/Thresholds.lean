import EventReporter.Proofs.Limiter.Independence
import Mathlib.Data.List.Forall2
namespace EventReporter

/-!
# Higher thresholds

A suppressed write counts like an admitted one, so the threshold decides on the verdict and on
nothing that is kept. Two limiters that are asked about the same keys at the same times, with the
same periods, have the same windows all along, whatever is forgotten on the way; and the one with
the higher thresholds admits every write that the other one admits.

* `Window.advance_fst`, `Window.admitted_of_le` : one write.
* `Limiter.Synchronous.after`, `Limiter.Synchronous.calls` : any number of them.
* `Limiter.raised_admits` : both for new limiters, with the counters.
-/

variable {quota quota' : Quota}

/-! ### One window -/

namespace Window

/-- `isOver` looks at the period of the quota only. -/
theorem isOver_congr (h : quota.period = quota'.period) (w : Window) (now : UInt64) :
    w.isOver quota now = w.isOver quota' now := by
  rw [isOver, isOver, h]

/-- What becomes of a window depends on the period only, by `isOver_congr`. -/
theorem advance_fst (h : quota.period = quota'.period) (current : Option Window) (now : UInt64) :
    (advance current quota now).1 = (advance current quota' now).1 := by
  cases current with
  | none => rfl
  | some w =>
    have hover := isOver_congr h w now
    by_cases hended : w.isOver quota now
    · rw [advance_of_isOver hended, advance_of_isOver (hover ▸ hended)]
    · rw [advance_of_not_isOver hended, advance_of_not_isOver (hover ▸ hended)]

/-- What a threshold admits, a higher one does: in the same window the count is the same. -/
theorem admitted_of_le (hperiod : quota.period = quota'.period)
    (hthreshold : quota.threshold ≤ quota'.threshold) {current : Option Window} {now : UInt64}
    (h : (advance current quota now).2 = .admitted) :
    (advance current quota' now).2 = .admitted := by
  cases current with
  | none => rfl
  | some w =>
    have hover := isOver_congr hperiod w now
    by_cases hended : w.isOver quota now
    · rw [advance_of_isOver (hover ▸ hended)]
    · rw [advance_of_not_isOver hended] at h
      rw [advance_of_not_isOver (hover ▸ hended)]
      have hcount : w.tick.count ≤ quota.threshold.toNat := by
        by_contra hmany
        simp [hmany] at h
      exact if_pos (hcount.trans (UInt32.le_iff_toNat_le.mp hthreshold))

end Window

namespace Limiter

variable {l l' : Limiter} {op op' : Op} {ops ops' : List Op}

/-- The second operation does the same as the first, but for a threshold that may be higher, where
    `quota` and `quota'` hold for writes without a quota of their own. -/
inductive Op.Raises (quota quota' : Quota) : Op → Op → Prop
  | check {own own' : Option Quota} {event event' : String} {site site' : CallSite} {now : UInt64}
      (hkey : site.key event = site'.key event')
      (hperiod : (own.getD quota).period = (own'.getD quota').period)
      (hthreshold : (own.getD quota).threshold ≤ (own'.getD quota').threshold) :
      Op.Raises quota quota' (.check own event site now) (.check own' event' site' now)
  | clear : Op.Raises quota quota' .clear .clear

/-- The same write, which the second limiter admits if the first one does. -/
structure Call.Eases (c c' : Call) : Prop where
  key : c.key = c'.key
  now : c.now = c'.now
  admitted : c.admission = .admitted → c'.admission = .admitted

/-- Two limiters throttle, by a quota each, and have the same windows with the same stamps. -/
structure Synchronous (quota quota' : Quota) (l l' : Limiter) : Prop where
  enabled : l.enabled = true
  enabled' : l'.enabled = true
  quota : l.quota = quota
  quota' : l'.quota = quota'
  windows : l.windows = l'.windows

/-! ### One operation -/

/-- Operations that differ by their thresholds leave the windows the same, by
    `Window.advance_fst`. -/
theorem Synchronous.apply (h : Synchronous quota quota' l l') (hop : op.Raises quota quota' op') :
    Synchronous quota quota' (l.apply op) (l'.apply op') where
  enabled := enabled_apply h.enabled op
  enabled' := enabled_apply h.enabled' op'
  quota := (quota_apply l op).trans h.quota
  quota' := (quota_apply l' op').trans h.quota'
  windows := by
    cases hop with
    | clear =>
      show l.windows.clear = l'.windows.clear
      rw [h.windows]
    | @check own own' event event' site site' now hkey hperiod hthreshold =>
      show (l.check own event site now).1.windows = (l'.check own' event' site' now).1.windows
      rw [windows_check h.enabled, windows_check h.enabled', h.windows, h.quota, h.quota', hkey,
        Window.advance_fst hperiod]

/-- The limiter with the higher threshold is no stricter, by `Window.admitted_of_le`. -/
theorem Synchronous.call? (h : Synchronous quota quota' l l') (hop : op.Raises quota quota' op') :
    List.Forall₂ Call.Eases (l.call? op).toList (l'.call? op').toList := by
  cases hop with
  | clear => exact .nil
  | @check own own' event event' site site' now hkey hperiod hthreshold =>
    refine .cons ⟨hkey, rfl, ?_⟩ .nil
    show (l.check own event site now).2 = .admitted → (l'.check own' event' site' now).2 = .admitted
    rw [check_admission h.enabled, check_admission h.enabled', h.windows, h.quota, h.quota', hkey]
    exact Window.admitted_of_le hperiod hthreshold

/-! ### Any number of operations -/

/-- The two limiters stay in step through all operations: `Synchronous.apply` for each. -/
theorem Synchronous.after (h : Synchronous quota quota' l l')
    (hops : List.Forall₂ (Op.Raises quota quota') ops ops') :
    Synchronous quota quota' (l.after ops) (l'.after ops') := by
  induction hops generalizing l l' with
  | nil => exact h
  | cons hop _ ih => exact ih (h.apply hop)

/-- All writes are judged in step, none more strictly by the second limiter: `Synchronous.call?`
    for each. -/
theorem Synchronous.calls (h : Synchronous quota quota' l l')
    (hops : List.Forall₂ (Op.Raises quota quota') ops ops') :
    List.Forall₂ Call.Eases (l.calls ops) (l'.calls ops') := by
  induction hops generalizing l l' with
  | nil => exact .nil
  | cons hop _ ih => exact List.rel_append (h.call? hop) (ih (h.apply hop))

/-- Where each write is judged no more strictly, no more of them are suppressed. -/
theorem countP_suppressed_le {cs cs' : List Call} (h : List.Forall₂ Call.Eases cs cs') :
    cs'.countP (·.admission = .suppressed) ≤ cs.countP (·.admission = .suppressed) := by
  induction h with
  | nil => exact Nat.le_refl _
  | @cons c c' cs cs' hfirst _ ih =>
    rw [List.countP_cons, List.countP_cons]
    refine Nat.add_le_add ih ?_
    cases hverdict : c.admission with
    | admitted => simp [hfirst.admitted hverdict]
    | suppressed =>
      simp only [decide_true, if_true]
      split <;> omega

/-! ### New limiters -/

/-- Two new limiters of one size are asked about writes, and cleared, in step: with the same keys,
    times and periods, and with thresholds that are never lower for the second one. Then the second
    one admits each write that the first one admits, and suppresses no more of them in all, and
    both have the same windows, used in the same order, after every operation. -/
theorem raised_admits {capacity capacity' : Nat} (hsize : max capacity 1 = max capacity' 1)
    (hops : List.Forall₂ (Op.Raises quota quota') ops ops') :
    let start := new quota capacity true
    let start' := new quota' capacity' true
    List.Forall₂ Call.Eases (start.calls ops) (start'.calls ops') ∧
      (∀ n, (start.after (ops.take n)).windows = (start'.after (ops'.take n)).windows) ∧
      (start'.after ops').suppressed ≤ (start.after ops).suppressed := by
  intro start start'
  have hstart : Synchronous quota quota' start start' :=
    ⟨rfl, rfl, rfl, rfl, congrArg (RecencyMap.mk [] 0) hsize⟩
  have hcalls := hstart.calls hops
  refine ⟨hcalls, fun n => (hstart.after (List.forall₂_take n hops)).windows, ?_⟩
  rw [(counters_after hstart.enabled ops).2, (counters_after hstart.enabled' ops').2]
  exact Nat.add_le_add_left (countP_suppressed_le hcalls) _

/-- Writes with two keys, of which a limiter of size one forgets one whenever it is asked about the
    other, while the clock goes back once; the threshold for those without a quota of their own is
    the limiter's. -/
def alternating (threshold : UInt32) : List Op :=
  [.check (some ⟨1, threshold⟩) "BOOT" sampleSite 5000,
    .check (some ⟨1, threshold⟩) "BOOT" sampleSite 5001,
    .check (some ⟨1, threshold⟩) "BOOT" sampleSite 5002, .check none "OTHER" sampleSite 5003,
    .check none "OTHER" sampleSite 5004, .check none "OTHER" sampleSite 4999, .clear,
    .check none "OTHER" sampleSite 4999, .check none "OTHER" sampleSite 4999]

/-- Two limiters of size one are asked about `alternating` keys, with thresholds of 0 and 1 in the
    first one and of 2 and 4 in the second one: the second one admits what the first one does, and
    more, with the same windows in the end. -/
theorem raised_admits_alternating :
    let start := new ⟨5, 1⟩ 0 true
    let start' := new ⟨5, 4⟩ 1 true
    max 0 1 = max 1 1 ∧
      List.Forall₂ (Op.Raises ⟨5, 1⟩ ⟨5, 4⟩) (alternating 0) (alternating 2) ∧
      List.Forall₂ Call.Eases (start.calls (alternating 0)) (start'.calls (alternating 2)) ∧
      (start.calls (alternating 0)).map (·.admission)
        = [.admitted, .suppressed, .suppressed, .admitted, .suppressed, .admitted, .admitted,
          .suppressed] ∧
      (start'.calls (alternating 2)).map (·.admission)
        = [.admitted, .admitted, .suppressed, .admitted, .admitted, .admitted, .admitted,
          .admitted] ∧
      (start.after (alternating 0)).windows = (start'.after (alternating 2)).windows ∧
      (start'.after (alternating 2)).suppressed ≤ (start.after (alternating 0)).suppressed := by
  intro start start'
  have hsize : max 0 1 = max 1 1 := rfl
  have hown : (⟨1, 0⟩ : Quota).threshold ≤ (⟨1, 2⟩ : Quota).threshold := by decide
  have hcommon : (⟨5, 1⟩ : Quota).threshold ≤ (⟨5, 4⟩ : Quota).threshold := by decide
  have hops : List.Forall₂ (Op.Raises ⟨5, 1⟩ ⟨5, 4⟩) (alternating 0) (alternating 2) :=
    .cons (.check rfl rfl hown) <| .cons (.check rfl rfl hown) <| .cons (.check rfl rfl hown) <|
      .cons (.check rfl rfl hcommon) <| .cons (.check rfl rfl hcommon) <|
      .cons (.check rfl rfl hcommon) <| .cons .clear <| .cons (.check rfl rfl hcommon) <|
      .cons (.check rfl rfl hcommon) .nil
  obtain ⟨hcalls, hwindows, hcounters⟩ := raised_admits hsize hops
  exact ⟨hsize, hops, hcalls, by decide +kernel, by decide +kernel, hwindows 9, hcounters⟩

end Limiter

end EventReporter
