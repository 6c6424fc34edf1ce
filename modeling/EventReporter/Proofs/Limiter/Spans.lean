import EventReporter.Limiter.History
import Mathlib.Data.List.Basic
namespace EventReporter

/-!
# Runs of a rate window

The writes of one call site fall into spans: the first write of a span opens a window, and the
others come before that window is over. What a window says depends only on how many writes it has
seen. A period meets at most two windows, which bounds the writes that are admitted in it.

* `isOver_iff` : when a window is over.
* `exists_split` : the verdicts of a window on writes in order of time.
* `Split.countP_le` : how many writes are admitted in a period.
-/

namespace Window

variable {w : Window} {quota : Quota} {now : UInt64}

/-- No time has the latest second there is, so that a sum of seconds that is cut off at
    `maxSecond` is as good as the sum itself. -/
theorem second_lt_maxSecond (now : UInt64) : second now < maxSecond := by
  have hnow := now.toNat_lt
  have hsize : UInt64.size = 2 ^ 64 := rfl
  unfold second maxSecond
  omega

/-- `second` keeps the order of times. -/
theorem second_le {now later : UInt64} (h : now ≤ later) : second now ≤ second later :=
  Nat.div_le_div_right (UInt64.le_iff_toNat_le.mp h)

/-- `isOver` a period after the second of a window, or if the clock has gone back behind it. -/
theorem isOver_iff :
    w.isOver quota now ↔
      second w.start + quota.period.toNat ≤ second now ∨ second now < second w.start := by
  have hnow := second_lt_maxSecond now
  unfold isOver
  rw [Bool.or_eq_true, decide_eq_true_iff, decide_eq_true_iff]
  -- the sum of seconds is not cut off where it matters, by `hnow`
  omega

/-- `advance` opens a new window where one is over, and admits the write that does. -/
theorem advance_of_isOver (h : w.isOver quota now) :
    advance (some w) quota now = (⟨now, 1⟩, .admitted) :=
  if_pos h

/-- `advance` counts a write in a window that goes on, and admits it up to the threshold. -/
theorem advance_of_not_isOver (h : ¬ w.isOver quota now) :
    advance (some w) quota now =
      (w.tick, if w.tick.count ≤ quota.threshold.toNat then .admitted else .suppressed) :=
  if_neg h

/-- No threshold is greater than `maxCount`. -/
theorem threshold_le (quota : Quota) : quota.threshold.toNat ≤ maxCount := by
  have hlt := quota.threshold.toNat_lt
  have hsize : UInt32.size = 2 ^ 32 := rfl
  unfold maxCount
  omega

end Window

namespace Limiter

variable {quota : Quota} {w : Window} {current : Option Window} {cs rest : List Call} {c : Call}

/-! ### Verdicts of a window -/

/-- The verdicts are those of a window, if there is one, on writes that come one after the
    other. -/
def Replays (quota : Quota) : Option Window → List Call → Prop
  | _, [] => True
  | current, c :: rest =>
    c.admission = (Window.advance current quota c.now).2 ∧
      Replays quota (some (Window.advance current quota c.now).1) rest

/-- A write with a place after `n` others in its window is admitted. -/
def Allowed (quota : Quota) (n : Nat) : Prop :=
  n + 1 ≤ quota.threshold.toNat ∨ quota.threshold.toNat = Window.maxCount

/-- Some writes come before a window from the second `opening` on is over, which has seen `n`
    others before. -/
structure Continues (quota : Quota) (opening n : Nat) (calls : List Call) : Prop where
  /-- They come while the window runs. -/
  within : ∀ c ∈ calls, opening ≤ Window.second c.now ∧
    Window.second c.now < opening + quota.period.toNat
  /-- They are admitted as long as there are not too many. -/
  verdicts : ∀ i (h : i < calls.length), calls[i].admission = .admitted ↔ Allowed quota (n + i)

/-- A window with no more writes `Continues`. -/
theorem continues_nil (quota : Quota) (opening n : Nat) : Continues quota opening n [] where
  within := fun _ hc => absurd hc List.not_mem_nil
  verdicts := fun _ h => absurd h (Nat.not_lt_zero _)

/-- A write that comes first in what is left of a window: the verdicts behind it are those of
    places one further on. -/
theorem Continues.cons {opening n : Nat} (hrest : Continues quota opening (n + 1) rest)
    (hwithin : opening ≤ Window.second c.now ∧
      Window.second c.now < opening + quota.period.toNat)
    (hverdict : c.admission = .admitted ↔ Allowed quota n) :
    Continues quota opening n (c :: rest) where
  within := List.forall_mem_cons.mpr ⟨hwithin, hrest.within⟩
  verdicts := by
    intro i h
    cases i with
    | zero => exact hverdict
    | succ i =>
      have hi := hrest.verdicts i (Nat.lt_of_succ_lt_succ h)
      rwa [Nat.add_right_comm] at hi

/-- A window that has seen as many writes as it can count goes on as if it counted on, since no
    threshold is beyond that number. -/
theorem Continues.of_min {opening n : Nat}
    (h : Continues quota opening (min n Window.maxCount) cs) : Continues quota opening n cs where
  within := h.within
  verdicts := by
    intro i hi
    have hthreshold := Window.threshold_le quota
    rw [h.verdicts i hi]
    unfold Allowed
    omega

/-- What a window says to its next write, after `tick`, is `Allowed` for the writes before that
    one. -/
theorem allowed_iff (quota : Quota) (w : Window) :
    w.tick.count ≤ quota.threshold.toNat ↔ Allowed quota w.count := by
  have hthreshold := Window.threshold_le quota
  show min (w.count + 1) Window.maxCount ≤ _ ↔ _
  unfold Allowed
  omega

/-! ### Spans -/

/-- The writes of one window. -/
structure Span where
  /-- The write that opened it. -/
  opener : Call
  /-- The others, in order. -/
  others : List Call

namespace Span

/-- All writes of a window. -/
def calls (s : Span) : List Call :=
  s.opener :: s.others

/-- The second in which a window was opened. -/
def opening (s : Span) : Nat :=
  Window.second s.opener.now

/-- The writes are what a window of a quota lets be. -/
structure Fits (quota : Quota) (s : Span) : Prop where
  /-- The others come before the window is over, so that a write that comes a period after the
      first opens the next one. -/
  within : ∀ c ∈ s.others, s.opening ≤ Window.second c.now ∧
    Window.second c.now < s.opening + quota.period.toNat
  /-- The first is admitted, and so are the others up to the threshold. -/
  verdicts : ∀ i (h : i < s.calls.length), s.calls[i].admission = .admitted ↔
    i = 0 ∨ i + 1 ≤ quota.threshold.toNat ∨ quota.threshold.toNat = Window.maxCount

/-- A write that opens a window, and others that come after it, `Fits` as one span. -/
theorem fits_of_continues {s : Span} (hopener : s.opener.admission = .admitted)
    (hothers : Continues quota s.opening 1 s.others) : s.Fits quota where
  within := hothers.within
  verdicts := by
    intro i h
    cases i with
    | zero => simpa [calls] using hopener
    | succ i =>
      -- the window has seen the opener before the others
      have hi := hothers.verdicts i (Nat.lt_of_succ_lt_succ h)
      unfold Allowed at hi
      rw [Nat.add_comm 1 i] at hi
      simpa [calls] using hi

end Span

/-! ### Writes in order of time -/

/-- Writes are made up of some that come while a window runs, and of spans. -/
structure Since (quota : Quota) (w : Window) (cs running : List Call) (spans : List Span) :
    Prop where
  /-- These are all the writes. -/
  parts : cs = running ++ spans.flatMap Span.calls
  /-- The first ones belong to the window. -/
  continues : Continues quota (Window.second w.start) w.count running
  /-- The others belong to windows that were opened by them. -/
  fits : ∀ s ∈ spans, s.Fits quota
  /-- Windows are opened at least a period apart. -/
  apart : (Window.second w.start :: spans.map Span.opening).IsChain
    fun o o' => o + quota.period.toNat ≤ o'

/-- The write that opened the window, and its writes, are one more span. -/
theorem Since.fits_cons {running : List Call} {spans : List Span}
    (h : Since quota ⟨c.now, 1⟩ rest running spans) (hverdict : c.admission = .admitted) :
    ∀ s ∈ ⟨c, running⟩ :: spans, s.Fits quota :=
  List.forall_mem_cons.mpr ⟨Span.fits_of_continues hverdict h.continues, h.fits⟩

/-- The span of `Since.fits_cons` and the others are all the writes. -/
theorem Since.parts_cons {running : List Call} {spans : List Span}
    (h : Since quota ⟨c.now, 1⟩ rest running spans) :
    c :: rest = (⟨c, running⟩ :: spans).flatMap Span.calls := by
  rw [h.parts]
  rfl

/-- What comes after a write is not before it, by the second. -/
theorem second_le_of_pairwise (hclock : ((c :: rest).map (·.now)).Pairwise (· ≤ ·)) :
    ∀ d ∈ rest, Window.second c.now ≤ Window.second d.now := by
  intro d hd
  have hle := (List.pairwise_cons.mp hclock).1 d.now (List.mem_map_of_mem hd)
  exact Window.second_le hle

/-- A window on writes in order of time, none of which comes before it, splits them as `Since` has
    it: those that it judges, and those of the windows opened after it. -/
theorem exists_since (hreplays : Replays quota (some w) cs)
    (hclock : (cs.map (·.now)).Pairwise (· ≤ ·))
    (hsince : ∀ c ∈ cs, Window.second w.start ≤ Window.second c.now) :
    ∃ running spans, Since quota w cs running spans := by
  -- on the writes, for every window
  induction cs generalizing w with
  | nil => exact ⟨[], [], rfl, continues_nil .., by simp, by simp⟩
  | cons c rest ih =>
    obtain ⟨hverdict, hrest⟩ := hreplays
    have hlater := second_le_of_pairwise hclock
    have hclock' := (List.pairwise_cons.mp hclock).2
    have hc := hsince c List.mem_cons_self
    by_cases hover : w.isOver quota c.now
    · -- the write opens a window
      rw [Window.advance_of_isOver hover] at hverdict hrest
      obtain ⟨running, spans, h⟩ := ih hrest hclock' hlater
      -- time does not go back here, so the window is over because its period is
      have hopening : Window.second w.start + quota.period.toNat ≤ Window.second c.now := by
        have hpast := Window.isOver_iff.mp hover
        omega
      exact ⟨[], ⟨c, running⟩ :: spans, h.parts_cons, continues_nil .., h.fits_cons hverdict,
        List.isChain_cons_cons.mpr ⟨hopening, h.apart⟩⟩
    · -- the window goes on
      rw [Window.advance_of_not_isOver hover] at hverdict hrest
      obtain ⟨running, spans, hparts, hcontinues, hfits, hapart⟩ :=
        ih hrest hclock' fun d hd => hsince d (List.mem_cons_of_mem c hd)
      have hmore : Continues quota (Window.second w.start) (w.count + 1) running :=
        hcontinues.of_min
      refine ⟨c :: running, spans, congrArg (c :: ·) hparts, hmore.cons ?_ ?_, hfits, hapart⟩
      · rw [Window.isOver_iff] at hover
        omega
      · rw [hverdict, ← allowed_iff]
        split
        · next hle => exact iff_of_true rfl hle
        · next hle => exact iff_of_false Admission.noConfusion hle

/-- Writes are made up of some that come while a window runs that was there before, if any, and of
    spans. -/
structure Split (quota : Quota) (current : Option Window) (cs running : List Call)
    (spans : List Span) : Prop where
  /-- These are all the writes. -/
  parts : cs = running ++ spans.flatMap Span.calls
  /-- The first ones, if any, belong to the window that was there, which is over when the next
      one is opened. -/
  running : running = [] ∨ ∃ w, current = some w ∧
    Continues quota (Window.second w.start) w.count running ∧
    ∀ s ∈ spans, Window.second w.start + quota.period.toNat ≤ s.opening
  /-- The others belong to windows that were opened by them. -/
  fits : ∀ s ∈ spans, s.Fits quota
  /-- Windows are opened at least a period apart. -/
  apart : (spans.map Span.opening).IsChain fun o o' => o + quota.period.toNat ≤ o'

/-- If there was no window, every write belongs to a span. -/
theorem Split.running_eq_nil {running : List Call} {spans : List Span}
    (h : Split quota none cs running spans) : running = [] := by
  rcases h.running with hnil | ⟨w, hw, _⟩
  · exact hnil
  · cases hw

/-- Windows that are a period apart from the next are so from all that follow. -/
theorem pairwise_of_isChain {openings : List Nat}
    (h : openings.IsChain fun o o' => o + quota.period.toNat ≤ o') :
    openings.Pairwise fun o o' => o + quota.period.toNat ≤ o' := by
  have : IsTrans Nat fun o o' => o + quota.period.toNat ≤ o' := ⟨fun _ _ _ h h' => by omega⟩
  exact List.isChain_iff_pairwise.mp h

/-- The first write opens a window, and `exists_since` splits the others. -/
theorem exists_split_opened (current : Option Window) (hverdict : c.admission = .admitted)
    (hrest : Replays quota (some ⟨c.now, 1⟩) rest)
    (hclock : ((c :: rest).map (·.now)).Pairwise (· ≤ ·)) :
    ∃ running spans, Split quota current (c :: rest) running spans := by
  obtain ⟨running, spans, h⟩ :=
    exists_since hrest (List.pairwise_cons.mp hclock).2 (second_le_of_pairwise hclock)
  exact ⟨[], ⟨c, running⟩ :: spans, h.parts_cons, .inl rfl, h.fits_cons hverdict, h.apart⟩

/-- Writes in order of time, with the verdicts of the window that was there before, if any, split
    as `Split` has it. -/
theorem exists_split (hreplays : Replays quota current cs)
    (hclock : (cs.map (·.now)).Pairwise (· ≤ ·)) :
    ∃ running spans, Split quota current cs running spans := by
  cases cs with
  | nil => exact ⟨[], [], rfl, .inl rfl, by simp, by simp⟩
  | cons c rest =>
    cases current with
    | none => exact exists_split_opened none hreplays.1 hreplays.2 hclock
    | some w =>
      -- once a write is not before the window, none of the later ones is
      by_cases hback : Window.second c.now < Window.second w.start
      · -- the clock has gone back, and the window is over
        have hover : w.isOver quota c.now := Window.isOver_iff.mpr (.inr hback)
        obtain ⟨hverdict, hrest⟩ := hreplays
        rw [Window.advance_of_isOver hover] at hverdict hrest
        exact exists_split_opened (some w) hverdict hrest hclock
      · have hsince : ∀ d ∈ c :: rest, Window.second w.start ≤ Window.second d.now := by
          refine List.forall_mem_cons.mpr ⟨Nat.not_lt.mp hback, fun d hd => ?_⟩
          exact Nat.le_trans (Nat.not_lt.mp hback) (second_le_of_pairwise hclock d hd)
        obtain ⟨running, spans, h⟩ := exists_since hreplays hclock hsince
        have hpairs := List.pairwise_cons.mp (pairwise_of_isChain h.apart)
        refine ⟨running, spans, h.parts, .inr ⟨w, rfl, h.continues, fun s hs => ?_⟩, h.fits,
          hpairs.2.isChain⟩
        exact hpairs.1 s.opening (List.mem_map_of_mem hs)

/-! ### Writes that are admitted -/

/-- A write is admitted, in some milliseconds from `a` on. -/
def AdmittedIn (a len : Nat) (c : Call) : Prop :=
  c.admission = .admitted ∧ a ≤ c.now.toNat ∧ c.now.toNat < a + len

instance (a len : Nat) (c : Call) : Decidable (AdmittedIn a len c) :=
  inferInstanceAs (Decidable (_ ∧ _))

/-- Elements with a property that none has from a place on are no more than the places before. -/
theorem countP_le_of_forall_lt {p : Call → Bool} {m : Nat}
    (h : ∀ i (hi : i < cs.length), p cs[i] → i < m) : cs.countP p ≤ m := by
  induction cs generalizing m with
  | nil => exact Nat.zero_le m
  | cons c rest ih =>
    -- if the first element has the property, then there is one place less for the rest
    by_cases hc : p c
    · have hpos : 0 < m := h 0 (Nat.zero_lt_succ _) hc
      have hrest : rest.countP p ≤ m - 1 := by
        refine ih fun i hi hp => ?_
        have hlt : i + 1 < m := h (i + 1) (Nat.succ_lt_succ hi) hp
        omega
      rw [List.countP_cons_of_pos hc]
      omega
    · rw [List.countP_cons_of_neg hc]
      refine ih fun i hi hp => ?_
      have hlt : i + 1 < m := h (i + 1) (Nat.succ_lt_succ hi) hp
      omega

/-- A period that meets a window is over before the next but one is opened. -/
theorem not_admittedIn_of_late {c d : Call} {o a : Nat} (hfrom : a ≤ c.now.toNat)
    (hc : Window.second c.now < o + quota.period.toNat)
    (hd : o + quota.period.toNat + quota.period.toNat ≤ Window.second d.now) :
    ¬ AdmittedIn a (1000 * quota.period.toNat) d := by
  rintro ⟨_, _, hto⟩
  unfold Window.second at hc hd
  omega

/-- Of windows that are a period apart at most two meet a period, by `not_admittedIn_of_late`. -/
theorem countP_parts_le {parts : List (Nat × List Call)} {a m : Nat}
    (hwithin : ∀ s ∈ parts, ∀ c ∈ s.2, s.1 ≤ Window.second c.now ∧
      Window.second c.now < s.1 + quota.period.toNat)
    (hapart : (parts.map Prod.fst).Pairwise fun o o' => o + quota.period.toNat ≤ o')
    (hcount : ∀ s ∈ parts, s.2.countP (AdmittedIn a (1000 * quota.period.toNat) ·) ≤ m) :
    (parts.flatMap Prod.snd).countP (AdmittedIn a (1000 * quota.period.toNat) ·) ≤ 2 * m := by
  -- on the windows: those before the first that meets the period do not count
  induction parts with
  | nil => exact Nat.zero_le _
  | cons s rest ih =>
    obtain ⟨hfirst, hwithin'⟩ := List.forall_mem_cons.mp hwithin
    obtain ⟨hfew, hcount'⟩ := List.forall_mem_cons.mp hcount
    obtain ⟨hlater, hapart'⟩ := List.pairwise_cons.mp hapart
    rw [List.flatMap_cons, List.countP_append]
    by_cases hmeets : ∃ c ∈ s.2, AdmittedIn a (1000 * quota.period.toNat) c
    · obtain ⟨c, hc, _, hfrom, _⟩ := hmeets
      have hnext : (rest.flatMap Prod.snd).countP
          (AdmittedIn a (1000 * quota.period.toNat) ·) ≤ m := by
        cases rest with
        | nil => exact Nat.zero_le m
        | cons s' rest' =>
          -- of the windows behind this one only the next can meet the period
          have hlate : (rest'.flatMap Prod.snd).countP
              (AdmittedIn a (1000 * quota.period.toNat) ·) = 0 := by
            rw [List.countP_eq_zero]
            intro d hd hp
            obtain ⟨s'', hs'', hd⟩ := List.mem_flatMap.mp hd
            have hs' := hlater s'.1 List.mem_cons_self
            have hs := (List.pairwise_cons.mp hapart').1 s''.1 (List.mem_map_of_mem hs'')
            have hopen := (hwithin' s'' (List.mem_cons_of_mem s' hs'') d hd).1
            have hfar : s.1 + quota.period.toNat + quota.period.toNat ≤ Window.second d.now := by
              omega
            exact not_admittedIn_of_late hfrom (hfirst c hc).2 hfar (of_decide_eq_true hp)
          rw [List.flatMap_cons, List.countP_append, hlate]
          exact hcount' s' List.mem_cons_self
      omega
    · have hnone : s.2.countP (AdmittedIn a (1000 * quota.period.toNat) ·) = 0 := by
        rw [List.countP_eq_zero]
        exact fun c hc hp => hmeets ⟨c, hc, of_decide_eq_true hp⟩
      rw [hnone, Nat.zero_add]
      exact ih hwithin' hapart' hcount'

/-- No more writes are admitted than the threshold says, those before included: only places below
    it are `Allowed`. -/
theorem Continues.countP_le {opening n a len : Nat} (h : Continues quota opening n cs)
    (hthreshold : quota.threshold.toNat ≠ Window.maxCount) :
    cs.countP (AdmittedIn a len ·) ≤ max quota.threshold.toNat 1 := by
  refine countP_le_of_forall_lt fun i hi hp => ?_
  obtain ⟨hadmitted, _⟩ := of_decide_eq_true hp
  have hplace := ((h.verdicts i hi).mp hadmitted).resolve_right hthreshold
  omega

/-- No more writes of a span are admitted than the threshold says, but for the first. -/
theorem Span.Fits.countP_le {s : Span} {a len : Nat} (h : s.Fits quota)
    (hthreshold : quota.threshold.toNat ≠ Window.maxCount) :
    s.calls.countP (AdmittedIn a len ·) ≤ max quota.threshold.toNat 1 := by
  refine countP_le_of_forall_lt fun i hi hp => ?_
  obtain ⟨hadmitted, _⟩ := of_decide_eq_true hp
  rcases (h.verdicts i hi).mp hadmitted with hfirst | hplace | hall
  · -- the first write is admitted whatever the threshold is
    omega
  · omega
  · exact absurd hall hthreshold

/-- All writes of a span come before its window is over. -/
theorem Span.Fits.within_calls {s : Span} (h : s.Fits quota) (hperiod : 0 < quota.period.toNat) :
    ∀ c ∈ s.calls, s.opening ≤ Window.second c.now ∧
      Window.second c.now < s.opening + quota.period.toNat := by
  refine List.forall_mem_cons.mpr ⟨⟨Nat.le_refl _, ?_⟩, h.within⟩
  show s.opening < s.opening + quota.period.toNat
  omega

/-- No more than twice as many writes are admitted in a period as in a window: `countP_parts_le`,
    with the window that was there before for one of the parts. -/
theorem Split.countP_le {running : List Call} {spans : List Span}
    (h : Split quota current cs running spans) (hperiod : 0 < quota.period.toNat)
    (hthreshold : quota.threshold.toNat ≠ Window.maxCount) (a : Nat) :
    cs.countP (AdmittedIn a (1000 * quota.period.toNat) ·) ≤ 2 * max quota.threshold.toNat 1 := by
  let parts := spans.map fun s => (s.opening, s.calls)
  have hwithin : ∀ p ∈ parts, ∀ c ∈ p.2,
      p.1 ≤ Window.second c.now ∧ Window.second c.now < p.1 + quota.period.toNat :=
    List.forall_mem_map.mpr fun s hs => (h.fits s hs).within_calls hperiod
  have hfew : ∀ p ∈ parts, p.2.countP (AdmittedIn a (1000 * quota.period.toNat) ·)
      ≤ max quota.threshold.toNat 1 :=
    List.forall_mem_map.mpr fun s hs => (h.fits s hs).countP_le hthreshold
  have hopenings : parts.map Prod.fst = spans.map Span.opening := List.map_map
  have hapart : (parts.map Prod.fst).Pairwise fun o o' => o + quota.period.toNat ≤ o' := by
    rw [hopenings]
    exact pairwise_of_isChain h.apart
  have hcalls : parts.flatMap Prod.snd = spans.flatMap Span.calls := List.flatMap_map ..
  rw [h.parts, ← hcalls]
  rcases h.running with rfl | ⟨w, _, hcontinues, hnext⟩
  · exact countP_parts_le hwithin hapart hfew
  · -- the window that was there is one more part
    have hfirst : ∀ o ∈ parts.map Prod.fst, Window.second w.start + quota.period.toNat ≤ o := by
      rw [hopenings]
      exact List.forall_mem_map.mpr hnext
    have hfew' : ∀ p ∈ (Window.second w.start, running) :: parts,
        p.2.countP (AdmittedIn a (1000 * quota.period.toNat) ·) ≤ max quota.threshold.toNat 1 :=
      List.forall_mem_cons.mpr ⟨hcontinues.countP_le hthreshold, hfew⟩
    exact countP_parts_le (List.forall_mem_cons.mpr ⟨hcontinues.within, hwithin⟩)
      (List.pairwise_cons.mpr ⟨hfirst, hapart⟩) hfew'

end Limiter

end EventReporter
