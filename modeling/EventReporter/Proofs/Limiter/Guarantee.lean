import EventReporter.Proofs.Limiter.Recency
import EventReporter.Proofs.Limiter.Spans
namespace EventReporter.Limiter

/-!
# What throttling guarantees

A limiter that does not forget a key says to its writes what a single window would say, whatever
it is asked about other keys in between. So the writes with one key fall into spans, and no more
of them are admitted in a period than in two windows.

* `replays_of_keeps` : the verdicts on one key are those of one window.
* `writes_split` : what follows for them.
-/

variable {l : Limiter} {k : UInt64} {quota : Quota} {op : Op} {ops : List Op}

/-! ### One write -/

section Check

variable (h : l.enabled = true) (own : Option Quota) (event : String) (site : CallSite)
  (now : UInt64)

include h

/-- The verdict of `check` is that of the window of the key, by `Window.advance`. -/
theorem check_admission : (l.check own event site now).2
    = (Window.advance (l.windows.find? (site.key event)) (own.getD l.quota) now).2 := by
  unfold check
  rw [if_pos h, ← RecencyMap.get_fst]
  simp only
  split
  · next hverdict => exact hverdict.symm
  · next hverdict => exact hverdict.symm

/-- After `check` the window of the key has gone on, and a use of the key is noted twice, by `get`
    and by `insert`. -/
theorem windows_check : (l.check own event site now).1.windows
    = (l.windows.get (site.key event)).2.insert (site.key event)
        (Window.advance (l.windows.find? (site.key event)) (own.getD l.quota) now).1 := by
  unfold check
  rw [if_pos h, ← RecencyMap.get_fst]
  simp only
  split
  · rfl
  · rfl

end Check

/-! ### One operation -/

/-- A limiter that throttles goes on to do so. -/
theorem enabled_apply (h : l.enabled = true) (op : Op) : (l.apply op).enabled = true := by
  cases op with
  | clear => exact h
  | check own event site now =>
    show (l.check own event site now).1.enabled = true
    unfold check
    rw [if_pos h]
    simp only
    split
    · exact h
    · exact h

/-- The windows stay `Distinct`, one for each key. -/
theorem distinct_apply (h : l.enabled = true) (hdistinct : l.windows.Distinct) (op : Op) :
    (l.apply op).windows.Distinct := by
  cases op with
  | clear => exact RecencyMap.distinct_clear _
  | check own event site now =>
    show (l.check own event site now).1.windows.Distinct
    rw [windows_check h]
    exact (hdistinct.get _).insert _ _

/-- A write with another key makes the limiter forget a key, or changes nothing for it: the
    `insert` may have to evict this key. -/
theorem find?_apply_of_ne (h : l.enabled = true) (hdistinct : l.windows.Distinct)
    (hop : op.key? ≠ some k) :
    (l.apply op).windows.find? k = none ∨
      (l.apply op).windows.find? k = l.windows.find? k := by
  cases op with
  | clear => exact .inl (RecencyMap.find?_clear ..)
  | check own event site now =>
    have hk : site.key event ≠ k := fun hk => hop (congrArg some hk)
    have hget := RecencyMap.find?_get l.windows k (site.key event)
    show (l.check own event site now).1.windows.find? k = none ∨
      (l.check own event site now).1.windows.find? k = l.windows.find? k
    rw [windows_check h, ← hget]
    exact RecencyMap.find?_insert_of_ne (hdistinct.get _) hk _

/-- A write with a key is judged by the window of the key, which the limiter keeps. -/
theorem apply_of_key (h : l.enabled = true) (hop : op.key? = some k) :
    ∃ c, l.call? op = some c ∧ c.key = k ∧
      c.admission = (Window.advance (l.windows.find? k) c.quota c.now).2 ∧
      (l.apply op).windows.find? k
        = some (Window.advance (l.windows.find? k) c.quota c.now).1 := by
  cases op with
  | clear => cases hop
  | check own event site now =>
    obtain rfl : site.key event = k := Option.some.inj hop
    refine ⟨_, rfl, rfl, check_admission h own event site now, ?_⟩
    show (l.check own event site now).1.windows.find? (site.key event) = _
    rw [windows_check h]
    exact RecencyMap.find?_insert_self ..

/-- A write with another key is none of those with this one. -/
theorem call?_of_ne (hop : op.key? ≠ some k) : (l.call? op).toList.filter (·.key == k) = [] := by
  cases op with
  | clear => rfl
  | check own event site now =>
    have hk : site.key event ≠ k := fun hk => hop (congrArg some hk)
    exact List.filter_cons_of_neg (by simpa using hk)

/-! ### Writes with one key -/

/-- `callsOf` passes over an operation that does not ask about the key. -/
theorem callsOf_cons_of_ne (hop : op.key? ≠ some k) :
    l.callsOf k (op :: ops) = (l.apply op).callsOf k ops := by
  show ((l.call? op).toList ++ (l.apply op).calls ops).filter (·.key == k) = _
  rw [List.filter_append, call?_of_ne hop]
  rfl

/-- `callsOf` has the write of an operation that asks about the key in front. -/
theorem callsOf_cons_of_key {c : Call} (hcall : l.call? op = some c) (hk : c.key = k) :
    l.callsOf k (op :: ops) = c :: (l.apply op).callsOf k ops := by
  show ((l.call? op).toList ++ (l.apply op).calls ops).filter (·.key == k) = _
  rw [hcall]
  exact List.filter_cons_of_pos (by simpa using hk)

/-- Operations that do not ask about a key have no writes with it. -/
theorem callsOf_of_forall_ne (h : ∀ op ∈ ops, op.key? ≠ some k) : l.callsOf k ops = [] := by
  induction ops generalizing l with
  | nil => rfl
  | cons op ops ih =>
    obtain ⟨hop, hops⟩ := List.forall_mem_cons.mp h
    rw [callsOf_cons_of_ne hop]
    exact ih hops

/-- While a key has a window whenever it will be asked about again, the verdicts on it are those
    of its window: `Replays` goes through them one by one. -/
theorem replays_of_isSome (h : l.enabled = true) (hdistinct : l.windows.Distinct)
    (hquota : ∀ c ∈ l.callsOf k ops, c.quota = quota)
    (hkeeps : ∀ n < ops.length, (∃ op ∈ ops.drop n, op.key? = some k) →
      ((l.after (ops.take n)).windows.find? k).isSome) :
    Replays quota (l.windows.find? k) (l.callsOf k ops) := by
  -- on the operations, for every limiter
  induction ops generalizing l with
  | nil => exact trivial
  | cons op ops ih =>
    have hkeeps' : ∀ n < ops.length, (∃ op ∈ ops.drop n, op.key? = some k) →
        (((l.apply op).after (ops.take n)).windows.find? k).isSome :=
      fun n hn hlater => hkeeps (n + 1) (Nat.succ_lt_succ hn) hlater
    have hnext := ih (enabled_apply h op) (distinct_apply h hdistinct op)
    by_cases hop : op.key? = some k
    · obtain ⟨c, hcall, hk, hadmission, hwindow⟩ := apply_of_key h hop
      rw [callsOf_cons_of_key hcall hk] at hquota ⊢
      obtain ⟨hc, hquota⟩ := List.forall_mem_cons.mp hquota
      rw [hc] at hadmission hwindow
      have hrest := hnext hquota hkeeps'
      rw [hwindow] at hrest
      exact ⟨hadmission, hrest⟩
    · rw [callsOf_cons_of_ne hop] at hquota ⊢
      by_cases hlater : ∃ op ∈ ops, op.key? = some k
      · -- the window is still there, and so it is the same
        have hpos : 0 < ops.length := by
          obtain ⟨_, hmem, _⟩ := hlater
          exact List.length_pos_of_mem hmem
        have hthere : ((l.apply op).windows.find? k).isSome := hkeeps' 0 hpos hlater
        have hrest := hnext hquota hkeeps'
        rcases find?_apply_of_ne h hdistinct hop with hnone | hsame
        · rw [hnone] at hthere
          cases hthere
        · rwa [hsame] at hrest
      · -- there is nothing left to judge
        have hnone : ∀ op ∈ ops, op.key? ≠ some k := fun op hop hk => hlater ⟨op, hop, hk⟩
        rw [callsOf_of_forall_ne hnone]
        exact trivial

/-- If the limiter `Keeps` a key in between, the verdicts on it are those of one window, which is
    the one that was there before, or a new one. -/
theorem replays_of_keeps (h : l.enabled = true) (hdistinct : l.windows.Distinct)
    (hquota : ∀ c ∈ l.callsOf k ops, c.quota = quota) (hkeeps : l.Keeps k ops) :
    ∃ current, (current = none ∨ current = l.windows.find? k) ∧
      Replays quota current (l.callsOf k ops) := by
  -- on the operations: nothing is known of the window up to the first write with the key
  induction ops generalizing l with
  | nil => exact ⟨none, .inl rfl, trivial⟩
  | cons op ops ih =>
    by_cases hop : op.key? = some k
    · refine ⟨l.windows.find? k, .inr rfl, ?_⟩
      obtain ⟨c, hcall, hk, hadmission, hwindow⟩ := apply_of_key h hop
      rw [callsOf_cons_of_key hcall hk] at hquota ⊢
      obtain ⟨hc, hquota⟩ := List.forall_mem_cons.mp hquota
      rw [hc] at hadmission hwindow
      refine ⟨hadmission, ?_⟩
      -- from here on the window is there whenever it is needed
      rw [← hwindow]
      refine replays_of_isSome (enabled_apply h op) (distinct_apply h hdistinct op) hquota ?_
      intro n hn hlater
      exact hkeeps (n + 1) (Nat.succ_lt_succ hn) ⟨op, List.mem_cons_self, hop⟩ hlater
    · rw [callsOf_cons_of_ne hop] at hquota ⊢
      have hkeeps' : (l.apply op).Keeps k ops := by
        rintro n hn ⟨op', hop', hk⟩ hlater
        exact hkeeps (n + 1) (Nat.succ_lt_succ hn) ⟨op', List.mem_cons_of_mem op hop', hk⟩ hlater
      obtain ⟨current, hcurrent, hreplays⟩ :=
        ih (enabled_apply h op) (distinct_apply h hdistinct op) hquota hkeeps'
      refine ⟨current, ?_, hreplays⟩
      rcases hcurrent with hnone | hsome
      · exact .inl hnone
      · rcases find?_apply_of_ne h hdistinct hop with hnone | hsame
        · exact .inl (hsome.trans hnone)
        · exact .inr (hsome.trans hsame)

/-! ### The guarantee -/

/-- A limiter that throttles goes on to throttle, with one window for each key: `enabled_apply`
    and `distinct_apply`, by `after_induction`. -/
theorem Reachable.enabled_distinct (h : l.Reachable) :
    l.enabled = true ∧ l.windows.Distinct := by
  obtain ⟨quota, capacity, past, rfl⟩ := h
  refine after_induction (P := fun l => l.enabled = true ∧ l.windows.Distinct) ?_ ?_ past
  · exact ⟨rfl, RecencyMap.distinct_new _⟩
  · exact fun l op hl => ⟨enabled_apply hl.1 op, distinct_apply hl.1 hl.2 op⟩

/-- The writes with a key that have one quota, in order of time, are split into those of a window
    that was there before, if any, and those of windows that were opened by them, a period apart.
    In a period there are no more admitted than twice the threshold, or two. -/
theorem writes_split (hl : l.Reachable) (hperiod : 1 ≤ quota.period.toNat)
    (hquota : ∀ c ∈ l.callsOf k ops, c.quota = quota)
    (hclock : ((l.callsOf k ops).map (·.now)).Pairwise (· ≤ ·)) (hkeeps : l.Keeps k ops) :
    ∃ running spans, Split quota (l.windows.find? k) (l.callsOf k ops) running spans ∧
      (quota.threshold.toNat ≠ Window.maxCount → ∀ a,
        (l.callsOf k ops).countP (AdmittedIn a (1000 * quota.period.toNat) ·)
          ≤ 2 * max quota.threshold.toNat 1) := by
  obtain ⟨henabled, hdistinct⟩ := hl.enabled_distinct
  obtain ⟨current, hcurrent, hreplays⟩ := replays_of_keeps henabled hdistinct hquota hkeeps
  obtain ⟨running, spans, hsplit⟩ := exists_split hreplays hclock
  refine ⟨running, spans, ?_, fun hthreshold => hsplit.countP_le hperiod hthreshold⟩
  rcases hcurrent with rfl | rfl
  · exact ⟨hsplit.parts, .inl hsplit.running_eq_nil, hsplit.fits, hsplit.apart⟩
  · exact hsplit

/-- A place in a program. -/
def sampleSite : CallSite := ⟨"main", 7⟩

/-- A limiter with room for two keys, which knows one. -/
def sampleLimiter : Limiter :=
  (new defaultQuota 2 true).after [.check none "OTHER" sampleSite 500]

/-- Writes around the turn of a second, two of which are admitted in each, and one in between with
    another key. -/
def sampleOps : List Op :=
  [.check (some ⟨1, 2⟩) "BOOT" sampleSite 1900, .check none "OTHER" sampleSite 700,
    .check (some ⟨1, 2⟩) "BOOT" sampleSite 1950, .check (some ⟨1, 2⟩) "BOOT" sampleSite 1999,
    .check (some ⟨1, 2⟩) "BOOT" sampleSite 2000, .check (some ⟨1, 2⟩) "BOOT" sampleSite 2010]

/-- The limiter has no window for the key at first. Two writes are admitted in the window that the
    first one opens, and one is too many; two more are in the next window. In between there is a
    write with the key that the limiter knows. -/
theorem writes_split_sampleOps :
    let writes := sampleLimiter.callsOf (sampleSite.key "BOOT") sampleOps
    sampleLimiter.Reachable ∧ (∀ c ∈ writes, c.quota = ⟨1, 2⟩) ∧
      (writes.map (·.now)).Pairwise (· ≤ ·) ∧
      sampleLimiter.Keeps (sampleSite.key "BOOT") sampleOps ∧
      (∃ running spans, Split ⟨1, 2⟩ (sampleLimiter.windows.find? (sampleSite.key "BOOT"))
        writes running spans) ∧
      writes.map (·.admission) = [.admitted, .admitted, .suppressed, .admitted, .admitted] := by
  have hreachable : sampleLimiter.Reachable := ⟨defaultQuota, 2, _, rfl⟩
  have hquota : ∀ c ∈ sampleLimiter.callsOf (sampleSite.key "BOOT") sampleOps,
      c.quota = ⟨1, 2⟩ := by decide +kernel
  have hclock : ((sampleLimiter.callsOf (sampleSite.key "BOOT") sampleOps).map
      (·.now)).Pairwise (· ≤ ·) := by decide +kernel
  have hkeeps : sampleLimiter.Keeps (sampleSite.key "BOOT") sampleOps := by
    unfold Keeps
    decide +kernel
  obtain ⟨running, spans, hsplit, _⟩ :=
    writes_split hreachable (by decide) hquota hclock hkeeps
  exact ⟨hreachable, hquota, hclock, hkeeps, ⟨running, spans, hsplit⟩, by decide +kernel⟩

end EventReporter.Limiter
