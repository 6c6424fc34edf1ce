import EventReporter.Proofs.Limiter.Guarantee
import Mathlib.Data.Finset.Card
namespace EventReporter.Limiter

/-!
# Call sites are throttled independently

As long as the windows of all keys that a limiter is asked about have room, it forgets none of
them. Then what it says to the writes with a key is what a limiter would say that is asked about
this key only, and what it knows of is exactly the keys that it was asked about.

* `callsOf_eq_calls` : the verdicts on a key depend on the writes with this key only.
* `mem_keys_after` : which keys have a window.
* `verdicts_independent` : both together, with the counters.
-/

variable {l l' : Limiter} {k : UInt64} {op : Op} {ops : List Op}

/-! ### Room for windows -/

/-- There is room for the windows that there are, and for those that some operations open. -/
def Fits (l : Limiter) (ops : List Op) : Prop :=
  (l.windows.keys ++ keysOf ops).toFinset.card ≤ l.windows.capacity

/-- No operation changes the capacity. -/
theorem capacity_apply (l : Limiter) (op : Op) :
    (l.apply op).windows.capacity = l.windows.capacity := by
  cases op with
  | clear => rfl
  | check own event site now =>
    by_cases h : l.enabled = true
    · show (l.check own event site now).1.windows.capacity = _
      rw [windows_check h]
      exact RecencyMap.capacity_get _ _
    · rw [Bool.not_eq_true] at h
      show (l.check own event site now).1.windows.capacity = _
      rw [check_of_disabled h]

/-- `keysOf` begins with the key of the first operation. -/
theorem keysOf_cons_of_key (h : op.key? = some k) (ops : List Op) :
    keysOf (op :: ops) = k :: keysOf ops :=
  List.filterMap_cons_some h

/-- `Fits` leaves room for the window of a key that is asked about next: the keys with a window
    and this one are among those it counts. -/
theorem Fits.hasRoom (h : l.Fits (op :: ops)) (hdistinct : l.windows.Distinct)
    (hop : op.key? = some k) : l.windows.HasRoom k := by
  by_cases hmem : k ∈ l.windows.keys
  · exact .inl hmem
  · refine .inr ?_
    -- the windows that there are and the new one have different keys
    have hnodup : (k :: l.windows.keys).Nodup := List.nodup_cons.mpr ⟨hmem, hdistinct⟩
    have hsub : (k :: l.windows.keys).toFinset
        ⊆ (l.windows.keys ++ keysOf (op :: ops)).toFinset := by
      intro x hx
      rw [keysOf_cons_of_key hop]
      simp only [List.mem_toFinset, List.mem_cons, List.mem_append] at hx ⊢
      tauto
    have hcard := (Finset.card_le_card hsub).trans h
    rw [List.toFinset_card_of_nodup hnodup, List.length_cons,
      ← RecencyMap.size_eq_length_keys] at hcard
    exact hcard

/-- Which keys have a window after an operation for which there is room: those of before, and the
    one that was asked about. -/
theorem mem_keys_apply (h : l.enabled = true) (hdistinct : l.windows.Distinct)
    (hfits : l.Fits (op :: ops)) (x : UInt64) :
    x ∈ (l.apply op).windows.keys ↔ ∃ k, op.key? = some k ∧ (x = k ∨ x ∈ l.windows.keys) := by
  cases op with
  | clear => simp [apply, clear, RecencyMap.clear, RecencyMap.keys, Op.key?]
  | check own event site now =>
    have hroom := (hfits.hasRoom hdistinct rfl).get (site.key event)
    show x ∈ (l.check own event site now).1.windows.keys ↔ _
    rw [windows_check h, RecencyMap.mem_keys_insert hroom, RecencyMap.keys_get]
    simp [Op.key?]

/-- What `Fits` counts does not grow, since a key that gets a window was among those still to
    come. -/
theorem Fits.apply (h : l.Fits (op :: ops)) (henabled : l.enabled = true)
    (hdistinct : l.windows.Distinct) : (l.apply op).Fits ops := by
  unfold Fits
  rw [capacity_apply]
  refine (Finset.card_le_card fun x hx => ?_).trans h
  rw [List.mem_toFinset, List.mem_append] at hx ⊢
  rcases hx with hwindow | hlater
  · obtain ⟨k, hop, rfl | hbefore⟩ := (mem_keys_apply henabled hdistinct h x).mp hwindow
    · rw [keysOf_cons_of_key hop]
      exact .inr List.mem_cons_self
    · exact .inl hbefore
  · obtain ⟨later, hmem, hk⟩ := List.mem_filterMap.mp hlater
    exact .inr (List.mem_filterMap.mpr ⟨later, List.mem_cons_of_mem op hmem, hk⟩)

/-- A new limiter has no windows, so only the keys to come count. -/
theorem fits_new (quota : Quota) (capacity : Nat)
    (h : (keysOf ops).toFinset.card ≤ max capacity 1) : (new quota capacity true).Fits ops :=
  h

/-! ### Verdicts on one key -/

/-- Two limiters know the same of a key, and judge by the same quota. -/
structure Agree (k : UInt64) (l l' : Limiter) : Prop where
  /-- One throttles. -/
  enabled : l.enabled = true
  /-- So does the other. -/
  enabled' : l'.enabled = true
  /-- They have one quota. -/
  quota : l.quota = l'.quota
  /-- They have the same window for the key, or none. -/
  window : l.windows.find? k = l'.windows.find? k

/-- No operation changes the quota. -/
theorem quota_apply (l : Limiter) (op : Op) : (l.apply op).quota = l.quota := by
  cases op with
  | clear => rfl
  | check own event site now =>
    show (l.check own event site now).1.quota = l.quota
    unfold check
    split
    · simp only
      split
      · rfl
      · rfl
    · rfl

/-- Limiters that `Agree` on a key say the same to its writes. -/
theorem Agree.call?_eq (h : Agree k l l') (hop : op.concerns k) : l.call? op = l'.call? op := by
  cases op with
  | clear => rfl
  | check own event site now =>
    obtain rfl : site.key event = k := by simpa [Op.concerns, Op.key?] using hop
    simp only [call?, check_admission h.enabled, check_admission h.enabled', h.window, h.quota]

/-- Limiters that both make an operation which concerns the key go on to `Agree`. -/
theorem Agree.apply (h : Agree k l l') (hop : op.concerns k) :
    Agree k (l.apply op) (l'.apply op) where
  enabled := enabled_apply h.enabled op
  enabled' := enabled_apply h.enabled' op
  quota := by rw [quota_apply, quota_apply, h.quota]
  window := by
    cases op with
    | clear => rfl
    | check own event site now =>
      obtain rfl : site.key event = k := by simpa [Op.concerns, Op.key?] using hop
      show (l.check own event site now).1.windows.find? (site.key event)
        = (l'.check own event site now).1.windows.find? (site.key event)
      rw [windows_check h.enabled, windows_check h.enabled', RecencyMap.find?_insert_self,
        RecencyMap.find?_insert_self, h.window, h.quota]

/-- With room for all, they still `Agree` if one of them is asked about another key, since nothing
    is evicted for it. -/
theorem Agree.apply_left (h : Agree k l l') (hdistinct : l.windows.Distinct)
    (hfits : l.Fits (op :: ops)) (hop : op.concerns k = false) : Agree k (l.apply op) l' where
  enabled := enabled_apply h.enabled op
  enabled' := h.enabled'
  quota := (quota_apply l op).trans h.quota
  window := by
    rw [← h.window]
    cases op with
    | clear => cases hop
    | check own event site now =>
      have hk : site.key event ≠ k := by simpa [Op.concerns, Op.key?] using hop
      have hroom := (hfits.hasRoom hdistinct rfl).get (site.key event)
      show (l.check own event site now).1.windows.find? k = _
      rw [windows_check h.enabled, RecencyMap.find?_insert_of_room hroom hk, RecencyMap.find?_get]

/-- `callsOf` has the write of an operation that concerns the key in front. -/
theorem callsOf_cons_of_concerns (hop : op.concerns k) :
    l.callsOf k (op :: ops) = (l.call? op).toList ++ (l.apply op).callsOf k ops := by
  show ((l.call? op).toList ++ (l.apply op).calls ops).filter (·.key == k) = _
  rw [List.filter_append]
  congr 1
  cases op with
  | clear => rfl
  | check own event site now => exact List.filter_cons_of_pos hop

/-- The writes with a key are judged as if nobody had asked about other keys: the two limiters
    `Agree` at every step. -/
theorem callsOf_eq_calls (h : Agree k l l') (hdistinct : l.windows.Distinct)
    (hfits : l.Fits ops) : l.callsOf k ops = l'.calls (ops.filter (Op.concerns k)) := by
  -- on the operations, with one limiter that makes them all and one that skips some
  induction ops generalizing l l' with
  | nil => rfl
  | cons op ops ih =>
    have hdistinct' := distinct_apply h.enabled hdistinct op
    have hfits' := hfits.apply h.enabled hdistinct
    by_cases hop : op.concerns k
    · rw [callsOf_cons_of_concerns hop, List.filter_cons_of_pos hop, h.call?_eq hop,
        ih (h.apply hop) hdistinct' hfits']
      rfl
    · have hne : op.key? ≠ some k := by
        intro hk
        simp [Op.concerns, hk] at hop
      rw [callsOf_cons_of_ne hne, List.filter_cons_of_neg hop]
      rw [Bool.not_eq_true] at hop
      exact ih (h.apply_left hdistinct hfits hop) hdistinct' hfits'

/-! ### Keys with a window -/

/-- `sinceClear` goes on with every operation that asks about a key, and begins again at any
    other. -/
theorem sinceClear_concat (ops : List Op) (op : Op) :
    sinceClear (ops ++ [op]) = if op.key?.isSome then sinceClear ops ++ [op] else [] := by
  unfold sinceClear
  rw [List.reverse_append, List.reverse_singleton, List.singleton_append, List.takeWhile_cons]
  split
  · exact List.reverse_cons
  · rfl

/-- `Fits` for a history is `Fits` for each part of it that is left, by `Fits.apply`. -/
theorem Fits.after {ops' : List Op} (h : l.Fits (ops ++ ops')) (henabled : l.enabled = true)
    (hdistinct : l.windows.Distinct) : (l.after ops).Fits ops' := by
  induction ops generalizing l with
  | nil => exact h
  | cons op ops ih =>
    exact ih (Fits.apply h henabled hdistinct) (enabled_apply henabled op)
      (distinct_apply henabled hdistinct op)

/-- The keys with a window are those that were asked about `sinceClear`. -/
theorem mem_keys_after (quota : Quota) (capacity : Nat)
    (h : (new quota capacity true).Fits ops) (x : UInt64) :
    x ∈ ((new quota capacity true).after ops).windows.keys ↔ x ∈ keysOf (sinceClear ops) := by
  -- on the operations, from the last one backwards
  induction ops using List.reverseRecOn with
  | nil => rfl
  | append_singleton ops op ih =>
    have hreachable : ((new quota capacity true).after ops).Reachable := ⟨_, _, ops, rfl⟩
    obtain ⟨henabled, hdistinct⟩ := hreachable.enabled_distinct
    have hlast : ((new quota capacity true).after ops).Fits [op] :=
      h.after rfl (RecencyMap.distinct_new _)
    have hbefore : (new quota capacity true).Fits ops := by
      refine (Finset.card_le_card fun y hy => ?_).trans h
      rw [List.mem_toFinset] at hy ⊢
      rw [keysOf, List.filterMap_append, ← List.append_assoc]
      exact List.mem_append_left _ hy
    rw [after_append]
    show x ∈ (((new quota capacity true).after ops).apply op).windows.keys ↔ _
    rw [mem_keys_apply henabled hdistinct hlast, sinceClear_concat]
    cases hop : op.key? with
    | none => simp [keysOf]
    | some k => simp [ih hbefore, keysOf, hop, or_comm]

/-! ### Counters -/

/-- An operation counts the verdict that it asks for. -/
theorem counters_apply (h : l.enabled = true) (op : Op) :
    (l.apply op).admitted
        = l.admitted + (l.call? op).toList.countP (·.admission = .admitted) ∧
      (l.apply op).suppressed
        = l.suppressed + (l.call? op).toList.countP (·.admission = .suppressed) := by
  cases op with
  | clear => exact ⟨rfl, rfl⟩
  | check own event site now =>
    simp only [apply, call?, check, if_pos h]
    split
    · exact ⟨rfl, rfl⟩
    · exact ⟨rfl, rfl⟩

/-- The counters count all verdicts: by induction on the operations, with `counters_apply` for
    each. -/
theorem counters_after (h : l.enabled = true) (ops : List Op) :
    (l.after ops).admitted = l.admitted + (l.calls ops).countP (·.admission = .admitted) ∧
      (l.after ops).suppressed
        = l.suppressed + (l.calls ops).countP (·.admission = .suppressed) := by
  induction ops generalizing l with
  | nil => exact ⟨rfl, rfl⟩
  | cons op ops ih =>
    obtain ⟨hadmitted, hsuppressed⟩ := ih (enabled_apply h op)
    obtain ⟨hadmitted', hsuppressed'⟩ := counters_apply h op
    show ((l.apply op).after ops).admitted = _ ∧ ((l.apply op).after ops).suppressed = _
    rw [hadmitted, hsuppressed, hadmitted', hsuppressed', calls, List.countP_append,
      List.countP_append, Nat.add_assoc, Nat.add_assoc]
    exact ⟨rfl, rfl⟩

/-- Each write gets one verdict, in its turn. -/
theorem map_key_calls (l : Limiter) (ops : List Op) : (l.calls ops).map (·.key) = keysOf ops := by
  induction ops generalizing l with
  | nil => rfl
  | cons op ops ih =>
    rw [calls, List.map_append, ih]
    cases op <;> rfl

/-- A verdict is one of two, so there are as many writes as verdicts of both kinds together. -/
theorem length_calls (l : Limiter) (ops : List Op) :
    (keysOf ops).length = (l.calls ops).countP (·.admission = .admitted)
      + (l.calls ops).countP (·.admission = .suppressed) := by
  rw [← map_key_calls l ops, List.length_map,
    List.length_eq_countP_add_countP (fun c : Call => decide (c.admission = .admitted))]
  congr 1
  refine List.countP_congr fun c _ => ?_
  cases c.admission <;> decide

/-! ### Independence -/

/-- If a new limiter has room for all keys that it is asked about, then it says to the writes with
    a key what any new limiter with its quota says that is asked about this key only. It has a
    window for each key that it was asked about since the windows were forgotten. Its counters
    say how many writes there were, and how many of them it has admitted. -/
theorem verdicts_independent (quota : Quota) (capacity other : Nat) (ops : List Op)
    (h : (keysOf ops).toFinset.card ≤ max capacity 1) :
    let start := new quota capacity true
    let l := start.after ops
    (∀ k, start.callsOf k ops = (new quota other true).calls (ops.filter (Op.concerns k))) ∧
      l.tracked = (keysOf (sinceClear ops)).toFinset.card ∧
      l.admitted = (start.calls ops).countP (·.admission = .admitted) ∧
      l.admitted + l.suppressed = (keysOf ops).length := by
  intro start l
  have hfits : start.Fits ops := fits_new quota capacity h
  obtain ⟨hadmitted, hsuppressed⟩ := counters_after (l := start) rfl ops
  have hreachable : l.Reachable := ⟨quota, capacity, ops, rfl⟩
  have hkeys : l.windows.keys.toFinset = (keysOf (sinceClear ops)).toFinset := by
    ext x
    rw [List.mem_toFinset, List.mem_toFinset]
    exact mem_keys_after quota capacity hfits x
  refine ⟨fun k => ?_, ?_, ?_, ?_⟩
  · exact callsOf_eq_calls ⟨rfl, rfl, rfl, rfl⟩ (RecencyMap.distinct_new _) hfits
  · have hnodup : l.windows.keys.Nodup := hreachable.enabled_distinct.2
    rw [← hkeys, List.toFinset_card_of_nodup hnodup]
    exact RecencyMap.size_eq_length_keys _
  · exact hadmitted.trans (Nat.zero_add _)
  · rw [hadmitted, hsuppressed, length_calls start ops]
    show 0 + _ + (0 + _) = _
    rw [Nat.zero_add, Nat.zero_add]

/-- Writes with two keys in turn, one of which admits one write in a window, while the clock jumps
    forth and back; in between everything is forgotten. -/
def twoSites : List Op :=
  [.check (some ⟨1, 1⟩) "BOOT" sampleSite 5000, .check none "OTHER" sampleSite 5100,
    .check (some ⟨1, 1⟩) "BOOT" sampleSite 5200, .check none "OTHER" sampleSite 9000,
    .check (some ⟨1, 1⟩) "BOOT" sampleSite 4000, .clear,
    .check (some ⟨1, 1⟩) "BOOT" sampleSite 4001, .check (some ⟨1, 1⟩) "BOOT" sampleSite 4002]

/-- A limiter with room for the two keys. -/
theorem verdicts_independent_twoSites :
    let start := new defaultQuota 2 true
    let l := start.after twoSites
    (keysOf twoSites).toFinset.card ≤ max 2 1 ∧
      (∀ k, start.callsOf k twoSites
        = (new defaultQuota 1 true).calls (twoSites.filter (Op.concerns k))) ∧
      (start.callsOf (sampleSite.key "BOOT") twoSites).map (·.admission)
        = [.admitted, .suppressed, .admitted, .admitted, .suppressed] ∧
      l.tracked = 1 ∧ l.admitted = 5 ∧ l.suppressed = 2 := by
  have hroom : (keysOf twoSites).toFinset.card ≤ max 2 1 := by decide +kernel
  obtain ⟨hcalls, htracked, hadmitted, hall⟩ := verdicts_independent defaultQuota 2 1 twoSites hroom
  refine ⟨hroom, hcalls, by decide +kernel, htracked.trans (by decide +kernel),
    hadmitted.trans (by decide +kernel), by decide +kernel⟩

end EventReporter.Limiter
