import EventReporter.Library
import EventReporter.Limiter.RecencyMap.History
import EventReporter.Proofs.Limiter.Recency
import Mathlib.Data.List.Induction
namespace EventReporter.RecencyMap

/-!
# Which keys a recency map keeps

The entries of a map, the one with the newest stamp first, have the keys that were used latest, in
that order, as many of them as there is room for. Every use puts its key in front, and the one that
has to go when there is no room is the last. No two stamps are the same, so that there is no choice
which one that is, in whatever order the entries are looked through.

* `oldest?_perm`, `evictOldest_perm` : the order of the entries does not matter to an eviction.
* `ByAge.insert` : an insertion puts its key in front.
* `keeps_latest` : which keys are there after any history, and with which values.
-/

variable {κ ν : Type} {m : RecencyMap κ ν} {entries entries' : List (Stamped κ ν)}
  {e o : Stamped κ ν} {k : κ} {v : ν}

/-! ### The oldest entry -/

/-- `oldest?` finds an entry if there is one. -/
theorem oldest?_eq_none_iff : oldest? entries = none ↔ entries = [] := by
  cases entries with
  | nil => simp [oldest?]
  | cons e rest =>
    simp only [oldest?, reduceCtorEq, iff_false]
    cases oldest? rest with
    | none => simp
    | some o => by_cases hlt : o.stamp < e.stamp <;> simp [hlt]

/-- `oldest?` finds an entry with a stamp that none is below. By induction on the entries, with
    the same comparison at each. -/
theorem oldest?_spec (h : oldest? entries = some o) :
    o ∈ entries ∧ ∀ e ∈ entries, o.stamp ≤ e.stamp := by
  induction entries generalizing o with
  | nil => cases h
  | cons x rest ih =>
    simp only [oldest?] at h
    cases hrest : oldest? rest with
    | none =>
      rw [hrest] at h
      cases h
      rw [oldest?_eq_none_iff] at hrest
      simp [hrest]
    | some y =>
      obtain ⟨hmem, hle⟩ := ih hrest
      rw [hrest] at h
      simp only at h
      by_cases hlt : y.stamp < x.stamp
      · rw [if_pos hlt] at h
        cases h
        refine ⟨List.mem_cons_of_mem x hmem, fun e he => ?_⟩
        rcases List.mem_cons.mp he with rfl | he
        · exact Nat.le_of_lt hlt
        · exact hle e he
      · rw [if_neg hlt] at h
        cases h
        refine ⟨List.mem_cons_self, fun e he => ?_⟩
        rcases List.mem_cons.mp he with rfl | he
        · exact Nat.le_refl _
        · exact Nat.le_trans (Nat.le_of_not_lt hlt) (hle e he)

/-- With different stamps there is one oldest entry. -/
theorem stamp_lt_of_oldest? (hstamps : (entries.map (·.stamp)).Nodup) (h : oldest? entries = some o)
    (he : e ∈ entries) (hne : e ≠ o) : o.stamp < e.stamp := by
  obtain ⟨hmem, hle⟩ := oldest?_spec h
  refine Nat.lt_of_le_of_ne (hle e he) fun heq => hne ?_
  exact List.inj_on_of_nodup_map hstamps he hmem heq.symm

/-- `oldest?` does not depend on the order of the entries, if their stamps are different. -/
theorem oldest?_perm (hstamps : (entries.map (·.stamp)).Nodup) (hperm : entries'.Perm entries) :
    oldest? entries' = oldest? entries := by
  cases h' : oldest? entries' with
  | none =>
    rw [oldest?_eq_none_iff] at h'
    rw [h', List.nil_perm] at hperm
    exact (oldest?_eq_none_iff.mpr hperm).symm
  | some o' =>
    obtain ⟨hmem', hle'⟩ := oldest?_spec h'
    cases h : oldest? entries with
    | none =>
      rw [oldest?_eq_none_iff] at h
      rw [h, List.perm_nil] at hperm
      rw [hperm] at hmem'
      cases hmem'
    | some o =>
      by_cases heq : o' = o
      · rw [heq]
      · have hlt := stamp_lt_of_oldest? hstamps h (hperm.mem_iff.mp hmem') heq
        have hle := hle' o (hperm.mem_iff.mpr (oldest?_spec h).1)
        omega

variable [DecidableEq κ]

/-- To leave out a key that is not there changes nothing. -/
theorem filter_key_ne (h : k ∉ entries.map (·.key)) : entries.filter (·.key ≠ k) = entries := by
  rw [List.filter_eq_self]
  intro x hx
  exact decide_eq_true fun hxk => h (List.mem_map.mpr ⟨x, hx, hxk⟩)

/-- With one entry for each key, to erase the one with a key is to leave out all. -/
theorem eraseP_key_eq_filter (h : (entries.map (·.key)).Nodup) (k : κ) :
    entries.eraseP (·.key == k) = entries.filter (·.key ≠ k) := by
  induction entries with
  | nil => rfl
  | cons x rest ih =>
    obtain ⟨hx, hrest⟩ := List.nodup_cons.mp h
    by_cases hk : x.key = k
    · rw [List.eraseP_cons_of_pos (by simpa using hk), List.filter_cons_of_neg (by simpa using hk),
        filter_key_ne (hk ▸ hx)]
    · simp [hk, ih hrest]

/-- `evictOldest` leaves out the key of the oldest entry. -/
theorem evictOldest_eq_filter (h : (entries.map (·.key)).Nodup) (ho : oldest? entries = some o) :
    evictOldest entries = entries.filter (·.key ≠ o.key) := by
  rw [evictOldest, ho]
  exact eraseP_key_eq_filter h o.key

/-- The entries that stay are the same, in whatever order they are looked through: `oldest?_perm`
    says which one goes. -/
theorem evictOldest_perm (hkeys : (entries.map (·.key)).Nodup)
    (hstamps : (entries.map (·.stamp)).Nodup) (hperm : entries'.Perm entries) :
    (evictOldest entries').Perm (evictOldest entries) := by
  have hsame := oldest?_perm hstamps hperm
  have hkeys' : (entries'.map (·.key)).Nodup := (hperm.map _).nodup_iff.mpr hkeys
  cases h : oldest? entries with
  | none =>
    rw [h] at hsame
    rw [oldest?_eq_none_iff] at h hsame
    rw [h, hsame]
  | some o =>
    rw [h] at hsame
    rw [evictOldest_eq_filter hkeys h, evictOldest_eq_filter hkeys' hsame]
    exact hperm.filter _

/-- Among entries in order, from the newest one on, the last one goes. -/
theorem evictOldest_newestFirst (hkeys : (entries.map (·.key)).Nodup)
    (hage : entries.Pairwise fun e e' => e'.stamp < e.stamp) :
    evictOldest entries = entries.dropLast := by
  rcases List.eq_nil_or_concat entries with rfl | ⟨init, o, rfl⟩
  · rfl
  · rw [List.concat_eq_append] at *
    rw [List.pairwise_append] at hage
    have hnewer : ∀ e ∈ init, o.stamp < e.stamp := fun e he => hage.2.2 e he o (by simp)
    have ho : oldest? (init ++ [o]) = some o := by
      cases h : oldest? (init ++ [o]) with
      | none => simp [oldest?_eq_none_iff] at h
      | some o' =>
        obtain ⟨hmem, hle⟩ := oldest?_spec h
        rcases List.mem_append.mp hmem with hinit | hlast
        · have hlt := hnewer o' hinit
          have := hle o (by simp)
          omega
        · rw [List.mem_singleton.mp hlast]
    -- no entry in front of the last one has its key, so none of them is left out
    have hother : o.key ∉ init.map (·.key) := by
      intro hmem
      rw [List.map_append, List.nodup_append] at hkeys
      exact hkeys.2.2 o.key hmem o.key (by simp) rfl
    rw [evictOldest_eq_filter hkeys ho, List.filter_append, filter_key_ne hother,
      List.dropLast_concat]
    simp

/-! ### The keys that were used latest -/

/-- The keys that were used since the map was cleared for the last time, each once, the one that was
    used latest first. -/
def latest (m : RecencyMap κ ν) (ops : List (Op κ ν)) : List κ :=
  (m.uses ops).dedup.reverse

/-! ### Entries by age -/

/-- `byAge` are the entries of a map, the one with the newest stamp first, and their keys are the
    first of `recent`, as many as the map has room for. -/
structure ByAge (m : RecencyMap κ ν) (recent : List κ) (byAge : List (Stamped κ ν)) : Prop where
  perm : byAge.Perm m.entries
  newestFirst : byAge.Pairwise fun e e' => e'.stamp < e.stamp
  keys_eq : byAge.map (·.key) = recent.take m.capacity
  stamp_le : ∀ e ∈ byAge, e.stamp ≤ m.clock

variable {recent : List κ} {byAge : List (Stamped κ ν)}

omit [DecidableEq κ] in
/-- A map without entries, of which no key was used. -/
theorem byAge_nil (h : m.entries = []) : m.ByAge [] [] where
  perm := by rw [h]
  newestFirst := List.Pairwise.nil
  keys_eq := List.take_nil.symm
  stamp_le := fun _ he => (List.not_mem_nil he).elim

omit [DecidableEq κ] in
theorem ByAge.keys_perm (h : m.ByAge recent byAge) : m.keys.Perm (recent.take m.capacity) := by
  rw [← h.keys_eq]
  exact (h.perm.map _).symm

omit [DecidableEq κ] in
theorem ByAge.nodup_keys (h : m.ByAge recent byAge) (hrecent : recent.Nodup) :
    (byAge.map (·.key)).Nodup := by
  rw [h.keys_eq]
  exact hrecent.sublist (List.take_sublist _ _)

omit [DecidableEq κ] in
theorem ByAge.nodup_stamps (h : m.ByAge recent byAge) : (byAge.map (·.stamp)).Nodup :=
  List.pairwise_map.mpr (h.newestFirst.imp fun hlt => Nat.ne_of_gt hlt)

omit [DecidableEq κ] in
theorem ByAge.length_le (h : m.ByAge recent byAge) : byAge.length ≤ m.capacity := by
  rw [← List.length_map (·.key), h.keys_eq]
  exact List.length_take_le _ _

omit [DecidableEq κ] in
theorem ByAge.size_eq (h : m.ByAge recent byAge) : m.size = byAge.length :=
  h.perm.length_eq.symm

/-- `put` leaves an entry in front of those with other keys, up to their order. -/
theorem put_perm (h : (entries.map (·.key)).Nodup) (e : Stamped κ ν) :
    (put entries e).Perm (e :: entries.filter (·.key ≠ e.key)) := by
  by_cases hmem : entries.any (·.key == e.key)
  · rw [put, if_pos hmem]
    rw [any_key_iff] at hmem
    induction entries with
    | nil => cases hmem
    | cons x rest ih =>
      obtain ⟨hx, hrest⟩ := List.nodup_cons.mp h
      by_cases hk : x.key = e.key
      · -- the entry is replaced here, and nowhere behind
        have hother : e.key ∉ rest.map (·.key) := hk ▸ hx
        have hmap : (rest.map fun y => if y.key = e.key then e else y) = rest := by
          refine (List.map_congr_left fun y hy => if_neg ?_).trans (List.map_id' rest)
          exact fun hye => hother (List.mem_map.mpr ⟨y, hy, hye⟩)
        rw [List.map_cons, if_pos hk, hmap, List.filter_cons_of_neg (by simpa using hk),
          filter_key_ne hother]
      · have hrestmem : e.key ∈ rest.map (·.key) := by
          rcases List.mem_cons.mp hmem with heq | hrestmem
          · exact absurd heq.symm hk
          · exact hrestmem
        rw [List.map_cons, if_neg hk, List.filter_cons_of_pos (by simpa using hk)]
        exact ((ih hrest hrestmem).cons x).trans (List.Perm.swap e x _)
  · rw [put, if_neg hmem]
    rw [any_key_iff] at hmem
    rw [filter_key_ne hmem]

/-- What is there after an `insert`: the new entry, and as many of the others as there is room
    for. If one has to go, it is the oldest one, and the last one in the order of age. -/
theorem ByAge.insert_perm (h : m.ByAge recent byAge) (hrecent : recent.Nodup)
    (hcapacity : 1 ≤ m.capacity) (k : κ) (v : ν) :
    ((⟨k, v, m.clock + 1⟩ :: byAge.filter (·.key ≠ k)).take m.capacity).Perm
      (m.insert k v).entries := by
  have hkeys := h.nodup_keys hrecent
  have hdistinct : (m.entries.map (·.key)).Nodup := (h.perm.map _).nodup_iff.mp hkeys
  have hdistinct' := hdistinct.sublist ((m.makeRoom_sublist k).map _)
  refine List.Perm.trans ?_ (put_perm hdistinct' ⟨k, v, m.clock + 1⟩).symm
  by_cases hroom : m.HasRoom k
  · -- the new entry fits in beside the others
    have hfits : (byAge.filter (·.key ≠ k)).length + 1 ≤ m.capacity := by
      rcases hroom with hmem | hfree
      · obtain ⟨x, hx, hxk⟩ := List.mem_map.mp hmem
        have hless : (byAge.filter (·.key ≠ k)).length < byAge.length :=
          List.length_filter_lt_length_iff_exists.mpr ⟨x, h.perm.mem_iff.mpr hx, by simp [hxk]⟩
        exact Nat.le_trans hless h.length_le
      · have hle := List.length_filter_le (·.key ≠ k) byAge
        rw [h.size_eq] at hfree
        omega
    rw [makeRoom_of_room hroom, List.take_of_length_le hfits]
    exact (h.perm.filter _).cons _
  · obtain ⟨hnew, hfull⟩ := not_or.mp hroom
    have hlength : byAge.length = m.capacity := by
      have := h.length_le
      have := h.size_eq
      omega
    -- the key is new and the map is full, so the oldest entry goes
    have hnew' : k ∉ byAge.map (·.key) := fun hmem => hnew ((h.perm.map _).mem_iff.mp hmem)
    have hevicted : m.makeRoom k = evictOldest m.entries :=
      if_pos ⟨by omega, fun hmem => hnew (any_key_iff.mp hmem)⟩
    have hnew'' : k ∉ (evictOldest m.entries).map (·.key) := fun hmem =>
      hnew (((evictOldest_sublist m.entries).map _).subset hmem)
    have hstamps : (m.entries.map (·.stamp)).Nodup := (h.perm.map _).nodup_iff.mp h.nodup_stamps
    rw [hevicted, filter_key_ne hnew', filter_key_ne hnew'', List.take_cons hcapacity]
    have hlast : byAge.take (m.capacity - 1) = evictOldest byAge := by
      rw [evictOldest_newestFirst hkeys h.newestFirst, List.dropLast_eq_take, hlength]
    rw [hlast]
    exact (evictOldest_perm hdistinct hstamps h.perm).cons _

/-- An `insert` puts its key in front, and leaves the others in their order. -/
theorem ByAge.insert (h : m.ByAge recent byAge) (hrecent : recent.Nodup)
    (hcapacity : 1 ≤ m.capacity) (k : κ) (v : ν) :
    (m.insert k v).ByAge (k :: recent.filter (· ≠ k))
      ((⟨k, v, m.clock + 1⟩ :: byAge.filter (·.key ≠ k)).take m.capacity) where
  perm := h.insert_perm hrecent hcapacity k v
  newestFirst := by
    refine List.Pairwise.sublist (List.take_sublist _ _) (List.pairwise_cons.mpr ⟨?_, ?_⟩)
    · intro x hx
      exact Nat.lt_succ_of_le (h.stamp_le x (List.mem_of_mem_filter hx))
    · exact h.newestFirst.sublist List.filter_sublist
  keys_eq := by
    have hkeys : (byAge.filter (·.key ≠ k)).map (·.key)
        = (recent.take m.capacity).filter (· ≠ k) := by
      rw [← h.keys_eq, List.filter_map]
      rfl
    rw [List.map_take, List.map_cons, hkeys]
    exact take_cons_filter hrecent k m.capacity
  stamp_le := by
    intro x hx
    rcases List.mem_cons.mp (List.mem_of_mem_take hx) with rfl | hold
    · exact Nat.le_refl _
    · exact Nat.le_succ_of_le (h.stamp_le x (List.mem_of_mem_filter hold))

/-- A `get` that finds something has the effect of an `insert` of what it finds. -/
theorem get_of_find? (h : m.find? k = some v) : m.get k = (some v, m.insert k v) := by
  have hroom : m.HasRoom k := by
    obtain ⟨x, hx, _⟩ := Option.map_eq_some_iff.mp h
    have hkey : x.key = k := by simpa using List.find?_some hx
    exact .inl (List.mem_map.mpr ⟨x, List.mem_of_find?_eq_some hx, hkey⟩)
  simp only [RecencyMap.get, h, RecencyMap.insert, makeRoom_of_room hroom]

/-- `find?` knows the keys that are there. -/
theorem find?_eq_none_iff : m.find? k = none ↔ k ∉ m.keys := by
  simp [find?, keys]

/-- `contains` is about `keys`. -/
theorem contains_iff : m.contains k = true ↔ k ∈ m.keys :=
  any_key_iff

/-! ### Histories -/

/-- No operation changes the capacity. -/
theorem capacity_apply (m : RecencyMap κ ν) (op : Op κ ν) : (m.apply op).capacity = m.capacity := by
  cases op with
  | get k => exact m.capacity_get k
  | insert k v => rfl
  | clear => rfl

/-- The capacity is the one that the map was made with, or 1. -/
theorem capacity_after (capacity : Nat) (ops : List (Op κ ν)) :
    ((new capacity : RecencyMap κ ν).after ops).capacity = max capacity 1 :=
  after_induction (P := fun m => m.capacity = max capacity 1) rfl
    (fun m op h => (capacity_apply m op).trans h) ops

/-- The clock advances by one at most. -/
theorem clock_apply_le (m : RecencyMap κ ν) (op : Op κ ν) : (m.apply op).clock ≤ m.clock + 1 := by
  cases op with
  | get k =>
    simp only [apply, RecencyMap.get]
    split
    · exact Nat.le_refl _
    · exact Nat.le_succ _
  | insert k v => exact Nat.le_refl _
  | clear => exact Nat.zero_le _

/-- The clock is not ahead of the number of operations, by `clock_apply_le` for each. -/
theorem clock_after_le (capacity : Nat) (ops : List (Op κ ν)) :
    ((new capacity : RecencyMap κ ν).after ops).clock ≤ ops.length := by
  induction ops using List.reverseRecOn with
  | nil => exact Nat.le_refl 0
  | append_singleton ops op ih =>
    rw [after_concat, List.length_append]
    exact Nat.le_trans (clock_apply_le _ op) (Nat.succ_le_succ ih)

/-- Every operation leaves the entries in the order in which their keys were used: a `get` that
    finds its key and an `insert` put it in front. -/
theorem ByAge.apply {used : List κ} (h : m.ByAge used.dedup.reverse byAge)
    (hcapacity : 1 ≤ m.capacity) (op : Op κ ν) :
    ∃ byAge', (m.apply op).ByAge (m.use used op).dedup.reverse byAge' := by
  have hnodup : used.dedup.reverse.Nodup := List.nodup_reverse.mpr (List.nodup_dedup used)
  cases op with
  | get k =>
    cases hfound : m.find? k with
    | none =>
      have hmiss : ¬ m.contains k := fun hk => find?_eq_none_iff.mp hfound (contains_iff.mp hk)
      have hsame : m.apply (.get k) = m := by simp [RecencyMap.apply, RecencyMap.get, hfound]
      rw [hsame, use, if_neg hmiss]
      exact ⟨byAge, h⟩
    | some v =>
      have hhit : m.contains k := by
        by_contra hmiss
        rw [find?_eq_none_iff.mpr fun hk => hmiss (contains_iff.mpr hk)] at hfound
        cases hfound
      rw [RecencyMap.apply, get_of_find? hfound, use, if_pos hhit, reverse_dedup_concat]
      exact ⟨_, h.insert hnodup hcapacity k v⟩
  | insert k v =>
    rw [use, reverse_dedup_concat]
    exact ⟨_, h.insert hnodup hcapacity k v⟩
  | clear => exact ⟨[], byAge_nil rfl⟩

/-- After any history the entries are in the order of `latest`, as far as there is room: by
    induction on the operations from the last one back, with `ByAge.apply`. -/
theorem byAge_after (capacity : Nat) (ops : List (Op κ ν)) :
    ∃ byAge, ((new capacity : RecencyMap κ ν).after ops).ByAge
      ((new capacity : RecencyMap κ ν).latest ops) byAge := by
  induction ops using List.reverseRecOn with
  | nil => exact ⟨[], byAge_nil rfl⟩
  | append_singleton ops op ih =>
    obtain ⟨byAge, h⟩ := ih
    have hcapacity : 1 ≤ ((new capacity : RecencyMap κ ν).after ops).capacity := by
      rw [capacity_after]
      exact Nat.le_max_right _ _
    rw [after_concat, latest, uses_concat]
    exact h.apply hcapacity op

/-- Every operation leaves one entry for each key. -/
theorem Distinct.apply (h : m.Distinct) (op : Op κ ν) : (m.apply op).Distinct := by
  cases op with
  | get k => exact h.get k
  | insert k v => exact h.insert k v
  | clear => exact m.distinct_clear

/-- After any history there is one entry for each key, by `after_induction`. -/
theorem distinct_after (capacity : Nat) (ops : List (Op κ ν)) :
    ((new capacity : RecencyMap κ ν).after ops).Distinct :=
  after_induction (distinct_new capacity) (fun _ op h => h.apply op) ops

/-- A value that is found is the last one that its key got: no operation changes the value of a
    key but an `insert` of that key, and some make the map forget it. -/
theorem lastInserted?_of_find? (capacity : Nat) (ops : List (Op κ ν))
    (h : ((new capacity : RecencyMap κ ν).after ops).find? k = some v) :
    lastInserted? k ops = some v := by
  induction ops using List.reverseRecOn with
  | nil => cases h
  | append_singleton ops op ih =>
    rw [after_concat] at h
    rw [lastInserted?_concat]
    cases op with
    | get k' =>
      rw [RecencyMap.apply, find?_get] at h
      exact ih h
    | insert k' v' =>
      rw [RecencyMap.apply] at h
      by_cases hk : k' = k
      · rw [hk, find?_insert_self] at h
        simpa [hk] using h
      · -- another key was inserted: this one was evicted, or has its value still
        rcases find?_insert_of_ne (distinct_after capacity ops) hk v' with hnone | hsame
        · rw [hnone] at h
          cases h
        · rw [hsame] at h
          simpa [hk] using ih h
    | clear =>
      rw [RecencyMap.apply, find?_clear] at h
      cases h

/-- After any history, a map has the keys that were used latest since it was cleared, as many as it
    has room for, each with the value that it got last. Giving a key that is there another value
    changes nothing else. All stamps are different and none is ahead of the clock, which counts no
    more than the operations; so there is one oldest entry, in whatever order the entries are looked
    through. -/
theorem keeps_latest (capacity : Nat) (ops : List (Op κ ν)) :
    let m := (new capacity : RecencyMap κ ν).after ops
    let latest := (new capacity : RecencyMap κ ν).latest ops
    m.keys.Perm (latest.take (max capacity 1)) ∧ m.keys.Nodup ∧
      m.size = min (max capacity 1) latest.length ∧
      (∀ k, m.find? k = if k ∈ latest.take (max capacity 1) then lastInserted? k ops else none) ∧
      (∀ k ∈ m.keys, ∀ v, (m.insert k v).keys = m.keys ∧
        ∀ k' ≠ k, (m.insert k v).find? k' = m.find? k') ∧
      (m.entries.map (·.stamp)).Nodup ∧ (∀ e ∈ m.entries, e.stamp ≤ m.clock) ∧
      m.clock ≤ ops.length ∧
      ∀ entries, entries.Perm m.entries →
        oldest? entries = oldest? m.entries ∧
          ∀ o, oldest? entries = some o → ∀ e ∈ entries, e ≠ o → o.stamp < e.stamp := by
  intro m latest
  obtain ⟨byAge, h⟩ := byAge_after capacity ops
  have hkeys : m.keys.Perm (latest.take (max capacity 1)) := by
    rw [← capacity_after capacity ops]
    exact h.keys_perm
  have hstamps : (m.entries.map (·.stamp)).Nodup := (h.perm.map _).nodup_iff.mp h.nodup_stamps
  refine ⟨hkeys, distinct_after capacity ops, ?_, ?_, ?_, hstamps, ?_, ?_, ?_⟩
  · rw [size_eq_length_keys, hkeys.length_eq, List.length_take]
  · intro k
    by_cases hk : k ∈ m.keys
    · rw [if_pos (hkeys.mem_iff.mp hk)]
      cases hfound : m.find? k with
      | none => exact absurd hk (find?_eq_none_iff.mp hfound)
      | some v => exact (lastInserted?_of_find? capacity ops hfound).symm
    · rw [if_neg fun hlatest => hk (hkeys.mem_iff.mpr hlatest)]
      exact find?_eq_none_iff.mpr hk
  · intro k hk v
    have hroom : m.HasRoom k := .inl hk
    refine ⟨?_, fun k' hk' => find?_insert_of_room hroom hk'.symm v⟩
    rw [keys, RecencyMap.insert, makeRoom_of_room hroom]
    exact keys_put_of_mem (any_key_iff.mpr hk)
  · exact fun e he => h.stamp_le e (h.perm.mem_iff.mpr he)
  · exact clock_after_le capacity ops
  · intro entries hperm
    refine ⟨oldest?_perm hstamps hperm, fun o ho e he hne => ?_⟩
    exact stamp_lt_of_oldest? ((hperm.map _).nodup_iff.mpr hstamps) ho he hne

/-- A map with room for two keys, which has to forget the second one. -/
def sampleUses : List (Op Nat Nat) :=
  [.insert 1 10, .insert 2 20, .get 1, .get 9, .insert 3 30, .insert 3 31]

/-- Three keys in a map with room for two: the one that was used least recently is gone, another
    value changes nothing else, and the key to go next is the same from either end. -/
theorem keeps_latest_sampleUses :
    ((new 2 : RecencyMap Nat Nat).after sampleUses).keys.Perm [3, 1] ∧
      1 ∈ ((new 2 : RecencyMap Nat Nat).after sampleUses).keys ∧
      (((new 2 : RecencyMap Nat Nat).after sampleUses).insert 1 11).keys
        = ((new 2 : RecencyMap Nat Nat).after sampleUses).keys ∧
      (((new 2 : RecencyMap Nat Nat).after sampleUses).insert 1 11).find? 3 = some 31 ∧
      -- the next key to go, if the entries are looked through from the other end
      oldest? ((new 2 : RecencyMap Nat Nat).after sampleUses).entries.reverse = some ⟨1, 10, 3⟩ := by
  obtain ⟨hkeys, -, -, hvalues, hreplaced, -, -, -, horder⟩ := keeps_latest 2 sampleUses
  have hone : 1 ∈ ((new 2 : RecencyMap Nat Nat).after sampleUses).keys := by decide
  obtain ⟨hsame, hothers⟩ := hreplaced 1 hone 11
  refine ⟨hkeys, hone, hsame, ?_, ?_⟩
  · rw [hothers 3 (by decide), hvalues 3]
    decide
  · rw [(horder _ (List.reverse_perm _)).1]
    decide

end EventReporter.RecencyMap
