import EventReporter.Limiter.RecencyMap
import Mathlib.Data.List.Nodup
namespace EventReporter.RecencyMap

/-!
# What recency maps remember

A map has one entry for each key. Using a key changes what is known of another one only in that
it may be forgotten when room is made.

* `Distinct` : there is one entry for each key.
* `find?_insert_of_ne` : what is found after another key has got a value.
* `find?_insert_of_room` : nothing is forgotten as long as there is room.
-/

variable {κ ν : Type} [DecidableEq κ] {m : RecencyMap κ ν} {entries : List (Stamped κ ν)}
  {e : Stamped κ ν} {k k' : κ} {v : ν}

/-- The keys of the entries. -/
def keys (m : RecencyMap κ ν) : List κ :=
  m.entries.map (·.key)

/-- There is one entry for each key. -/
def Distinct (m : RecencyMap κ ν) : Prop :=
  (m.entries.map (·.key)).Nodup

/-! ### Entries -/

/-- `put` changes nothing for other keys. -/
theorem find?_put_of_ne (entries : List (Stamped κ ν)) (h : e.key ≠ k) :
    (put entries e).find? (·.key == k) = entries.find? (·.key == k) := by
  unfold put
  split
  · -- every entry keeps its key
    clear *- h
    induction entries with
    | nil => rfl
    | cons x rest ih =>
      rw [List.map_cons]
      by_cases hx : x.key = e.key
      · have hxk : x.key ≠ k := hx ▸ h
        rw [if_pos hx, List.find?_cons_of_neg (by simpa using h),
          List.find?_cons_of_neg (by simpa using hxk)]
        exact ih
      · rw [if_neg hx, List.find?_cons, List.find?_cons, ih]
  · exact List.find?_cons_of_neg (by simpa using h)

/-- `put` of a key that is there leaves the keys as they are. -/
theorem keys_put_of_mem (h : entries.any (·.key == e.key)) :
    (put entries e).map (·.key) = entries.map (·.key) := by
  rw [put, if_pos h, List.map_map]
  refine List.map_congr_left fun x _ => ?_
  show (if x.key = e.key then e else x).key = x.key
  split
  · next hx => exact hx.symm
  · rfl

/-- `put` takes the place of the entry with its key, so there is still one for each. -/
theorem nodup_keys_put (h : (entries.map (·.key)).Nodup) : ((put entries e).map (·.key)).Nodup := by
  by_cases hmem : entries.any (·.key == e.key)
  · rw [keys_put_of_mem hmem]
    exact h
  · rw [put, if_neg hmem, List.map_cons, List.nodup_cons]
    refine ⟨fun hkey => hmem ?_, h⟩
    obtain ⟨x, hx, hxe⟩ := List.mem_map.mp hkey
    exact List.any_eq_true.mpr ⟨x, hx, by simp [hxe]⟩

/-- `evictOldest` leaves entries out, and adds none. -/
theorem evictOldest_sublist (entries : List (Stamped κ ν)) :
    (evictOldest entries).Sublist entries := by
  unfold evictOldest
  split
  · exact List.eraseP_sublist
  · exact List.Sublist.refl _

/-- With one entry for each key, a part of the entries knows the same of a key, or nothing. -/
theorem find?_sublist {part : List (Stamped κ ν)} (h : (entries.map (·.key)).Nodup)
    (hpart : part.Sublist entries) (k : κ) :
    part.find? (·.key == k) = none ∨
      part.find? (·.key == k) = entries.find? (·.key == k) := by
  induction hpart with
  | slnil => exact .inl rfl
  | @cons part rest x hpart ih =>
    obtain ⟨hx, hrest⟩ := List.nodup_cons.mp h
    by_cases hk : x.key = k
    · -- the entry of the key is the one that is left out
      refine .inl (List.find?_eq_none.mpr fun y hy hyk => hx ?_)
      have hyx : y.key = x.key := (of_decide_eq_true hyk).trans hk.symm
      exact List.mem_map.mpr ⟨y, hpart.subset hy, hyx⟩
    · rw [List.find?_cons_of_neg (by simpa using hk)]
      exact ih hrest
  | @cons_cons part rest x hpart ih =>
    obtain ⟨hx, hrest⟩ := List.nodup_cons.mp h
    by_cases hk : x.key = k
    · exact .inr (by simp [hk])
    · rw [List.find?_cons_of_neg (by simpa using hk), List.find?_cons_of_neg (by simpa using hk)]
      exact ih hrest

/-- `makeRoom` leaves entries out, and adds none. -/
theorem makeRoom_sublist (m : RecencyMap κ ν) (k : κ) : (m.makeRoom k).Sublist m.entries := by
  unfold makeRoom
  split
  · exact evictOldest_sublist m.entries
  · exact List.Sublist.refl _

/-! ### Look-ups and insertions -/

/-- `get` answers what `find?` does. -/
theorem get_fst (m : RecencyMap κ ν) (k : κ) : (m.get k).1 = m.find? k := by
  unfold get
  split
  · next v h => exact h.symm
  · next h => exact h.symm

/-- `get` changes nothing that `find?` can see: the entry that it writes again has the same
    value. -/
theorem find?_get (m : RecencyMap κ ν) (k k' : κ) : (m.get k').2.find? k = m.find? k := by
  unfold get
  split
  · next v h =>
    by_cases hk : k' = k
    · subst hk
      have hself := find?_put_self m.entries ⟨k', v, m.clock + 1⟩
      simp only [find?] at h ⊢
      rw [hself, h]
      rfl
    · simp only [find?]
      rw [find?_put_of_ne m.entries hk]
  · rfl

/-- An `insert` makes the map forget another key, or changes nothing for it. -/
theorem find?_insert_of_ne (h : m.Distinct) (hk : k' ≠ k) (v : ν) :
    (m.insert k' v).find? k = none ∨ (m.insert k' v).find? k = m.find? k := by
  simp only [insert, find?]
  rw [find?_put_of_ne (m.makeRoom k') hk]
  -- the entry of the key may be the one that has to go
  rcases find?_sublist h (m.makeRoom_sublist k') k with hnone | hsame
  · exact .inl (by rw [hnone]; rfl)
  · exact .inr (by rw [hsame])

/-- A map that was cleared knows nothing. -/
theorem find?_clear (m : RecencyMap κ ν) (k : κ) : m.clear.find? k = none :=
  rfl

/-! ### One entry for each key -/

omit [DecidableEq κ] in
theorem distinct_new (capacity : Nat) : (new capacity : RecencyMap κ ν).Distinct :=
  List.nodup_nil

omit [DecidableEq κ] in
theorem distinct_clear (m : RecencyMap κ ν) : m.clear.Distinct :=
  List.nodup_nil

/-- A `get` that finds something writes an entry again, with another stamp. -/
theorem Distinct.get (h : m.Distinct) (k : κ) : (m.get k).2.Distinct := by
  unfold RecencyMap.get
  split
  · exact nodup_keys_put h
  · exact h

/-- `makeRoom` leaves at most one entry for each key, and `put` keeps it so. -/
theorem Distinct.insert (h : m.Distinct) (k : κ) (v : ν) : (m.insert k v).Distinct :=
  nodup_keys_put (h.sublist ((m.makeRoom_sublist k).map _))

/-! ### Maps with room -/

/-- A key that is there, or for which the map has an entry left. -/
def HasRoom (m : RecencyMap κ ν) (k : κ) : Prop :=
  k ∈ m.keys ∨ m.size < m.capacity

/-- The two ways to say that a key is there. -/
theorem any_key_iff : entries.any (·.key == k) = true ↔ k ∈ entries.map (·.key) := by
  simp

/-- No entry has to go for a key that `HasRoom`. -/
theorem makeRoom_of_room (h : m.HasRoom k) : m.makeRoom k = m.entries := by
  unfold makeRoom
  refine if_neg ?_
  rintro ⟨hfull, hnone⟩
  rcases h with hmem | hroom
  · exact hnone (any_key_iff.mpr hmem)
  · omega

/-- `put` adds its key to those that are there. -/
theorem mem_keys_put : k ∈ (put entries e).map (·.key) ↔ k = e.key ∨ k ∈ entries.map (·.key) := by
  by_cases hmem : entries.any (·.key == e.key)
  · rw [keys_put_of_mem hmem]
    refine ⟨.inr, fun hk => hk.elim (fun heq => ?_) id⟩
    rw [heq]
    exact any_key_iff.mp hmem
  · rw [put, if_neg hmem, List.map_cons, List.mem_cons]

/-- A `get` neither adds nor drops a key. -/
theorem keys_get (m : RecencyMap κ ν) (k : κ) : (m.get k).2.keys = m.keys := by
  unfold get
  split
  · next v h =>
    obtain ⟨x, hx, _⟩ := Option.map_eq_some_iff.mp h
    have hkey : x.key = k := by simpa using List.find?_some hx
    refine keys_put_of_mem (any_key_iff.mpr ?_)
    exact List.mem_map.mpr ⟨x, List.mem_of_find?_eq_some hx, hkey⟩
  · rfl

omit [DecidableEq κ] in
theorem size_eq_length_keys (m : RecencyMap κ ν) : m.size = m.keys.length :=
  List.length_map _ |>.symm

/-- A `get` does not change the capacity. -/
theorem capacity_get (m : RecencyMap κ ν) (k : κ) : (m.get k).2.capacity = m.capacity := by
  unfold get
  split <;> rfl

/-- A `get` takes nobody's room. -/
theorem HasRoom.get (h : m.HasRoom k) (k' : κ) : (m.get k').2.HasRoom k := by
  unfold HasRoom at h ⊢
  rwa [size_eq_length_keys, keys_get, capacity_get, ← size_eq_length_keys]

/-- An `insert` for which there is room adds its key to those that are there. -/
theorem mem_keys_insert (h : m.HasRoom k') (v : ν) :
    k ∈ (m.insert k' v).keys ↔ k = k' ∨ k ∈ m.keys := by
  unfold keys insert
  rw [makeRoom_of_room h]
  exact mem_keys_put

/-- An `insert` for which there is room changes nothing for another key. -/
theorem find?_insert_of_room (h : m.HasRoom k') (hk : k' ≠ k) (v : ν) :
    (m.insert k' v).find? k = m.find? k := by
  simp only [insert, find?]
  rw [find?_put_of_ne (m.makeRoom k') hk, makeRoom_of_room h]

end EventReporter.RecencyMap
