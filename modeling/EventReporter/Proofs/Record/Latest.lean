import EventReporter.Proofs.Record.Room
import Mathlib.Algebra.GroupWithZero.Nat
import Mathlib.Data.List.Dedup
import Mathlib.Data.List.Induction
namespace EventReporter

/-!
# The parameters that a builder holds

Of the parameters that a builder has taken, it holds the last one with each key, in the order in
which they came. A parameter that it does not take leaves it as it was. The size of the record is
that of everything but its parameters, and of these.

* `Param.map_key_latest`, `Param.find?_latest` : the last parameter with each key.
* `Record.Builder.params_applyAll` : what a builder holds after any history.
* `Record.Builder.holds_latest` : the same, with what it takes and what its size is.
-/

/-! ### The last one with each key -/

namespace Param

/-- The parameters that no later one replaces, in order. -/
def latest : List Param → List Param
  | [] => []
  | p :: ps => if ps.any (·.key == p.key) then latest ps else p :: latest ps

/-- `latest` leaves parameters out, and changes neither the others nor their order. -/
theorem latest_sublist (ps : List Param) : (latest ps).Sublist ps := by
  induction ps with
  | nil => exact List.Sublist.refl _
  | cons p ps ih =>
    rw [latest]
    split
    · exact ih.cons p
    · exact ih.cons_cons p

/-- A further parameter replaces the one with its key and comes last, as in `Builder.add`. -/
theorem latest_concat (ps : List Param) (p : Param) :
    latest (ps ++ [p]) = (latest ps).filter (·.key != p.key) ++ [p] := by
  induction ps with
  | nil => rfl
  | cons q ps ih =>
    rw [List.cons_append, latest, latest, List.any_append, ih]
    by_cases hlater : ps.any (·.key == q.key)
    · rw [hlater, Bool.true_or, if_pos rfl, if_pos rfl]
    · by_cases hkey : p.key = q.key
      · -- the further one replaces this one
        simp [hlater, hkey]
      · have hne : (q.key != p.key) = true := by simpa using Ne.symm hkey
        simp [hlater, hkey, List.filter_cons_of_pos (p := fun r : Param => r.key != p.key) hne]

/-- Each key is there once, where it came last, as `List.dedup` keeps it. -/
theorem map_key_latest (ps : List Param) :
    (latest ps).map (·.key) = (ps.map (·.key)).dedup := by
  induction ps with
  | nil => rfl
  | cons p ps ih =>
    have hlater : ps.any (·.key == p.key) = true ↔ p.key ∈ ps.map (·.key) := by
      simp only [List.any_eq_true, List.mem_map, beq_iff_eq]
    rw [latest, List.map_cons, List.dedup_cons]
    by_cases hkey : p.key ∈ ps.map (·.key)
    · rw [if_pos (hlater.mpr hkey), if_pos hkey, ih]
    · rw [if_neg (hkey ∘ hlater.mp), if_neg hkey, List.map_cons, ih]

/-- No two parameters of `latest` have one key. -/
theorem nodup_keys_latest (ps : List Param) : ((latest ps).map (·.key)).Nodup := by
  rw [map_key_latest]
  exact List.nodup_dedup _

/-- The parameter with a key is the last one that had it. By induction on the parameters from the
    last one back, as `latest_concat` takes them. -/
theorem find?_latest (ps : List Param) (key : String) :
    (latest ps).find? (·.key == key) = ps.reverse.find? (·.key == key) := by
  induction ps using List.reverseRecOn with
  | nil => rfl
  | append_singleton ps p ih =>
    rw [latest_concat, List.reverse_append, List.find?_append, List.find?_append,
      List.reverse_singleton, List.find?_singleton]
    by_cases hkey : p.key = key
    · -- none of the others has this key
      have hnone : ((latest ps).filter (·.key != p.key)).find? (·.key == key) = none := by
        rw [List.find?_eq_none]
        intro q hq hqkey
        rw [List.mem_filter, bne_iff_ne] at hq
        exact hq.2 ((beq_iff_eq.mp hqkey).trans hkey.symm)
      rw [hnone, if_pos (beq_iff_eq.mpr hkey)]
      rfl
    · -- the further one does not have this key, and replaces none that does
      have hothers : ((latest ps).filter (·.key != p.key)).find? (·.key == key)
          = (latest ps).find? (·.key == key) := by
        rw [List.find?_filter]
        congr 1
        funext q
        by_cases hq : q.key = key
        · simp [hq, Ne.symm hkey]
        · simp [hq]
      rw [hothers, if_neg (hkey ∘ beq_iff_eq.mp), Option.or_none, Option.none_or, ih]

end Param

namespace Record.Builder

variable {b b' : Builder} {p : Param}

/-! ### Entries by key -/

/-- With one parameter for each key, to leave out the one with a key, as `without` does, is to
    leave out all. -/
theorem without_eq_filter (hkeys : (b.params.map (·.key)).Nodup) (key : String) :
    b.without key = b.entries.filter (·.param.key != key) := by
  rw [params, List.map_map] at hkeys
  rw [without]
  generalize b.entries = entries at hkeys ⊢
  induction entries with
  | nil => rfl
  | cons e entries ih =>
    obtain ⟨he, hentries⟩ := List.nodup_cons.mp hkeys
    by_cases hk : e.param.key = key
    · -- this is the one, so none of the others is
      have hothers : ∀ e' ∈ entries, (e'.param.key != key) = true := by
        intro e' he'
        rw [bne_iff_ne]
        exact fun h => he (List.mem_map.mpr ⟨e', he', h.trans hk.symm⟩)
      rw [List.eraseP_cons_of_pos (by simp [hk]), List.filter_cons_of_neg (by simp [hk]),
        List.filter_eq_self.mpr hothers]
    · -- this entry has another key, and stays on both sides
      rw [List.eraseP_cons_of_neg (by simp [hk]), ih hentries,
        List.filter_cons_of_pos (by simpa using hk)]

/-- The bytes of the parameter with a key are those that the others do not have: `sizeOf` counts
    what `without` takes away. -/
theorem entriesSize_without (b : Builder) (key : String) :
    entriesSize (b.without key) + b.sizeOf key = entriesSize b.entries := by
  unfold without sizeOf
  induction b.entries with
  | nil => rfl
  | cons e entries ih =>
    have hcons : ∀ es, entriesSize (e :: es) = e.bytes.length + entriesSize es := fun _ => rfl
    by_cases hk : (e.param.key == key) = true
    · rw [List.eraseP_cons_of_pos (p := fun x : Entry => x.param.key == key) hk,
        List.find?_cons_of_pos (p := fun x : Entry => x.param.key == key) hk, hcons]
      exact Nat.add_comm _ _
    · rw [List.eraseP_cons_of_neg (p := fun x : Entry => x.param.key == key) hk,
        List.find?_cons_of_neg (p := fun x : Entry => x.param.key == key) hk, hcons, hcons, ← ih]
      omega

/-- `entriesSize` adds up over two lists. -/
theorem entriesSize_append (es es' : List Entry) :
    entriesSize (es ++ es') = entriesSize es + entriesSize es' := by
  simp [entriesSize_eq_length]

/-- A parameter that is replaced makes room for the one that replaces it: `without` takes one away
    if `get?` finds one. -/
theorem length_without (b : Builder) (key : String) :
    (b.without key).length + (if (b.get? key).isSome then 1 else 0) = b.entries.length := by
  unfold without get?
  induction b.entries with
  | nil => rfl
  | cons e entries ih =>
    by_cases hk : (e.param.key == key) = true
    · rw [List.eraseP_cons_of_pos (p := fun x : Entry => x.param.key == key) hk,
        List.find?_cons_of_pos (p := fun x : Entry => x.param.key == key) hk]
      rfl
    · rw [List.eraseP_cons_of_neg (p := fun x : Entry => x.param.key == key) hk,
        List.find?_cons_of_neg (p := fun x : Entry => x.param.key == key) hk, List.length_cons,
        List.length_cons, ← ih]
      omega

/-- The `size` with an entry in place of the one with its key. -/
theorem size_replace (b : Builder) (e : Entry) :
    ({ b with entries := b.without e.param.key ++ [e] } : Builder).size
      = b.size - b.sizeOf e.param.key + e.bytes.length := by
  have hwithout := b.entriesSize_without e.param.key
  have hone : entriesSize [e] = e.bytes.length := rfl
  show b.baseSize + entriesSize (b.without e.param.key ++ [e]) = b.size - _ + _
  rw [entriesSize_append, hone, size]
  omega

/-- `sizeOf` a key is the size of the parameter that `get?` finds for it, as the builder is
    `Encoded`. -/
theorem sizeOf_eq (h : b.Encoded) (key : String) :
    b.sizeOf key = ((b.get? key).map (·.bytes.length)).getD 0 := by
  rw [sizeOf, get?, Option.map_map]
  cases hfind : b.entries.find? (·.param.key == key) with
  | none => rfl
  | some e => exact congrArg List.length (h e (List.mem_of_find?_eq_some hfind))

/-- The `size` of a record is that of everything else and of its parameters. -/
theorem size_eq_sum (h : b.Encoded) :
    b.size = b.baseSize + (b.params.map (·.bytes.length)).sum := by
  have hbytes : b.entries.map (·.bytes.length) = b.params.map (·.bytes.length) := by
    rw [params, List.map_map]
    exact List.map_congr_left fun e he => congrArg List.length (h e he)
  rw [size, entriesSize_eq_length, List.length_flatMap, hbytes]

/-! ### One parameter -/

/-- `add` leaves the parameters with other keys as they are, and puts the new one behind them. -/
theorem params_add (hkeys : (b.params.map (·.key)).Nodup) (h : b.add p = .ok b') :
    b'.params = b.params.filter (·.key != p.key) ++ [p] := by
  rw [add_eq_ok h, params, params, List.map_append, without_eq_filter hkeys, List.filter_map]
  rfl

/-- A change to a builder that holds the last of some parameters makes it hold the last of these
    and of the one that it takes: `params_add` is what `latest_concat` says. -/
theorem params_apply {done : List Param} (h : b.params = Param.latest done) (change : Change) :
    (b.apply change).params = Param.latest (done ++ (b.taken? change).toList) := by
  cases change with
  | append p =>
    cases hadd : b.add p with
    | ok added =>
      obtain ⟨happly, htaken⟩ := apply_of_add hadd
      have hkeys : (b.params.map (·.key)).Nodup := h ▸ Param.nodup_keys_latest done
      rw [happly, htaken, params_add hkeys hadd, h]
      exact (Param.latest_concat done p).symm
    | error e =>
      obtain ⟨happly, htaken⟩ := apply_of_refused hadd
      rw [happly, htaken, h]
      exact congrArg Param.latest (List.append_nil done).symm
  | _ =>
    show b.params = _
    rw [h]
    exact congrArg Param.latest (List.append_nil done).symm

/-! ### Histories -/

/-- By induction on the changes, with `params_apply` for each. -/
theorem params_applyAll_of_latest {done : List Param} (h : b.params = Param.latest done)
    (changes : List Change) :
    (b.applyAll changes).params = Param.latest (done ++ b.taken changes) := by
  induction changes generalizing b done with
  | nil =>
    rw [taken, List.append_nil]
    exact h
  | cons change changes ih =>
    rw [taken, ← List.append_assoc]
    exact ih (params_apply h change)

/-- Of the parameters that a new builder takes it holds the `latest` with each key. -/
theorem params_applyAll (domain name : String) (type : EventType) (limit : Nat)
    (changes : List Change) :
    ((new domain name type limit).applyAll changes).params
      = Param.latest ((new domain name type limit).taken changes) := by
  have hnew : (new domain name type limit).params = Param.latest [] := rfl
  exact params_applyAll_of_latest hnew changes

/-- Whatever was done to a record under construction, it takes a further parameter exactly if this
    can be encoded on its own, and the record keeps to its limit with it in place of the one with
    its key; and it is left as it was by a parameter that it does not take. It holds the last one
    with each key of those that it has taken, in the order in which these came, and its size is that
    of everything else and of these. -/
theorem holds_latest (domain name : String) (type : EventType) (limit : Nat)
    (changes : List Change) :
    let start := new domain name type limit
    let b := start.applyAll changes
    (∀ p, (b.add p).isOk = true ↔
        p.bytes.length ≤ Limits.recordBytes ∧
          b.size - ((b.get? p.key).map (·.bytes.length)).getD 0 + p.bytes.length ≤ limit) ∧
      (∀ p, (b.add p).isOk = false → b.apply (.append p) = b) ∧
      (b.params.map (·.key)).Nodup ∧
      b.params.map (·.key) = ((start.taken changes).map (·.key)).dedup ∧
      (∀ key, b.get? key = (start.taken changes).reverse.find? (·.key == key)) ∧
      b.size = b.baseSize + (b.params.map (·.bytes.length)).sum := by
  intro start b
  have hencoded : b.Encoded := encoded_applyAll domain name type limit changes
  have hparams : b.params = Param.latest (start.taken changes) :=
    params_applyAll domain name type limit changes
  have hlimit : b.limit = limit := limit_applyAll start changes
  refine ⟨fun p => ?_, fun p hp => ?_, ?_, ?_, fun key => ?_, size_eq_sum hencoded⟩
  · rw [add_isOk_iff, sizeOf_eq hencoded, hlimit]
  · cases hadd : b.add p with
    | ok added =>
      rw [hadd] at hp
      cases hp
    | error e => exact (apply_of_refused hadd).1
  · rw [hparams]
    exact Param.nodup_keys_latest _
  · rw [hparams, Param.map_key_latest]
  · -- what `get?` finds among the last ones is the last of all
    rw [← Param.find?_latest, ← hparams, get?, params, List.find?_map]
    rfl

end Record.Builder

end EventReporter
