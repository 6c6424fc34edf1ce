import EventReporter.Proofs.Draft.Tidy
import EventReporter.Proofs.Record.Latest
namespace EventReporter

/-!
# What a draft makes of its parameters

Of the parameters that a draft takes, the last one with each key is in the record, in the order in
which they came. The others leave no trace but a warning.

* `Draft.builder_add` : what becomes of a parameter.
* `Draft.holds_addAll` : what a draft holds in the end.
* `Draft.code_addAll` : the code is no failure.
-/

/-- A parameter as it goes into a record. -/
def Param.tidied (p : Param) : Param :=
  ⟨p.key, p.value.tidied⟩

/-- The entry of a parameter. -/
def Record.Entry.ofParam (p : Param) : Record.Entry :=
  ⟨p.tidied, p.tidied.bytes⟩

namespace Draft

variable {d : Draft} {p : Param}

/-! ### One parameter -/

/-- A record under construction takes a parameter if its key is a name, if there is room for one
    more parameter or one with this key, and if the parameter can be encoded and the record keeps
    to its limit with it. -/
def Takes (b : Record.Builder) (p : Param) : Prop :=
  Text.isName Limits.keyBytes p.key = true ∧
    (b.entries.length < Limits.params ∨ (b.get? p.key).isSome = true) ∧
    p.tidied.bytes.length ≤ Limits.recordBytes ∧
    b.size - b.sizeOf p.key + p.tidied.bytes.length ≤ b.limit

instance (b : Record.Builder) (p : Param) : Decidable (Takes b p) :=
  inferInstanceAs (Decidable (_ ∧ _ ∧ _ ∧ _))

/-- `warn` has no part in the record. -/
@[simp] theorem builder_warn (d : Draft) (code : Int) (e : Journal.Entry) :
    (d.warn code e).builder = d.builder :=
  rfl

/-- `warnIf` has no part in the record, whether it warns or not. -/
@[simp] theorem builder_warnIf (d : Draft) (lost : Bool) (code : Int) (e : Journal.Entry) :
    (d.warnIf lost code e).builder = d.builder := by
  unfold warnIf
  split <;> rfl

/-- `addValue` tries a value as it goes into a record, which is `tidied`. -/
theorem builder_addValue (d : Draft) (p : Param) :
    (d.addValue p.key p.value).builder
      = match d.builder.add p.tidied with
        | .ok builder => builder
        | .error _ => d.builder := by
  -- the warnings about a value come first, and leave the record as it is
  show Draft.builder (match ((d.warnIf _ _ _).warnIf _ _ _).builder.add p.tidied with
    | .ok _ => _
    | .error _ => _) = _
  rw [builder_warnIf, builder_warnIf]
  cases d.builder.add p.tidied with
  | ok builder => rfl
  | error e => simp

/-- What becomes of a parameter: `Takes` puts together the three conditions on the way of `add`,
    the key, the number of parameters and the room. -/
theorem builder_add (d : Draft) (p : Param) :
    (d.add p).builder
      = if Takes d.builder p then
          { d.builder with
            entries := d.builder.without p.key ++ [Record.Entry.ofParam p] }
        else d.builder := by
  unfold add
  by_cases hname : Text.isName Limits.keyBytes p.key
  · by_cases hroom : Limits.params ≤ d.builder.entries.length ∧ (d.builder.get? p.key).isNone
    · have hnot : ¬ Takes d.builder p := by
        rintro ⟨_, hlt | hthere, _⟩
        · omega
        · rw [Option.isNone_iff_eq_none] at hroom
          rw [hroom.2] at hthere
          cases hthere
      rw [if_neg (not_not_intro hname), if_pos hroom, if_neg hnot]
      rfl
    · have hroom' : d.builder.entries.length < Limits.params ∨
          (d.builder.get? p.key).isSome = true := by
        -- there is room, or the key is there already
        by_cases hlt : d.builder.entries.length < Limits.params
        · exact .inl hlt
        · refine .inr ?_
          cases hget : d.builder.get? p.key with
          | some q => rfl
          | none => exact absurd ⟨Nat.le_of_not_lt hlt, by rw [hget]; rfl⟩ hroom
      have hadd := Record.Builder.add_isOk_iff d.builder p.tidied
      rw [if_neg (not_not_intro hname), if_neg hroom, builder_addValue]
      cases hresult : d.builder.add p.tidied with
      | ok builder =>
        rw [hresult] at hadd
        rw [if_pos ⟨hname, hroom', hadd.mp rfl⟩]
        exact Record.Builder.add_eq_ok hresult
      | error e =>
        rw [hresult] at hadd
        -- `add` of the record refuses what `Takes` does
        exact (if_neg fun htakes => absurd (hadd.mpr htakes.2.2) (by nofun)).symm
  · rw [if_pos hname, if_neg fun htakes => hname htakes.1]
    rfl

/-! ### All parameters -/

/-- The parameters that a draft takes. -/
def accepted (d : Draft) : List Param → List Param
  | [] => []
  | p :: ps => (if Takes d.builder p then [p] else []) ++ accepted (d.add p) ps

/-- A record under construction was begun without parameters, and has taken some. -/
structure Holds (start : Record.Builder) (taken : List Param) (b : Record.Builder) : Prop where
  /-- It has the last one with each key, and else is as it was. -/
  builder : b = { start with entries := (Param.latest taken).map Record.Entry.ofParam }
  /-- Their keys are names. -/
  names : ∀ p ∈ taken, Text.isName Limits.keyBytes p.key = true
  /-- There are not too many of them. -/
  count : (Param.latest taken).length ≤ Limits.params
  /-- It keeps to the limit if it did so without parameters. -/
  size : start.baseSize ≤ start.limit → b.size ≤ b.limit

/-- A builder without entries `Holds` no parameters. -/
theorem holds_start {start : Record.Builder} (h : start.entries = []) : Holds start [] start where
  builder := by
    rw [Param.latest, List.map_nil, ← h]
  names := fun _ hp => absurd hp List.not_mem_nil
  count := Nat.zero_le _
  size := by
    intro hbase
    rw [Record.Builder.size, h]
    exact hbase

/-- Its entries apart, the record of a draft is as it was begun. -/
theorem builder_with {start b : Record.Builder} {taken : List Param} (h : Holds start taken b)
    (entries : List Record.Entry) : { b with entries } = { start with entries } := by
  rw [h.builder]

/-- The entries of a builder are the `latest` parameters that it took, each beside its
    encoding. -/
theorem entries_of_holds {start b : Record.Builder} {taken : List Param} (h : Holds start taken b) :
    b.entries = (Param.latest taken).map Record.Entry.ofParam := by
  rw [h.builder]

/-- A parameter that is taken is one more, in the place that `Param.latest_concat` gives it. -/
theorem holds_add {start : Record.Builder} {taken : List Param} (h : Holds start taken d.builder)
    (p : Param) :
    Holds start (taken ++ if Takes d.builder p then [p] else []) (d.add p).builder := by
  rw [builder_add]
  split
  · next htakes =>
    obtain ⟨hname, hroom, _, hfits⟩ := htakes
    have hentries := entries_of_holds h
    have hkeys : (d.builder.params.map (·.key)).Nodup := by
      rw [Record.Builder.params, hentries, List.map_map, List.map_map]
      exact Param.nodup_keys_latest taken
    have hwithout := Record.Builder.without_eq_filter hkeys p.key
    rw [hentries, List.filter_map] at hwithout
    have hlatest : (Param.latest (taken ++ [p])).map Record.Entry.ofParam
        = d.builder.without p.key ++ [Record.Entry.ofParam p] := by
      rw [Param.latest_concat, List.map_append, hwithout]
      rfl
    refine ⟨?_, ?_, ?_, fun _ => ?_⟩
    · rw [hlatest, builder_with h]
    · exact List.forall_mem_append.mpr ⟨h.names, List.forall_mem_singleton.mpr hname⟩
    · -- a parameter that replaces another one leaves their number as it is
      have hlength := d.builder.length_without p.key
      have hcount := h.count
      rw [← List.length_map (f := Record.Entry.ofParam), hlatest, List.length_append,
        List.length_singleton]
      rw [← List.length_map (f := Record.Entry.ofParam), ← hentries] at hcount
      split at hlength
      · omega
      · next hnone => exact Nat.lt_of_le_of_lt (Nat.le_of_eq hlength) (hroom.resolve_right hnone)
    · have hsize := d.builder.size_replace (Record.Entry.ofParam p)
      exact Nat.le_trans (Nat.le_of_eq hsize) hfits
  · rwa [List.append_nil]

/-- By induction on the parameters, with `holds_add` for each. -/
theorem holds_addAll_of_holds {start : Record.Builder} {taken : List Param}
    (h : Holds start taken d.builder) (ps : List Param) :
    Holds start (taken ++ d.accepted ps) (d.addAll ps).builder := by
  induction ps generalizing d taken with
  | nil =>
    rw [accepted, List.append_nil]
    exact h
  | cons p ps ih =>
    rw [accepted, ← List.append_assoc]
    exact ih (holds_add h p)

/-- Of the parameters that a new draft takes it `Holds` the last one with each key. -/
theorem holds_addAll {start : Record.Builder} (h : start.entries = []) (ps : List Param) :
    Holds start ((new start).accepted ps) ((new start).addAll ps).builder :=
  holds_addAll_of_holds (d := new start) (holds_start h) ps

/-! ### The code -/

/-- `warn` does not make a success or a warning an error. -/
theorem code_warn (h : 0 ≤ d.code) {code : Int} (hcode : 0 ≤ code) (e : Journal.Entry) :
    0 ≤ (d.warn code e).code := by
  have hneg := Status.fold_neg_iff d.code code
  show 0 ≤ Status.fold d.code code
  omega

/-- `warnIf` does not make a success or a warning an error. -/
theorem code_warnIf (h : 0 ≤ d.code) (lost : Bool) {code : Int} (hcode : 0 ≤ code)
    (e : Journal.Entry) : 0 ≤ (d.warnIf lost code e).code := by
  unfold warnIf
  split
  · exact code_warn h hcode e
  · exact h

/-- `add` does not make a success or a warning an error: every way through it ends with
    warnings. -/
theorem code_add (h : 0 ≤ d.code) (p : Param) : 0 ≤ (d.add p).code := by
  unfold add
  split
  · exact code_warn h (by decide) _
  · split
    · exact code_warn h (by decide) _
    · unfold addValue
      simp only
      split
      · exact code_warnIf (code_warnIf h _ (by decide) _) _ (by decide) _
      · exact code_warn (code_warnIf (code_warnIf h _ (by decide) _) _ (by decide) _) (by decide) _

/-- Whatever is lost on the way, the code is success or a warning. -/
theorem code_addAll (b : Record.Builder) (ps : List Param) : 0 ≤ ((new b).addAll ps).code := by
  have hall : ∀ d : Draft, 0 ≤ d.code → 0 ≤ (d.addAll ps).code := by
    induction ps with
    | nil => exact fun d h => h
    | cons p ps ih => exact fun d h => ih (d.add p) (code_add h p)
  exact hall (new b) (Int.le_refl 0)

end Draft

end EventReporter
