import EventReporter.Library
import EventReporter.Proofs.Record.Latest
import EventReporter.Proofs.Record.Workbench
namespace EventReporter.Record.Builder

/-!
# Records that outgrow their limit

A parameter is taken only if the record keeps to its limit with it. The block of a trace takes room
as well, and nothing asks for it: a first trace that comes late makes the record outgrow its limit,
and it cannot be laid out until it takes a parameter that leaves enough room in place of another.

* `limit_lt_size_apply` : the record that is too large after a change.
* `limit_lt_size_applyAll` : the record that is too large after a history.
* `size_le_applyAll_of_traced` : with a trace in place a record keeps to its limit.
* `build_isOk_iff_not_outgrown` : the history after which a record can be laid out.
-/

variable {b b' start : Builder} {p : Param} {change : Change} {changes : List Change}

/-! ### One change -/

/-- Whether a change attaches a first trace, without room for one. -/
def Overfills (b : Builder) (change : Change) : Prop :=
  (∃ t, change = .trace t) ∧ b.header.traced = false ∧ b.limit < b.size + Trace.blockSize

/-- A parameter that `add` takes leaves the record within its limit. -/
theorem size_le_of_add (h : b.add p = .ok b') : b'.size ≤ b.limit := by
  obtain ⟨_, hfits⟩ := (add_isOk_iff b p).mp (isOk_iff.mpr ⟨b', h⟩)
  rw [add_eq_ok h]
  exact Nat.le_trans (Nat.le_of_eq (b.size_replace ⟨p, p.bytes⟩)) hfits

/-- Only a first trace takes room, by `Trace.blockSize`. -/
theorem size_setTrace (b : Builder) (t : Trace) :
    (b.setTrace t).size = b.size + if b.header.traced then 0 else Trace.blockSize := by
  have hbase : (b.setTrace t).baseSize
      = lengthSize + Header.blockSize + Trace.blockSize + countSize := rfl
  have hentries : (b.setTrace t).entries = b.entries := rfl
  rw [size, size, hbase, hentries, baseSize]
  cases b.header.traced
  · simp only [Bool.false_eq_true, if_false]
    omega
  · rfl

/-- A record is too large after a change if this one `Overfills` it, or if it was too large before
    and takes no parameter. One case for each kind of change. -/
theorem limit_lt_size_apply (b : Builder) (change : Change) :
    b.limit < (b.apply change).size ↔
      b.Overfills change ∨ b.limit < b.size ∧ b.taken? change = none := by
  cases change with
  | trace t =>
    have hsize : (b.apply (.trace t)).size
        = b.size + if b.header.traced then 0 else Trace.blockSize := b.size_setTrace t
    have htaken : b.taken? (.trace t) = none := rfl
    rw [hsize, htaken, Overfills]
    cases b.header.traced
    · -- a record that was too large before is so with a trace
      simp only [Bool.false_eq_true, if_false, Change.trace.injEq, exists_eq', true_and, and_true]
      omega
    · simp
  | append p =>
    have hother : ¬ b.Overfills (.append p) := by
      rintro ⟨⟨t, ht⟩, _⟩
      cases ht
    cases hadd : b.add p with
    | ok added =>
      obtain ⟨happly, htaken⟩ := apply_of_add hadd
      have hfits := size_le_of_add hadd
      rw [happly, htaken]
      -- a parameter that was taken fits, and one that was refused changes nothing
      simp [hother, hfits]
    | error e =>
      obtain ⟨happly, htaken⟩ := apply_of_refused hadd
      rw [happly, htaken]
      simp [hother]
  | _ =>
    -- the header is as large as before
    show b.limit < b.size ↔ _
    simp [Overfills, taken?]

/-! ### Histories -/

/-- Whether some change overfills the record, and it takes no parameter afterwards. -/
def Outgrown (start : Builder) (changes : List Change) : Prop :=
  ∃ before change after, changes = before ++ change :: after ∧
    (start.applyAll before).Overfills change ∧
      (start.applyAll (before ++ [change])).taken after = []

/-- `taken` of one more change: the parameter that this one makes the builder take, if it takes
    one. -/
theorem taken_concat (b : Builder) (changes : List Change) (change : Change) :
    b.taken (changes ++ [change])
      = b.taken changes ++ ((b.applyAll changes).taken? change).toList := by
  rw [taken_append, taken, taken, List.append_nil]

/-- A history is `Outgrown` with one more change if this one overfills the record, or if it was
    before and no parameter is taken now. -/
theorem outgrown_concat :
    start.Outgrown (changes ++ [change]) ↔
      (start.applyAll changes).Overfills change ∨
        start.Outgrown changes ∧ (start.applyAll changes).taken? change = none := by
  constructor
  · rintro ⟨before, first, after, hchanges, hover, htaken⟩
    rcases List.eq_nil_or_concat' after with rfl | ⟨after, last, rfl⟩
    · obtain ⟨rfl, hlast⟩ := List.append_inj' hchanges rfl
      cases hlast
      -- the last change is the one that overfills the record
      exact .inl hover
    · rw [← List.cons_append, ← List.append_assoc] at hchanges
      obtain ⟨rfl, hlast⟩ := List.append_inj' hchanges rfl
      cases hlast
      rw [taken_concat, ← applyAll_append, List.append_eq_nil_iff, Option.toList_eq_nil_iff,
        List.append_assoc, List.singleton_append] at htaken
      exact .inr ⟨⟨before, first, after, rfl, hover, htaken.1⟩, htaken.2⟩
  · rintro (hover | ⟨⟨before, first, after, rfl, hover, htaken⟩, hnone⟩)
    · exact ⟨changes, change, [], rfl, hover, rfl⟩
    · refine ⟨before, first, after ++ [change], ?_, hover, ?_⟩
      · rw [List.append_assoc, List.cons_append]
      · rw [taken_concat, htaken, ← applyAll_append, List.append_assoc, List.singleton_append,
          hnone]
        rfl

/-- A record that starts within its limit is too large after a history if this one makes it
    `Outgrown`: by induction on the changes from the last one back, since `outgrown_concat` and
    `limit_lt_size_apply` say the same about the last one. -/
theorem limit_lt_size_applyAll (hstart : start.size ≤ start.limit) (changes : List Change) :
    start.limit < (start.applyAll changes).size ↔ start.Outgrown changes := by
  induction changes using List.reverseRecOn with
  | nil =>
    refine iff_of_false (Nat.not_lt_of_le hstart) ?_
    rintro ⟨before, change, after, hchanges, _⟩
    cases before <;> cases hchanges
  | append_singleton changes change ih =>
    -- the limit at the end is the one at the start
    have hlimit : start.limit = (start.applyAll changes).limit := (limit_applyAll _ _).symm
    have hlast : start.applyAll (changes ++ [change]) = (start.applyAll changes).apply change :=
      start.applyAll_append changes [change]
    rw [outgrown_concat, ← ih, hlast, hlimit]
    exact limit_lt_size_apply _ _

/-- A record stays traced, whatever is done to it. -/
theorem traced_apply (h : b.header.traced = true) (change : Change) :
    (b.apply change).header.traced = true := by
  cases change with
  | trace t => rfl
  | append p =>
    cases hadd : b.add p with
    | ok added => rwa [(apply_of_add hadd).1, add_eq_ok hadd]
    | error e => rwa [(apply_of_refused hadd).1]
  | _ => exact h

/-- With a trace in place, a record that keeps to its limit does so whatever happens, for no
    change can overfill it. -/
theorem size_le_applyAll_of_traced (htraced : b.header.traced = true) (hsize : b.size ≤ b.limit)
    (changes : List Change) : (b.applyAll changes).size ≤ b.limit := by
  induction changes generalizing b with
  | nil => exact hsize
  | cons change changes ih =>
    have hlimit : (b.apply change).limit = b.limit := congrArg Frame.limit (frame_apply b change)
    have hfirst : (b.apply change).size ≤ (b.apply change).limit := by
      rw [hlimit]
      refine Nat.le_of_not_lt fun hlarge => ?_
      -- it would have to be the first trace, or to have been too large before
      rcases (b.limit_lt_size_apply change).mp hlarge with ⟨_, hnone, _⟩ | ⟨hbefore, _⟩
      · cases htraced.symm.trans hnone
      · exact absurd hsize (Nat.not_le_of_lt hbefore)
    have hrest := ih (traced_apply htraced change) hfirst
    rwa [hlimit] at hrest

/-- A record that starts within its limit keeps to it exactly if its history does not make it
    outgrow the limit, and then it can be laid out, as long as its length can be stated. A parameter
    that it takes is never the cause: with this, the record keeps to its limit even if it had
    outgrown it. -/
theorem build_isOk_iff_not_outgrown {limit : Nat} (h : minSize ≤ limit) (domain name : String)
    (type : EventType) (changes : List Change) :
    let start := new domain name type limit
    let b := start.applyAll changes
    (b.size ≤ limit ↔ ¬ start.Outgrown changes) ∧
      (b.build.isOk = true ↔ ¬ start.Outgrown changes ∧ b.size ≤ maxStated) ∧
      ∀ p b', b.add p = .ok b' →
        b'.size ≤ limit ∧ (b'.build.isOk = true ↔ b'.size ≤ maxStated) := by
  intro start b
  have hlimit : b.limit = limit := limit_applyAll start changes
  have hencoded : b.Encoded := encoded_applyAll domain name type limit changes
  have hstart : start.size ≤ start.limit := h
  have hkept : b.size ≤ limit ↔ ¬ start.Outgrown changes := by
    rw [← Nat.not_lt]
    exact not_congr (limit_lt_size_applyAll hstart changes)
  refine ⟨hkept, ?_, fun p b' hadd => ?_⟩
  · rw [build_isOk_iff_size_le hencoded, hlimit, Nat.le_min, hkept]
  · have hfits : b'.size ≤ limit := hlimit ▸ size_le_of_add hadd
    have hafter : b' = start.applyAll (changes ++ [.append p]) := by
      rw [applyAll_append]
      exact (apply_of_add hadd).1.symm
    have hencoded' : b'.Encoded := hafter ▸ encoded_applyAll domain name type limit _
    have hlimit' : b'.limit = limit := hafter ▸ limit_applyAll start _
    rw [build_isOk_iff_size_le hencoded', hlimit', Nat.le_min]
    exact ⟨hfits, fun hboth => hboth.2, fun hstated => ⟨hfits, hstated⟩⟩

/-- A parameter of five bytes, and one of four that replaces it. -/
def wideParam : Param :=
  ⟨"A", .scalar (.unsigned .w16) ⟨300, by decide⟩⟩

def narrowParam : Param :=
  ⟨"A", .scalar (.unsigned .w8) ⟨1, by decide⟩⟩

/-- Room for a trace and the narrow parameter. With the wide one a trace is too much, and with the
    narrow one in its place it is not. -/
theorem not_outgrown_narrowParam :
    let start := new "D" "E" .behavior (minSize + Trace.blockSize + 4)
    let changes : List Change := [.append wideParam, .trace ⟨0, 1, 0, 0⟩, .append narrowParam]
    minSize ≤ start.limit ∧ ¬ (start.applyAll (changes.take 2)).size ≤ start.limit ∧
      ¬ start.Outgrown changes ∧ (start.applyAll changes).build.isOk = true := by
  intro start changes
  have hroom : minSize ≤ start.limit := by decide
  obtain ⟨hkept, hbuild, _⟩ := build_isOk_iff_not_outgrown hroom "D" "E" .behavior changes
  have hnot : ¬ start.Outgrown changes := hkept.mp (by decide +kernel)
  exact ⟨hroom, by decide +kernel, hnot, hbuild.mpr ⟨hnot, by decide +kernel⟩⟩

/-- Room for a trace and no parameter. A parameter is taken before there is a trace, and then there
    is no room for the trace. -/
theorem outgrown_lateTrace :
    let start := new "D" "E" .behavior (minSize + Trace.blockSize)
    let changes : List Change := [.append narrowParam, .trace ⟨0, 1, 0, 0⟩]
    start.taken changes = [narrowParam] ∧ start.limit < (start.applyAll changes).size ∧
      (start.applyAll changes).build = .error (.overflow 4 0) := by
  decide +kernel

end EventReporter.Record.Builder
