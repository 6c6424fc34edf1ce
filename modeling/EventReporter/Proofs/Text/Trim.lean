import EventReporter.Library
import EventReporter.Text
namespace EventReporter.Text

/-!
# Trimmed texts

A text is trimmed to the part of it that neither begins nor ends with a blank, with nothing but
blanks around it. There is one such part, empty in a text of blanks only.

* `trim_eq_iff` : what is left of a text.
* `mem_of_mem_trim` : nothing new comes in.
-/

/-- Whether a text neither begins nor ends with a blank. -/
structure BareEnds (cs : List Char) : Prop where
  /-- The first character, if there is one, is not blank. -/
  first : ∀ c ∈ cs.head?, isBlank c = false
  /-- Nor is the last one. -/
  last : ∀ c ∈ cs.getLast?, isBlank c = false

/-- `Trims cs mid` says that `mid` is `cs` without the blanks at its two ends. -/
inductive Trims : List Char → List Char → Prop where
  /-- Only blanks stand around it, and it has none at its own ends. -/
  | within {left mid right : List Char} (hleft : ∀ c ∈ left, isBlank c = true)
    (hmid : BareEnds mid) (hright : ∀ c ∈ right, isBlank c = true) :
    Trims (left ++ mid ++ right) mid

variable {cs mid : List Char}

/-! ### What is left -/

/-- `trim` drops blanks at the front, and then at the end. -/
theorem trim_eq_rdropWhile (cs : List Char) : trim cs = (cs.dropWhile isBlank).rdropWhile isBlank :=
  rfl

/-- What `trim` leaves neither begins nor ends with a blank. Dropping at the end does not bring a
    blank to the front, since it leaves a prefix. -/
theorem bareEnds_trim (cs : List Char) : BareEnds (trim cs) := by
  rw [trim_eq_rdropWhile]
  constructor
  · -- the first character that is left is the first one that is not blank
    intro c hc
    obtain ⟨rest, hrest⟩ := List.head?_eq_some_iff.mp (Option.mem_def.mp hc)
    obtain ⟨right, hright⟩ := List.rdropWhile_prefix isBlank (cs.dropWhile isBlank)
    have hfirst := List.head?_dropWhile_not isBlank cs
    rw [← hright, hrest] at hfirst
    exact hfirst
  · -- the last one is where the dropping from the end has stopped
    intro c hc
    obtain ⟨hne, rfl⟩ := List.mem_getLast?_eq_getLast hc
    exact Bool.not_eq_true _ ▸ List.rdropWhile_last_not isBlank (cs.dropWhile isBlank) hne

/-- Around what `trim` leaves stands what it has dropped, which is blank. -/
theorem trims_trim (cs : List Char) : Trims cs (trim cs) := by
  have hwhole : cs.takeWhile isBlank ++ trim cs ++ (cs.dropWhile isBlank).rtakeWhile isBlank
      = cs := by
    rw [List.append_assoc, trim_eq_rdropWhile, List.rdropWhile_append_rtakeWhile,
      List.takeWhile_append_dropWhile]
  have htrims : Trims (cs.takeWhile isBlank ++ trim cs
      ++ (cs.dropWhile isBlank).rtakeWhile isBlank) (trim cs) :=
    .within (fun _ => List.mem_takeWhile_imp) (bareEnds_trim cs) fun _ => List.mem_rtakeWhile_imp
  rwa [hwhole] at htrims

/-- Nothing else can be left: the blanks at the front are dropped up to the first character of
    `mid`, and those at the end down to its last one. -/
theorem trim_of_trims (h : Trims cs mid) : trim cs = mid := by
  cases h with
  | @within left mid right hleft hmid hright =>
    rw [trim_eq_rdropWhile, List.append_assoc, List.dropWhile_append_of_pos hleft]
    cases mid with
    | nil =>
      -- nothing but blanks
      rw [List.nil_append, List.dropWhile_eq_nil_iff.mpr hright, List.rdropWhile_nil]
    | cons c mid =>
      have hfirst : ¬ isBlank c = true := by
        rw [hmid.first c rfl]
        exact Bool.false_ne_true
      rw [List.cons_append, List.dropWhile_cons_of_neg hfirst, ← List.cons_append,
        rdropWhile_append_of_pos _ hright, List.rdropWhile_eq_self_iff]
      intro hne hblank
      rw [hmid.last _ (List.getLast?_eq_some_getLast hne)] at hblank
      cases hblank

/-- What is left of a text by `trim`, and nothing else, has only blanks around it and none at its
    own ends: `trims_trim` and `trim_of_trims`. -/
theorem trim_eq_iff : trim cs = mid ↔ Trims cs mid :=
  ⟨fun h => h ▸ trims_trim cs, trim_of_trims⟩

/-- A text that is bare at its ends is what is left of itself. -/
theorem BareEnds.trims (h : BareEnds cs) : Trims cs cs := by
  have htrims : Trims ([] ++ cs ++ []) cs := .within nofun h nofun
  rwa [List.nil_append, List.append_nil] at htrims

/-- No character comes in when a text is trimmed by `trim`. -/
theorem mem_of_mem_trim {c : Char} (h : c ∈ trim cs) : c ∈ cs :=
  List.dropWhile_subset _ ((List.rdropWhile_prefix isBlank _).subset h)

end EventReporter.Text
