import EventReporter.Library
import EventReporter.Proofs.Text.Trim
import EventReporter.Settings
namespace EventReporter

/-!
# Lists of masked domains

A list of domains is read entry by entry: what stands on the two sides of a bar is read apart, and
what stands between two bars is trimmed and is an entry if anything is left. So reading undoes
writing with bars, for all entries that can be read at all.

* `forall_isMask` : what entries are like.
* `domainMasks_intercalate` : entries that are written with bars are read again.
* `domainMasks_compositional` : the laws of such lists.
-/

/-- A domain that can be an entry of a list with bars. -/
structure IsMask (mask : String) : Prop where
  /-- It is not empty. -/
  ne_empty : mask ≠ ""
  /-- It has no bar in it. -/
  no_bar : '|' ∉ mask.toList
  /-- It neither begins nor ends with a blank. -/
  bareEnds : Text.BareEnds mask.toList

variable {masks : List String}

/-! ### What stands between bars -/

/-- `maskEntries` answers what stands between two bars, trimmed, unless it is blank. -/
theorem maskEntries_singleton {cs : List Char} {mask : String} (h : Text.trim cs = mask.toList) :
    maskEntries [cs] = if mask = "" then [] else [mask] := by
  rw [maskEntries, List.map_singleton, h]
  split
  · next hempty =>
    subst hempty
    rfl
  · next hne =>
    rw [List.filterMap_cons, if_neg (mt String.toList_eq_nil_iff.mp hne), String.ofList_toList]
    rfl

/-- An entry of `maskEntries` is one of the parts, trimmed, and is not empty. -/
theorem exists_trim_of_mem_maskEntries {parts : List (List Char)} {mask : String}
    (h : mask ∈ maskEntries parts) : mask ≠ "" ∧ ∃ cs ∈ parts, Text.trim cs = mask.toList := by
  obtain ⟨trimmed, htrimmed, hmask⟩ := List.mem_filterMap.mp h
  obtain ⟨cs, hcs, rfl⟩ := List.mem_map.mp htrimmed
  split at hmask
  · cases hmask
  · next hne =>
    cases hmask
    exact ⟨mt String.ofList_eq_empty_iff.mp hne, cs, hcs, String.toList_ofList.symm⟩

/-- `domainMasks` answers only entries with `IsMask`, those that can be written with bars. -/
theorem forall_isMask (list : String) : ∀ mask ∈ domainMasks list, IsMask mask := by
  intro mask hmask
  obtain ⟨hne, cs, hcs, htrim⟩ := exists_trim_of_mem_maskEntries hmask
  refine ⟨hne, fun hbar => ?_, htrim ▸ Text.bareEnds_trim cs⟩
  -- a bar in the entry would be one in the part, but `splitOn` leaves none there
  rw [← htrim] at hbar
  exact notMem_of_mem_splitOn hcs (Text.mem_of_mem_trim hbar)

/-! ### Lists that are put together -/

/-- `domainMasks` reads a text without bars as one entry, or as none. -/
theorem domainMasks_of_trims {list mask : String} (hbar : '|' ∉ list.toList)
    (htrims : Text.Trims list.toList mask.toList) :
    domainMasks list = if mask = "" then [] else [mask] := by
  rw [domainMasks, List.splitOn_eq_singleton hbar]
  exact maskEntries_singleton (Text.trim_of_trims htrims)

/-- `domainMasks` reads the two sides of a bar apart, as `List.splitOn` splits them. -/
theorem domainMasks_append (a b : String) :
    domainMasks (a ++ "|" ++ b) = domainMasks a ++ domainMasks b := by
  have hbar : (a ++ "|" ++ b).toList = a.toList ++ '|' :: b.toList := by
    rw [String.toList_append, String.toList_append, List.append_assoc]
    rfl
  rw [domainMasks, hbar, List.splitOn_append_cons_self, maskEntries_append]
  rfl

/-- An entry on its own is read as itself: by `domainMasks_of_trims`, for there is nothing to
    trim. -/
theorem domainMasks_of_isMask {mask : String} (h : IsMask mask) : domainMasks mask = [mask] := by
  rw [domainMasks_of_trims h.no_bar h.bareEnds.trims, if_neg h.ne_empty]

/-- Entries that are written with bars are read again: by induction on the entries, with
    `domainMasks_append` for each bar. -/
theorem domainMasks_intercalate (h : ∀ mask ∈ masks, IsMask mask) :
    domainMasks ("|".intercalate masks) = masks := by
  induction masks with
  | nil => rfl
  | cons mask masks ih =>
    obtain ⟨hmask, hmasks⟩ := List.forall_mem_cons.mp h
    -- the last entry has no bar behind it
    cases masks with
    | nil => rw [String.intercalate_singleton, domainMasks_of_isMask hmask]
    | cons next masks =>
      rw [String.intercalate_cons_of_ne_nil (List.cons_ne_nil _ _), domainMasks_append,
        domainMasks_of_isMask hmask, ih hmasks]
      rfl

/-! ### The laws -/

/-- What stands on the two sides of a bar is read apart, whatever it is, and a text without bars is
    one entry, trimmed, or none if it is blank. So no entry is empty, has a bar in it, or begins or
    ends with a blank, and the entries that are read are read again when they are written with bars;
    lists of such entries are the only ones of which that holds. -/
theorem domainMasks_compositional :
    (∀ a b : String, domainMasks (a ++ "|" ++ b) = domainMasks a ++ domainMasks b) ∧
      (∀ list mask : String, '|' ∉ list.toList → Text.Trims list.toList mask.toList →
        domainMasks list = if mask = "" then [] else [mask]) ∧
      (∀ list : String, (∀ mask ∈ domainMasks list, IsMask mask) ∧
        domainMasks ("|".intercalate (domainMasks list)) = domainMasks list) ∧
      ∀ masks : List String,
        domainMasks ("|".intercalate masks) = masks ↔ ∀ mask ∈ masks, IsMask mask := by
  refine ⟨domainMasks_append, fun _ _ => domainMasks_of_trims, fun list => ?_, fun masks => ?_⟩
  · exact ⟨forall_isMask list, domainMasks_intercalate (forall_isMask list)⟩
  · exact ⟨fun h => h ▸ forall_isMask _, domainMasks_intercalate⟩

/-- Between the bars stand an entry with blanks of three kinds around it and one inside, nothing,
    blanks, and an entry of one character. -/
theorem domainMasks_compositional_padded :
    let first := "\t\u00a0NOISY \u00e9\u3000"
    let rest := "| \u2003|B"
    '|' ∉ first.toList ∧ Text.Trims first.toList "NOISY \u00e9".toList ∧
      domainMasks (first ++ "|" ++ rest) = domainMasks first ++ domainMasks rest ∧
      domainMasks first = ["NOISY \u00e9"] ∧
      domainMasks rest = ["B"] ∧
      (∀ mask ∈ ["NOISY \u00e9", "B"], IsMask mask) ∧
      domainMasks "NOISY \u00e9|B" = ["NOISY \u00e9", "B"] := by
  intro first rest
  obtain ⟨happend, hentry, hread, hwritten⟩ := domainMasks_compositional
  have hbar : '|' ∉ first.toList := by decide +kernel
  have htrims : Text.Trims first.toList "NOISY \u00e9".toList := by
    rw [← Text.trim_eq_iff]
    decide +kernel
  have hmasks : ∀ mask ∈ domainMasks (first ++ "|" ++ rest), IsMask mask := (hread _).1
  have hrest : domainMasks rest = ["B"] := by decide +kernel
  have hfirst : domainMasks first = ["NOISY \u00e9"] := hentry _ _ hbar htrims
  rw [happend, hfirst, hrest] at hmasks
  exact ⟨hbar, htrims, happend _ _, hfirst, hrest, hmasks, (hwritten _).mpr hmasks⟩

end EventReporter
