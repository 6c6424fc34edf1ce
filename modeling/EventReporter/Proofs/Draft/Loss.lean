import EventReporter.Proofs.Draft.Latest
import EventReporter.Proofs.Draft.Whole
namespace EventReporter

/-!
# What a draft says that it has lost

A draft that takes parameters answers with one code for all of them: success if each of them went
in whole, and else the code of the first loss. A parameter that is dropped leaves the record as it
was, so the ones behind it fare as if it had not been there.

* `Draft.code_addAll_eq` : the code is that of the first loss.
* `Draft.keepsAs_tidied_iff`, `Draft.keepsAs_plain_iff` : which parameters are kept, and which
  whole.
* `Draft.reports_losses` : what the code and the record say about all parameters.
-/

/-- What can be lost of a parameter. -/
inductive Loss where
  /-- It has no key that is a name, and is dropped. -/
  | key
  /-- There are too many parameters, and it is dropped. -/
  | number
  /-- Some string of it is cut. -/
  | string
  /-- Some elements of it are left out. -/
  | array
  /-- It cannot be encoded, or the record has no room for it, and it is dropped. -/
  | encoding
deriving DecidableEq

/-- A parameter of which nothing is lost. -/
def Param.plain (p : Param) : Param :=
  ⟨p.key, p.value.plain⟩

namespace Loss

/-- The losses, in the order in which they are noticed. -/
def all : List Loss := [key, number, string, array, encoding]

/-- The code of a loss. -/
def code : Loss → Int
  | key => Status.keyInvalid
  | number => Status.tooManyParams
  | string => Status.stringTooLong
  | array => Status.arrayTooLong
  | encoding => Status.paramUnencodable

/-- The code of a loss, or of none. -/
def codeOf (o : Option Loss) : Int :=
  o.elim Status.success code

/-- A record under construction that is to take a parameter brings a loss about. -/
def Befalls (b : Record.Builder) (p : Param) : Loss → Prop
  | key => ¬ Text.isName Limits.keyBytes p.key = true
  | number => Limits.params ≤ b.entries.length ∧ b.get? p.key = none
  | string => p.value.HasLongString
  | array => p.value.HasLongArray
  | encoding => ¬ (p.tidied.bytes.length ≤ Limits.recordBytes ∧
      b.size - b.sizeOf p.key + p.tidied.bytes.length ≤ b.limit)

instance (b : Record.Builder) (p : Param) : DecidablePred (Befalls b p)
  | key => inferInstanceAs (Decidable (¬ _))
  | number => inferInstanceAs (Decidable (_ ∧ _))
  | string => inferInstanceAs (Decidable p.value.HasLongString)
  | array => inferInstanceAs (Decidable p.value.HasLongArray)
  | encoding => inferInstanceAs (Decidable (¬ (_ ∧ _)))

/-- The first loss that a parameter suffers. -/
def first? (b : Record.Builder) (p : Param) : Option Loss :=
  all.find? (Befalls b p)

/-! ### Codes -/

/-- Every loss has the code of a warning. -/
theorem code_pos (l : Loss) : 0 < l.code := by
  cases l <;> decide

/-- `codeOf` is success exactly if nothing was lost. -/
theorem codeOf_eq_success_iff (o : Option Loss) : codeOf o = Status.success ↔ o = none := by
  cases o with
  | none => exact iff_of_true rfl rfl
  | some l => exact iff_of_false (Int.ne_of_gt l.code_pos) nofun

/-- Of two losses the first one stays, as `Status.fold` keeps the first warning. -/
theorem fold_codeOf (o : Option Loss) (o' : Option Loss) :
    Status.fold (codeOf o) (codeOf o') = codeOf (o.or o') := by
  have hpos : ∀ o : Option Loss, 0 ≤ codeOf o := by
    rintro (_ | l)
    · exact Int.le_refl 0
    · exact Int.le_of_lt l.code_pos
  have hnext := hpos o'
  rw [Status.fold_eq]
  cases o with
  | none =>
    -- success gives way to any warning
    have hnone : codeOf none = 0 := rfl
    rw [hnone, Option.none_or]
    split <;> omega
  | some l =>
    have hl : 0 < codeOf (some l) := l.code_pos
    rw [Option.some_or]
    split
    · rfl
    · split <;> omega

/-! ### The first loss of a parameter -/

variable {b : Record.Builder} {p : Param}

/-- Nothing is lost of a parameter exactly if the record `Takes` it and neither its texts nor its
    array are too long. -/
theorem first?_eq_none_iff :
    first? b p = none ↔ Draft.Takes b p ∧ ¬ p.value.HasLongString ∧ ¬ p.value.HasLongArray := by
  have hroom : ¬ (Limits.params ≤ b.entries.length ∧ b.get? p.key = none) ↔
      b.entries.length < Limits.params ∨ (b.get? p.key).isSome = true := by
    rw [not_and_or, Nat.not_le, Option.isSome_iff_ne_none]
  have hall : first? b p = none ↔ ∀ l ∈ all, ¬ Befalls b p l := by
    rw [first?, List.find?_eq_none]
    simp only [decide_eq_true_eq]
  rw [hall]
  simp only [all, List.forall_mem_cons, Befalls, hroom, not_not, Draft.Takes]
  tauto

/-- Nothing else is noticed of a parameter with a bad key. -/
theorem first?_of_key (h : Befalls b p key) : first? b p = some key := by
  rw [first?, all, List.find?_cons_of_pos (by simpa using h)]

/-- Nothing else is noticed of a parameter that is one too many. -/
theorem first?_of_number (hkey : ¬ Befalls b p key) (h : Befalls b p number) :
    first? b p = some number := by
  rw [first?, all, List.find?_cons_of_neg (by simpa using hkey),
    List.find?_cons_of_pos (by simpa using h)]

/-- A loss that befalls a parameter. -/
def noticed (b : Record.Builder) (p : Param) (l : Loss) : Option Loss :=
  if Befalls b p l then some l else none

/-- Of any other parameter three losses can be noticed, in this order. -/
theorem first?_of_value (hkey : ¬ Befalls b p key) (hnumber : ¬ Befalls b p number) :
    first? b p = ((noticed b p string).or (noticed b p array)).or (noticed b p encoding) := by
  rw [first?, all, List.find?_cons_of_neg (by simpa using hkey),
    List.find?_cons_of_neg (by simpa using hnumber)]
  unfold noticed
  by_cases hstring : Befalls b p string <;> by_cases harray : Befalls b p array <;>
    by_cases hencoding : Befalls b p encoding <;> simp [hstring, harray, hencoding]

end Loss

namespace Draft

variable {d : Draft} {o : Option Loss}

/-! ### The code -/

/-- `warn` with the code of a loss puts it behind those that are there. -/
theorem code_warn_eq (h : d.code = Loss.codeOf o) (l : Loss) (e : Journal.Entry) :
    (d.warn l.code e).code = Loss.codeOf (o.or (some l)) := by
  rw [← Loss.fold_codeOf, ← h]
  rfl

/-- `warnIf` with the code of a loss puts it behind those that are there, if it has come about. -/
theorem code_warnIf_eq (h : d.code = Loss.codeOf o) {lost : Bool} {P : Prop} [Decidable P]
    (hlost : lost = true ↔ P) (l : Loss) (e : Journal.Entry) :
    (d.warnIf lost l.code e).code = Loss.codeOf (o.or (if P then some l else none)) := by
  unfold warnIf
  by_cases hP : P
  · rw [if_pos hP, if_pos (hlost.mpr hP)]
    exact code_warn_eq h l e
  · rw [if_neg hP, if_neg (hP ∘ hlost.mp), Option.or_none]
    exact h

/-- What `addValue` notices of a value: two warnings before the value is tried, by
    `code_warnIf_eq`, and one if it is refused. -/
theorem code_addValue_eq (h : d.code = Loss.codeOf o) (p : Param) :
    (d.addValue p.key p.value).code
      = Loss.codeOf (((o.or (Loss.noticed d.builder p .string)).or
          (Loss.noticed d.builder p .array)).or (Loss.noticed d.builder p .encoding)) := by
  have hstring := code_warnIf_eq h p.value.cutStrings_snd .string
    (entry "string value truncated" [("key", .text p.key), ("max", .number Limits.stringBytes)])
  have harray := code_warnIf_eq hstring p.value.cutArray_snd .array
    (entry "array truncated" [("key", .text p.key), ("max", .number Limits.elements)])
  have hfits := Record.Builder.add_isOk_iff d.builder p.tidied
  unfold addValue
  simp only
  split
  · next builder hadd =>
    rw [builder_warnIf, builder_warnIf] at hadd
    have hok : d.builder.add p.tidied = .ok builder := hadd
    rw [hok] at hfits
    -- the record took it, so there was room
    have hnone : Loss.noticed d.builder p .encoding = none := if_neg (not_not_intro (hfits.mp rfl))
    rw [hnone, Option.or_none]
    exact harray
  · next e hadd =>
    rw [builder_warnIf, builder_warnIf] at hadd
    have herror : d.builder.add p.tidied = .error e := hadd
    rw [herror] at hfits
    -- the record refused it, for want of room
    have hsome : Loss.noticed d.builder p .encoding = some .encoding :=
      if_pos fun hroom => absurd (hfits.mpr hroom) nofun
    rw [hsome]
    exact code_warn_eq harray .encoding _

/-- The code after `add` is that of the first loss, of those before and of this parameter. -/
theorem code_add_eq (h : d.code = Loss.codeOf o) (p : Param) :
    (d.add p).code = Loss.codeOf (o.or (Loss.first? d.builder p)) := by
  unfold add
  split
  · next hkey =>
    rw [Loss.first?_of_key hkey]
    exact code_warn_eq h .key _
  · next hkey =>
    split
    · next hnumber =>
      rw [Loss.first?_of_number hkey ⟨hnumber.1, Option.isNone_iff_eq_none.mp hnumber.2⟩]
      exact code_warn_eq h .number _
    · next hnumber =>
      have hroom : ¬ Loss.Befalls d.builder p .number := fun hfull =>
        hnumber ⟨hfull.1, Option.isNone_iff_eq_none.mpr hfull.2⟩
      rw [code_addValue_eq h, Loss.first?_of_value hkey hroom, ← Option.or_assoc,
        ← Option.or_assoc]

/-- The first loss of some parameters. -/
def firstLoss (d : Draft) : List Param → Option Loss
  | [] => none
  | p :: ps => (Loss.first? d.builder p).or ((d.add p).firstLoss ps)

/-- The code is that of the first loss of all: by induction on the parameters, with `code_add_eq`
    for each. -/
theorem code_addAll_eq (h : d.code = Loss.codeOf o) (ps : List Param) :
    (d.addAll ps).code = Loss.codeOf (o.or (d.firstLoss ps)) := by
  induction ps generalizing d o with
  | nil => rwa [firstLoss, Option.or_none]
  | cons p ps ih =>
    rw [firstLoss, ← Option.or_assoc]
    exact ih (code_add_eq h p)

/-- Nothing is lost if nothing is lost of any parameter, each as the draft is when it comes. -/
theorem firstLoss_eq_none_iff (ps : List Param) :
    d.firstLoss ps = none ↔
      ∀ before p after, ps = before ++ p :: after →
        Loss.first? (d.addAll before).builder p = none := by
  induction ps generalizing d with
  | nil =>
    refine iff_of_true rfl fun before p after h => ?_
    exact absurd h.symm (List.append_ne_nil_of_right_ne_nil _ nofun)
  | cons q ps ih =>
    rw [firstLoss, Option.or_eq_none_iff, ih]
    constructor
    · rintro ⟨hfirst, hrest⟩ before p after heq
      cases before with
      | nil =>
        cases heq
        exact hfirst
      | cons r before =>
        obtain ⟨rfl, htail⟩ := List.cons.inj heq
        exact hrest before p after htail
    · intro h
      exact ⟨h [] q ps rfl, fun before p after heq => h (q :: before) p after (heq ▸ rfl)⟩

/-! ### What is kept -/

/-- Once a parameter has been added, the record ends with `q`. -/
def KeepsAs (d : Draft) (p q : Param) : Prop :=
  (d.add p).builder.params.getLast? = some q

instance (d : Draft) (p q : Param) : Decidable (d.KeepsAs p q) :=
  inferInstanceAs (Decidable (_ = _))

/-- The parameters of a record under construction fit, one by one and together. -/
structure Fits (b : Record.Builder) : Prop where
  /-- Each of them can be encoded. -/
  each : ∀ e ∈ b.entries, e.bytes.length ≤ Limits.recordBytes
  /-- If there are any, the record keeps to its limit. -/
  together : b.entries ≠ [] → b.size ≤ b.limit

/-- `Fits` is kept: what `add` takes keeps to both limits. -/
theorem fits_add (h : Fits d.builder) (p : Param) : Fits (d.add p).builder := by
  rw [builder_add]
  split
  · next htakes =>
    obtain ⟨_, _, hencoded, hroom⟩ := htakes
    refine ⟨fun e he => ?_, fun _ => ?_⟩
    · -- an entry is an old one, which had room on its own, or the new one
      rcases List.mem_append.mp he with hold | hnew
      · exact h.each e (List.mem_of_mem_eraseP hold)
      · rw [List.mem_singleton.mp hnew]
        exact hencoded
    · exact Nat.le_trans (Nat.le_of_eq (d.builder.size_replace (Record.Entry.ofParam p))) hroom
  · exact h

/-- `Fits` is kept by any number of parameters. -/
theorem fits_addAll (h : Fits d.builder) (ps : List Param) : Fits (d.addAll ps).builder := by
  induction ps generalizing d with
  | nil => exact h
  | cons p ps ih => exact ih (fits_add h p)

variable {start : Record.Builder} {taken : List Param} {p : Param}

/-- A record `Takes` the parameter that it ends with once more: its key is there, so it is not one
    too many, and the room that it takes is the one that it leaves. -/
theorem takes_of_getLast? {b : Record.Builder} (hholds : Holds start taken b) (hfits : Fits b)
    (hlast : b.params.getLast? = some p.tidied) : Takes b p := by
  have hentries := entries_of_holds hholds
  -- it was taken before, as some other parameter perhaps
  obtain ⟨e, he, hparam⟩ := List.mem_map.mp (List.mem_of_getLast? hlast)
  have hof : e ∈ (Param.latest taken).map Record.Entry.ofParam := hentries ▸ he
  obtain ⟨q, hq, rfl⟩ := List.mem_map.mp hof
  have hsame : q.tidied = p.tidied := hparam
  have hkey : q.key = p.key := show q.tidied.key = p.tidied.key from congrArg _ hsame
  have hbytes : (Record.Entry.ofParam q).bytes = p.tidied.bytes := congrArg Param.bytes hsame
  -- it is the only one with its key
  have hkeys : (b.entries.map (·.param.key)).Nodup := by
    rw [hentries, List.map_map]
    exact Param.nodup_keys_latest taken
  have hfind : b.entries.find? (·.param.key == p.key) = some (Record.Entry.ofParam q) := by
    have hthere : (b.entries.find? (·.param.key == p.key)).isSome = true :=
      List.find?_isSome.mpr ⟨_, he, beq_iff_eq.mpr hkey⟩
    obtain ⟨e, hfound⟩ := Option.isSome_iff_exists.mp hthere
    have hekey : e.param.key = p.key := by simpa using List.find?_some hfound
    have heq := List.inj_on_of_nodup_map hkeys (List.mem_of_find?_eq_some hfound) he
      (hekey.trans hkey.symm)
    rw [hfound, heq]
  have hsizeOf : b.sizeOf p.key = p.tidied.bytes.length := by
    rw [Record.Builder.sizeOf, hfind, ← hbytes]
    rfl
  -- what this parameter takes is what `sizeOf` says that it leaves
  have hsum := b.entriesSize_without p.key
  have htotal : b.size = b.baseSize + Record.Builder.entriesSize b.entries := rfl
  have hlimit := hfits.together (List.ne_nil_of_mem he)
  refine ⟨?_, .inr ?_, ?_, ?_⟩
  · exact hkey ▸ hholds.names q ((Param.latest_sublist taken).subset hq)
  · rw [Record.Builder.get?, hfind]
    rfl
  · exact hbytes ▸ hfits.each _ he
  · omega

/-- A parameter is kept in some form if it is taken. That the record ends with this form is no
    other parameter's doing, by `takes_of_getLast?`. -/
theorem keepsAs_tidied_iff (hholds : Holds start taken d.builder) (hfits : Fits d.builder)
    (p : Param) : d.KeepsAs p p.tidied ↔ Takes d.builder p := by
  unfold KeepsAs
  rw [builder_add]
  split
  · next htakes =>
    refine iff_of_true ?_ htakes
    rw [Record.Builder.params, List.map_append]
    exact List.getLast?_concat
  · exact ⟨takes_of_getLast? hholds hfits, fun htakes => absurd htakes ‹_›⟩

/-- What a record holds has been shortened already, and is not changed by `tidied`. -/
theorem tidied_of_mem_params {b : Record.Builder} (hholds : Holds start taken b)
    (h : p ∈ b.params) : p.value.tidied = p.value := by
  rw [Record.Builder.params, entries_of_holds hholds, List.map_map] at h
  obtain ⟨q, -, rfl⟩ := List.mem_map.mp h
  exact q.value.tidied_tidied

/-- A parameter is kept whole if nothing of it is lost. -/
theorem keepsAs_plain_iff (hholds : Holds start taken d.builder) (hfits : Fits d.builder)
    (p : Param) : d.KeepsAs p p.plain ↔ Loss.first? d.builder p = none := by
  rw [Loss.first?_eq_none_iff, ← p.value.tidied_eq_plain_iff, ← keepsAs_tidied_iff hholds hfits]
  have hplain : p.value.tidied = p.value.plain → p.tidied = p.plain := congrArg (Param.mk p.key)
  constructor
  · intro hkeeps
    -- it stands in the record as it came, so shortening does not change it
    have hwhole := tidied_of_mem_params (holds_add hholds p) (List.mem_of_getLast? hkeeps)
    have hvalue : p.value.tidied = p.value.plain := p.value.tidied_plain.symm.trans hwhole
    rw [hplain hvalue]
    exact ⟨hkeeps, hvalue⟩
  · rintro ⟨hkeeps, hvalue⟩
    rwa [← hplain hvalue]

/-- A parameter that is not kept in any form leaves the record as it was. -/
theorem builder_add_of_not_keepsAs (hholds : Holds start taken d.builder) (hfits : Fits d.builder)
    (h : ¬ d.KeepsAs p p.tidied) : (d.add p).builder = d.builder := by
  rw [builder_add, if_neg (mt (keepsAs_tidied_iff hholds hfits p).mpr h)]

/-! ### All parameters -/

/-- What `add` does to the record depends on the record only. -/
theorem builder_add_congr {d' : Draft} (h : d.builder = d'.builder) (p : Param) :
    (d.add p).builder = (d'.add p).builder := by
  rw [builder_add, builder_add, h]

/-- What becomes of the record depends on nothing else, codes and entries of the journal among
    it. -/
theorem builder_addAll_congr {d' : Draft} (h : d.builder = d'.builder) (ps : List Param) :
    (d.addAll ps).builder = (d'.addAll ps).builder := by
  induction ps generalizing d d' with
  | nil => exact h
  | cons p ps ih => exact ih (builder_add_congr h p)

/-- What is lost depends on the record only, as what becomes of it does. -/
theorem firstLoss_congr {d' : Draft} (h : d.builder = d'.builder) (ps : List Param) :
    d.firstLoss ps = d'.firstLoss ps := by
  induction ps generalizing d d' with
  | nil => rfl
  | cons p ps ih => rw [firstLoss, firstLoss, h, ih (builder_add_congr h p)]

/-- If nothing is lost, all parameters are `accepted`. -/
theorem accepted_of_firstLoss {ps : List Param} (h : d.firstLoss ps = none) :
    d.accepted ps = ps := by
  induction ps generalizing d with
  | nil => rfl
  | cons p ps ih =>
    obtain ⟨hfirst, hrest⟩ := Option.or_eq_none_iff.mp h
    rw [accepted, if_pos (Loss.first?_eq_none_iff.mp hfirst).1, ih hrest]
    rfl

/-- A draft that starts without parameters answers with success exactly if each parameter, when it
    was added, was put into the record whole, and then the record holds the last one with each key,
    in the order in which these came. Else it answers with the code of the first loss. There are
    not too many parameters in the record, and one that was not kept makes no difference to what
    becomes of the others and to what is lost of them. -/
theorem reports_losses (header : Header) (trace : Trace) (limit : Nat) :
    let fresh := new ⟨header, trace, [], limit⟩
    (∀ ps, (fresh.addAll ps).builder.params.length ≤ Limits.params ∧
      ((fresh.addAll ps).code = Status.success ↔
        ∀ before p after, ps = before ++ p :: after → (fresh.addAll before).KeepsAs p p.plain) ∧
      ((fresh.addAll ps).code = Status.success →
        (fresh.addAll ps).builder.params = (Param.latest ps).map Param.plain) ∧
      (fresh.addAll ps).code = Loss.codeOf (fresh.firstLoss ps)) ∧
    ∀ before p after, ¬ (fresh.addAll before).KeepsAs p p.tidied →
      (fresh.addAll (before ++ p :: after)).builder = (fresh.addAll (before ++ after)).builder ∧
        ((fresh.addAll before).add p).firstLoss after = (fresh.addAll before).firstLoss after := by
  intro fresh
  -- all that follows is read off the record that each list of parameters leads to
  have hholds (ps : List Param) :
      Holds fresh.builder (fresh.accepted ps) (fresh.addAll ps).builder := holds_addAll rfl ps
  have hfits (ps : List Param) : Fits (fresh.addAll ps).builder :=
    fits_addAll (d := fresh) ⟨fun _ he => absurd he List.not_mem_nil, fun h => absurd rfl h⟩ ps
  have hcode (ps : List Param) : (fresh.addAll ps).code = Loss.codeOf (fresh.firstLoss ps) :=
    code_addAll_eq (o := none) rfl ps
  have hparams (ps : List Param) : (fresh.addAll ps).builder.params
      = (Param.latest (fresh.accepted ps)).map Param.tidied := by
    rw [Record.Builder.params, entries_of_holds (hholds ps), List.map_map]
    rfl
  have hsuccess (ps : List Param) : (fresh.addAll ps).code = Status.success ↔
      ∀ before p after, ps = before ++ p :: after → (fresh.addAll before).KeepsAs p p.plain := by
    rw [hcode, Loss.codeOf_eq_success_iff, firstLoss_eq_none_iff]
    refine forall_congr' fun before => forall_congr' fun p => forall₂_congr fun after _ => ?_
    exact (keepsAs_plain_iff (hholds before) (hfits before) p).symm
  refine ⟨fun ps => ⟨?_, hsuccess ps, fun h => ?_, hcode ps⟩, fun before p after hdropped => ?_⟩
  · rw [hparams, List.length_map]
    exact (hholds ps).count
  · have hnone : fresh.firstLoss ps = none := by
      rwa [hcode, Loss.codeOf_eq_success_iff] at h
    rw [hparams, accepted_of_firstLoss hnone]
    refine List.map_congr_left fun p hp => ?_
    -- nothing was lost of it when it was added
    obtain ⟨before, after, heq⟩ := List.append_of_mem ((Param.latest_sublist ps).subset hp)
    have hfirst := (firstLoss_eq_none_iff ps).mp hnone before p after heq
    have hwhole := (Loss.first?_eq_none_iff.mp hfirst).2
    exact congrArg (Param.mk p.key) (p.value.tidied_eq_plain_iff.mpr hwhole)
  · have hunchanged := builder_add_of_not_keepsAs (hholds before) (hfits before) hdropped
    rw [addAll_append, addAll_append]
    exact ⟨builder_addAll_congr hunchanged after, firstLoss_congr hunchanged after⟩

/-- Three parameters, two of which have one key and one of which is an array without elements. -/
def sampleParams : List Param :=
  [⟨"A", .scalar (.unsigned .w8) ⟨5, by decide⟩⟩, ⟨"B", .array .string []⟩,
    ⟨"A", .scalar (.unsigned .w8) ⟨6, by decide⟩⟩]

/-- A parameter whose key is no name. -/
def namelessParam : Param :=
  ⟨"1", .scalar .bool true⟩

/-- The three of them go in whole, and one without a name between them makes no difference. -/
theorem reports_losses_sampleParams :
    let fresh := new ⟨Header.new "D" "E" .behavior, Trace.none, [], 4096⟩
    (fresh.addAll sampleParams).code = Status.success ∧
      (fresh.addAll sampleParams).builder.params
        = [⟨"B", .array .bool []⟩, ⟨"A", .scalar (.unsigned .w8) ⟨6, by decide⟩⟩] ∧
      ¬ (fresh.addAll (sampleParams.take 1)).KeepsAs namelessParam namelessParam.tidied ∧
      (fresh.addAll (sampleParams.take 1 ++ namelessParam :: sampleParams.drop 1)).builder
        = (fresh.addAll sampleParams).builder := by
  intro fresh
  obtain ⟨hall, hdropped⟩ := reports_losses (Header.new "D" "E" .behavior) Trace.none 4096
  have hsuccess : (fresh.addAll sampleParams).code = Status.success := by decide +kernel
  have hgone : ¬ (fresh.addAll (sampleParams.take 1)).KeepsAs namelessParam
      namelessParam.tidied := by
    decide +kernel
  refine ⟨hsuccess, ?_, hgone, (hdropped _ _ (sampleParams.drop 1) hgone).1⟩
  exact ((hall sampleParams).2.2.1 hsuccess).trans (by decide +kernel)

end Draft

end EventReporter
