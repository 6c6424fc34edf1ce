import EventReporter.Proofs.Foreign.Convert
import EventReporter.Proofs.Transport.Arrival
import EventReporter.Settings
namespace EventReporter.Foreign

/-!
# Writing for C callers

A C caller's event is written like any other, with those of its parameters that make sense. What is
wrong with the others changes nothing about the write; it is reported if the write does not fail. A
call whose texts or whose event type make no sense does not get to the writer at all.

* `convertAll_eq` : which parameters are taken over, and what is said about the others.
* `write_exact` : a call is a write of what makes sense.
-/

variable {σ : Type}

/-! ### Parameters in order -/

/-- The parameters of a call: the caller says how many there are. -/
def given (params : Option (List ForeignParam)) (size : Nat) : List ForeignParam :=
  (params.getD []).take size

/-- What a parameter is taken over as. -/
def taken? (p : ForeignParam) : Option Param :=
  p.convert.toOption

/-- What is wrong with a parameter. -/
def complaint? (p : ForeignParam) : Option Int :=
  match p.convert with
  | .ok _ => none
  | .error c => some c

/-- What is said about a parameter. -/
def remark? (p : ForeignParam) : Option Journal.Entry :=
  (complaint? p).map (rejectedEntry p.content.code)

/-- What is wrong with the parameters of a call, in order. If there is no list where there should be
    one, then that is all. -/
def complaints (params : Option (List ForeignParam)) (size : Nat) : List Int :=
  if params.isNone ∧ 0 < size then [Status.valueInvalid]
  else (given params size).filterMap complaint?

/-- Complaints are warnings: the codes for a name and for a value are above 0. -/
theorem complaint_pos {p : ForeignParam} {c : Int} (h : complaint? p = some c) : 0 < c := by
  unfold complaint? at h
  split at h
  · cases h
  · next hp =>
    cases h
    cases convert_eq_iff.mp hp with
    | nameless => decide
    | senseless => decide

/-- All `complaints` are warnings, that about a missing list among them. -/
theorem complaints_pos (params : Option (List ForeignParam)) (size : Nat) :
    ∀ c ∈ complaints params size, 0 < c := by
  intro c hc
  unfold complaints at hc
  split at hc
  · rw [List.mem_singleton.mp hc]
    decide
  · obtain ⟨p, _, hp⟩ := List.mem_filterMap.mp hc
    exact complaint_pos hp

/-- `convertAll` notes what it rejects, keeps what it takes, and puts the complaints together. By
    induction on the parameters, for any that were taken before. -/
theorem convertAll_eq (params : List Param) (code : Int) (ps : List ForeignParam) :
    (convertAll params code ps : Action σ _) = (do
      (ps.filterMap remark?).forM note
      pure (params.reverse ++ ps.filterMap taken?,
        (ps.filterMap complaint?).foldl Status.fold code)) := by
  induction ps generalizing params code with
  | nil => simp [convertAll]
  | cons p ps ih =>
    rw [convertAll]
    cases hp : p.convert with
    | ok q =>
      have htaken : taken? p = some q := congrArg Except.toOption hp
      have hcomplaint : complaint? p = none := by rw [complaint?, hp]
      have hremark : remark? p = none := by rw [remark?, hcomplaint, Option.map_none]
      simp only [ih, List.filterMap_cons, htaken, hcomplaint, hremark, List.reverse_cons,
        List.append_assoc, List.singleton_append]
    | error c =>
      have htaken : taken? p = none := congrArg Except.toOption hp
      have hcomplaint : complaint? p = some c := by rw [complaint?, hp]
      -- a parameter that is rejected leaves an entry and a code
      have hremark : remark? p = some (rejectedEntry p.content.code c) := by
        rw [remark?, hcomplaint, Option.map_some]
      simp [ih, htaken, hcomplaint, hremark]

/-! ### The status code -/

/-- Of several warnings the first one stays, by `Status.fold_eq`. -/
theorem foldl_fold_of_pos {code : Int} (hcode : 0 < code) {cs : List Int}
    (hcs : ∀ c ∈ cs, 0 < c) : cs.foldl Status.fold code = code := by
  induction cs with
  | nil => rfl
  | cons c cs ih =>
    obtain ⟨hc, hcs⟩ := List.forall_mem_cons.mp hcs
    have hstays : Status.fold code c = code := by
      rw [Status.fold_eq, if_neg (by omega), if_neg (by omega), if_pos hcode]
    rw [List.foldl_cons, hstays]
    exact ih hcs

/-- Without an error before them, the code is that of the first warning. -/
theorem foldl_fold_success {cs : List Int} (hcs : ∀ c ∈ cs, 0 < c) :
    cs.foldl Status.fold Status.success = cs.head?.getD Status.success := by
  cases cs with
  | nil => rfl
  | cons c cs =>
    obtain ⟨hc, hcs⟩ := List.forall_mem_cons.mp hcs
    have hfirst : Status.fold Status.success c = c := by
      rw [Status.fold_eq, Status.success, if_neg (by omega), if_neg (by omega), if_neg (by omega)]
    rw [List.foldl_cons, hfirst]
    exact foldl_fold_of_pos hc hcs

/-- The code in front of the writer is that of the first of all `complaints`. -/
theorem foldl_complaints (params : Option (List ForeignParam)) (size : Nat) :
    ((given params size).filterMap complaint?).foldl Status.fold (listCode params size)
      = (complaints params size).head?.getD Status.success := by
  have hwarnings := complaints_pos params size
  unfold listCode
  by_cases hmissing : params.isNone ∧ 0 < size
  · -- without a list there is nothing else to complain about
    have hnone : given params size = [] := by
      rw [given, Option.isNone_iff_eq_none.mp hmissing.1, Option.getD_none, List.take_nil]
    rw [complaints, if_pos hmissing, if_pos hmissing, hnone]
    rfl
  · rw [complaints, if_neg hmissing] at hwarnings
    rw [complaints, if_neg hmissing, if_neg hmissing]
    exact foldl_fold_success hwarnings

/-- A warning gives way to a failure of the writer and stays before anything else. -/
theorem fold_head? {cs : List Int} (hcs : ∀ c ∈ cs, 0 < c) (code : Int) :
    Status.fold (cs.head?.getD Status.success) code
      = if code < 0 then code else cs.head?.getD code := by
  cases cs with
  | nil =>
    rw [Status.fold_eq, List.head?_nil, Option.getD_none, Option.getD_none, Status.success,
      if_neg (Int.lt_irrefl 0), if_neg (Int.lt_irrefl 0)]
  | cons c cs =>
    have hc : 0 < c := hcs c List.mem_cons_self
    rw [Status.fold_eq, List.head?_cons, Option.getD_some, Option.getD_some, if_neg (by omega),
      if_pos hc]

/-! ### Calls -/

/-- `write` of a call with a domain, a name and a type that mean something: `convertAll_eq`, then
    the writer, and `foldl_complaints` for the code. -/
theorem write_of_points (net : Network σ) (w : Writer) (s : Surroundings) {domain name : Pointer}
    {d n : String} (hdomain : Points domain d) (hname : Points name n) (type : EventType)
    (params : Option (List ForeignParam)) (size : Nat) :
    write net w s domain name type.code params size = (do
      ((given params size).filterMap remark?).forM note
      let (w, code) ← w.write net s none callSite
        ⟨d, n, type, (given params size).filterMap taken?⟩
      pure (w, if code < 0 then code else (complaints params size).head?.getD code)) := by
  have hgiven : (params.getD []).take size = given params size := rfl
  unfold write
  simp only [text?_eq_some_iff.mpr hdomain, text?_eq_some_iff.mpr hname, EventType.ofCode_code]
  rw [hgiven, convertAll_eq, foldl_complaints]
  simp [fold_head? (complaints_pos params size)]

/-- A call without a domain, without a name or with an event type that means nothing is answered
    in this order of precedence, and leaves the writer and everything outside as they were. Any
    other call writes what it has of parameters that make sense, in their order, and answers with
    the writer's code if that is a failure, else with the first complaint about a parameter, and
    with the writer's code if there is none. What becomes of a parameter depends on it alone. -/
theorem write_exact (net : Network σ) (w : Writer) (s : Surroundings) (domain name : Pointer)
    (type : Int) (params : Option (List ForeignParam)) (size : Nat) :
    ((∀ d, ¬ Points domain d) →
      write net w s domain name type params size = pure (w, Status.domainInvalid)) ∧
    ((∃ d, Points domain d) → (∀ n, ¬ Points name n) →
      write net w s domain name type params size = pure (w, Status.nameInvalid)) ∧
    (∀ d n, Points domain d → Points name n → type < 1 ∨ 4 < type →
      write net w s domain name type params size = (do
        note (typeEntry d n type)
        pure (w, Status.typeInvalid))) ∧
    (∀ d n, Points domain d → Points name n → 1 ≤ type → type ≤ 4 →
      ∃ t : EventType, type = t.code ∧
        write net w s domain name type params size = (do
          ((given params size).filterMap remark?).forM note
          let (w, code) ← w.write net s none callSite
            ⟨d, n, t, (given params size).filterMap taken?⟩
          pure (w, if code < 0 then code else (complaints params size).head?.getD code))) ∧
    ∀ p ∈ given params size, ∀ outcome, p.convert = outcome ↔ Becomes p outcome := by
  refine ⟨fun hdomain => ?_, ?_, ?_, ?_, fun p _ outcome => convert_eq_iff⟩
  · unfold write
    simp only [text?_eq_none_iff.mpr hdomain]
  · rintro ⟨d, hdomain⟩ hname
    unfold write
    simp only [text?_eq_some_iff.mpr hdomain, text?_eq_none_iff.mpr hname]
  · intro d n hdomain hname htype
    unfold write
    simp only [text?_eq_some_iff.mpr hdomain, text?_eq_some_iff.mpr hname,
      EventType.ofCode_of_outOfRange htype]
  · intro d n hdomain hname hfirst hlast
    obtain ⟨t, rfl⟩ := EventType.exists_code_eq hfirst hlast
    exact ⟨t, rfl, write_of_points net w s hdomain hname t params size⟩

/-- A pointer to a text. -/
def pointerTo (s : String) : Pointer :=
  some (Text.utf8 s ++ [0])

/-- Parameters with a wrong type code, with a name that does not end and with a missing element, and
    between them two that make sense. -/
def sampleParams : List ForeignParam :=
  [⟨nameBytes (Text.utf8 "LEVEL"), .unknown 99 rfl⟩,
    ⟨nameBytes (Text.utf8 "COUNT"), .scalar (.unsigned .w8) ⟨7, by decide⟩⟩,
    ⟨List.replicate nameField 65, .scalar .string (pointerTo "x")⟩,
    ⟨nameBytes (Text.utf8 "TAGS"), .array .string (some [pointerTo "a", none]) 2⟩,
    ⟨nameBytes (Text.utf8 "SIZES"), .array .double none 0⟩]

/-- What makes sense of these parameters. -/
def sampleTaken : List Param :=
  [⟨"COUNT", .scalar (.unsigned .w8) ⟨7, by decide⟩⟩, ⟨"SIZES", .array .double []⟩]

/-- A program without a clock. -/
def clockless : Surroundings :=
  ⟨0, 0, "+0000", 0, 0, 0, none⟩

/-- A call with these parameters. -/
def sampleCall (domain name : Pointer) (type : Int) :
    Action (List (Except Fault Unit) × List Datagram) (Writer × Int) :=
  write Transport.scripted (Settings.writer {}) clockless domain name type (some sampleParams) 5

/-- Calls that lack a domain, a name or a type in turn, and one that lacks none of them and has
    five parameters, of which it complains about three. -/
theorem write_exact_sampleCall :
    sampleCall none none 5 = pure (Settings.writer {}, Status.domainInvalid) ∧
      sampleCall (pointerTo "GRAPHIC") (some [0xFF, 0]) 5
        = pure (Settings.writer {}, Status.nameInvalid) ∧
      sampleCall (pointerTo "GRAPHIC") (pointerTo "NO_DRAW") 5 = (do
        note (typeEntry "GRAPHIC" "NO_DRAW" 5)
        pure (Settings.writer {}, Status.typeInvalid)) ∧
      (∃ t : EventType, 4 = (t.code : Int) ∧
        sampleCall (pointerTo "GRAPHIC") (pointerTo "NO_DRAW") 4 = (do
          ((given (some sampleParams) 5).filterMap remark?).forM note
          let (w, code) ← (Settings.writer {}).write Transport.scripted clockless none callSite
            ⟨"GRAPHIC", "NO_DRAW", t, sampleTaken⟩
          pure (w, if code < 0 then code else Status.valueInvalid))) ∧
      ((sampleCall (pointerTo "GRAPHIC") (pointerTo "NO_DRAW") 4).run
        ⟨([.ok ()], []), #[]⟩).1.2 = Status.valueInvalid := by
  have hdomain : Points (pointerTo "GRAPHIC") "GRAPHIC" := text?_eq_some_iff.mp (by decide +kernel)
  have hname : Points (pointerTo "NO_DRAW") "NO_DRAW" := text?_eq_some_iff.mp (by decide +kernel)
  have hnoName : ∀ n, ¬ Points (some [0xFF, 0]) n := text?_eq_none_iff.mp (by decide +kernel)
  have htaken : (given (some sampleParams) 5).filterMap taken? = sampleTaken := by decide +kernel
  have hcomplaints : complaints (some sampleParams) 5
      = [Status.valueInvalid, Status.keyInvalid, Status.valueInvalid] := by decide +kernel
  have hexact := write_exact Transport.scripted (Settings.writer {}) clockless
  refine ⟨?_, ?_, ?_, ?_, by decide +kernel⟩
  · exact (hexact none none 5 (some sampleParams) 5).1 not_points_none
  · exact (hexact _ _ 5 (some sampleParams) 5).2.1 ⟨_, hdomain⟩ hnoName
  · exact (hexact _ _ 5 (some sampleParams) 5).2.2.1 _ _ hdomain hname (by decide)
  · obtain ⟨t, ht, hwrite⟩ := (hexact _ _ 4 (some sampleParams) 5).2.2.2.1 _ _ hdomain hname
      (by decide) (by decide)
    rw [htaken, hcomplaints] at hwrite
    exact ⟨t, ht, hwrite⟩

end EventReporter.Foreign
