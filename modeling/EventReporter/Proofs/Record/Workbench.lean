import EventReporter.Proofs.Record.Room
import EventReporter.Proofs.Record.RoundTrip
import EventReporter.Record.Workbench
namespace EventReporter.Record

/-!
# What is laid out at a workbench

A layout fails exactly if the record is larger than its limit or than it can state. If it succeeds,
its bytes are a function of the header, the trace and the parameters alone: what earlier layouts
left in the buffer, whole or not, makes no difference.

* `layout_eq_image` : the bytes as a function of what the builder holds.
* `Workbench.build_eq` : what is in the buffer makes no difference.
* `Workbench.build_exact` : the layout after any work.
-/

/-! ### The bytes of a record -/

/-- The bytes of a record with this header, this trace and these parameters: its length and what the
    length is of. -/
def image (header : Header) (trace? : Option Trace) (params : List Param) : List UInt8 :=
  let body := header.bytes ++ ((trace?.map Trace.bytes).getD [] ++
    (LittleEndian.intBytes countSize params.length ++ params.flatMap Param.bytes))
  LittleEndian.intBytes lengthSize (lengthSize + body.length : Nat) ++ body

/-- Where the number of parameters stands. -/
def countOffset (traced : Bool) : Nat :=
  lengthSize + Header.blockSize + if traced then Trace.blockSize else 0

/-- Whether the flag byte of a record says that there is a trace. -/
def announcesTrace (data : List UInt8) : Bool :=
  (data[lengthSize + Header.blockSize - 1]?).any fun flags => (unpackFlags flags).2

/-- `announcesTrace` looks at the flag byte, which is the last one of a header. -/
theorem announcesTrace_append (h : Header) (length : Int) (rest : List UInt8) :
    announcesTrace (LittleEndian.intBytes lengthSize length ++ (h.bytes ++ rest)) = h.traced := by
  obtain ⟨front, hheader⟩ : ∃ front, h.bytes = front ++ [h.flags] :=
    ⟨_, congrArg (_ ++ [·]) UInt8.ofNat_toNat⟩
  have hfront : (LittleEndian.intBytes lengthSize length ++ front).length
      = lengthSize + Header.blockSize - 1 := by
    have hsize := h.length_bytes
    rw [hheader, List.length_append, List.length_singleton] at hsize
    rw [List.length_append, Builder.length_intBytes]
    omega
  have hdata : LittleEndian.intBytes lengthSize length ++ (h.bytes ++ rest)
      = (LittleEndian.intBytes lengthSize length ++ front) ++ h.flags :: rest := by
    rw [hheader]
    simp only [List.append_assoc, List.singleton_append]
  have hflags : (unpackFlags h.flags).2 = h.traced := by
    rw [Header.flags, unpackFlags_packFlags]
  rw [announcesTrace, hdata, ← hfront, List.getElem?_append_right (Nat.le_refl _), Nat.sub_self]
  exact hflags

namespace Builder

variable {b : Builder}

/-- `layout` of a builder that is `Encoded` is `image`, which knows nothing of the entries. -/
theorem layout_eq_image (h : b.Encoded) : b.layout = image b.header b.trace? b.params := by
  have hparams : b.entries.flatMap (·.bytes) = b.params.flatMap Param.bytes := by
    rw [params, List.flatMap_map, List.flatMap_def, List.flatMap_def, List.map_congr_left h]
  have hcount : b.entries.length = b.params.length := (List.length_map _).symm
  have hlength := b.length_layout
  rw [layout, List.length_append, length_intBytes, hparams, hcount] at hlength
  rw [layout, image, hparams, hcount, ← hlength]
  rfl

/-- `readCount` finds the number of parameters in a `layout`, behind the trace if there is one. -/
theorem readCount_layout (h : b.entries.length ≤ maxStated) :
    readCount b.layout (countOffset b.trace?.isSome) = .ok b.entries.length := by
  let before := LittleEndian.intBytes lengthSize b.size ++ (b.header.bytes ++
    (b.trace?.map Trace.bytes).getD [])
  have hbefore : before.length = countOffset b.trace?.isSome := by
    rw [List.length_append, List.length_append, length_intBytes, Header.length_bytes, length_trace,
      isSome_trace?]
    exact (Nat.add_assoc _ _ _).symm
  have hread := readCount_append h before (b.entries.flatMap (·.bytes))
  rw [hbefore] at hread
  simpa only [layout, before, List.append_assoc] using hread

/-- Every parameter takes room, so there are no more of them than bytes. -/
theorem length_entries_le_size (h : b.Encoded) : b.entries.length ≤ b.size := by
  have hentries : ∀ es : List Entry, (∀ e ∈ es, e.bytes = e.param.bytes) →
      es.length ≤ entriesSize es := by
    intro es hes
    induction es with
    | nil => exact Nat.le_refl 0
    | cons e es ih =>
      obtain ⟨he, hes⟩ := List.forall_mem_cons.mp hes
      have hpos := e.param.length_bytes_pos
      have hrest := ih hes
      have hsum : entriesSize (e :: es) = e.bytes.length + entriesSize es := rfl
      rw [← he] at hpos
      rw [hsum, List.length_cons]
      omega
  exact Nat.le_trans (hentries b.entries h) (Nat.le_add_left _ _)

/-- A builder that is `Encoded` can lay out its record exactly if this is neither larger than its
    limit nor larger than it can state; the number of parameters needs no bound, by
    `length_entries_le_size`. -/
theorem build_isOk_iff_size_le (h : b.Encoded) :
    b.build.isOk = true ↔ b.size ≤ min b.limit maxStated := by
  have hcount := length_entries_le_size h
  rw [build_isOk_iff, Nat.le_min]
  constructor
  · rintro ⟨hlimit, _, hstated⟩
    exact ⟨hlimit, hstated⟩
  · rintro ⟨hlimit, hstated⟩
    exact ⟨hlimit, Nat.le_trans hcount hstated, hstated⟩

end Builder

namespace Workbench

/-! ### Layouts, one after the other -/

/-- `append`, in a buffer, does what `lay` does, but for the pieces that stay in the buffer when
    it fails. -/
theorem append_eq_lay (pieces : List (List UInt8)) (s : Buffer) :
    append pieces s = match Builder.lay s pieces with
      | .ok s' => .ok () s'
      | .error e => .error e (s.appendAll pieces).1 := by
  unfold append Builder.lay
  rcases s.appendAll pieces with ⟨s', _ | _⟩ <;> rfl

/-- What earlier layouts left in the buffer makes no difference to `build`, for it empties the
    buffer first. -/
theorem build_eq (w : Workbench) : w.build.1 = w.builder.build := by
  have hempty : (modify Buffer.reset : Write Unit) w.buffer = .ok () (.empty w.builder.limit) := rfl
  have hget (s : Buffer) : (get : Write Buffer) s = .ok s s := rfl
  unfold build layOut Builder.build
  simp only [bind, EStateM.bind, Except.bind, hempty, hget, append_eq_lay, ofExcept, overwrite]
  -- the steps agree as long as they succeed, and end the layout where they fail
  cases Builder.lay (.empty w.builder.limit) w.builder.leadingPieces with
  | error e => rfl
  | ok front =>
    cases Builder.stated w.builder.entries.length with
    | error e => rfl
    | ok count =>
      simp only [pure, EStateM.pure]
      cases Builder.lay front (count :: w.builder.entries.map (·.bytes)) with
      | error e => rfl
      | ok whole =>
        simp only
        cases Builder.stated whole.size with
        | error e => rfl
        | ok length =>
          simp only [EStateM.pure]
          cases whole.update 0 length <;> rfl

/-- Layouts do not matter to the builder: only the changes among the acts do. -/
theorem builder_applyAll (w : Workbench) (acts : List Act) :
    (w.applyAll acts).builder = w.builder.applyAll (acts.filterMap Act.change?) := by
  induction acts generalizing w with
  | nil => rfl
  | cons act acts ih =>
    refine (ih (w.apply act)).trans ?_
    cases act with
    | change c => rfl
    | build => exact congrArg (Builder.applyAll · _) w.builder_build

/-- Whatever was done at a workbench, a layout leaves the builder as it is and has the result that
    it would have at a fresh one. It succeeds exactly if the record is neither larger than its limit
    nor larger than it can state, and else it is the fault of a limit. If it succeeds, the bytes
    depend on nothing but the header, the trace and the parameters; they are as many as the builder
    said and as they say themselves, and they state the number of parameters, and that there is a
    trace exactly if there is one. -/
theorem build_exact (domain name : String) (type : EventType) (limit : Nat) (acts : List Act) :
    let w := (fresh (.new domain name type limit)).applyAll acts
    let b := w.builder
    w.build.2.builder = b ∧ w.build.1 = (fresh b).build.1 ∧
      (w.build.1.isOk = true ↔ b.size ≤ min limit Builder.maxStated) ∧
      (∀ e, w.build.1 = .error e → e.isOverflow = true) ∧
      ∀ bytes, w.build.1 = .ok bytes →
        bytes = image b.header b.trace? b.params ∧ bytes.length = b.size ∧
          declaredSize? bytes = some bytes.length ∧
          readCount bytes (countOffset b.trace?.isSome) = .ok b.params.length ∧
          announcesTrace bytes = b.trace?.isSome := by
  intro w b
  have hbuilder : b = (Builder.new domain name type limit).applyAll
    (acts.filterMap Act.change?) := builder_applyAll _ _
  have hencoded : b.Encoded := hbuilder ▸ Builder.encoded_applyAll domain name type limit _
  have hlimit : b.limit = limit := by
    rw [hbuilder, Builder.limit_applyAll]
    rfl
  refine ⟨w.builder_build, ?_, ?_, fun e he => ?_, fun bytes hbytes => ?_⟩
  · rw [build_eq, build_eq]
    rfl
  · rw [build_eq, Builder.build_isOk_iff_size_le hencoded, hlimit]
  · rw [build_eq] at he
    exact Builder.isOverflow_of_build he
  · rw [build_eq] at hbytes
    obtain ⟨rfl, hsize, hcount⟩ := Builder.build_eq_ok hbytes
    have hlength := b.length_layout
    refine ⟨Builder.layout_eq_image hencoded, hlength, ?_, ?_, ?_⟩
    · -- a record has the four bytes that its length is read from
      have hlong : ¬ b.layout.length < lengthSize := by
        rw [hlength, Builder.size, Builder.baseSize]
        omega
      have hleading : leadingInt b.layout = b.size := leadingInt_append hsize _
      rw [declaredSize?, if_neg hlong, hleading, hlength]
      rfl
    · rw [Builder.readCount_layout hcount, Builder.params, List.length_map]
    · rw [b.isSome_trace?]
      exact announcesTrace_append _ _ _

end Workbench

end EventReporter.Record
