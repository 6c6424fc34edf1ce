import EventReporter.Library
import EventReporter.Proofs.Header
import EventReporter.Proofs.Record.Layout
namespace EventReporter.Record

/-!
# Records are read as they were built

The fields of a record stand one behind the other, and each of them says where it ends, so a
reader finds what the builder held: the header, the trace if there is one, and the parameters in
their order, with their strings escaped.

* `decode_layout` : what a builder lays out is read again.
* `decode_eq_of_build_applyAll` : so is what it lays out after any history.
-/

/-! ### Numbers at a given place -/

/-- `intValue` reads a number of 31 bits back: the sign bit of its four bytes is clear. -/
theorem intValue_intBytes {n : Nat} (h : n ≤ Builder.maxStated) :
    LittleEndian.intValue (LittleEndian.intBytes lengthSize n) = n := by
  have hcount : LittleEndian.count lengthSize = 0x100000000 := rfl
  have hmax : Builder.maxStated = 0x7FFFFFFF := rfl
  rw [LittleEndian.intValue, LittleEndian.intBytes, LittleEndian.value_bytes,
    LittleEndian.length_bytes, hcount, Int.bmod_def]
  have hmod : ((n : Int) % ((0x100000000 : Nat) : Int)).toNat % 0x100000000 = n := by
    omega
  rw [hmod]
  split <;> omega

/-- `leadingInt` reads the length in front. -/
theorem leadingInt_append {n : Nat} (h : n ≤ Builder.maxStated) (rest : List UInt8) :
    leadingInt (LittleEndian.intBytes lengthSize n ++ rest) = n := by
  rw [leadingInt, List.take_left' (Builder.length_intBytes _ _), intValue_intBytes h]

/-- `readCount` reads the number at its offset. -/
theorem readCount_append {n : Nat} (h : n ≤ Builder.maxStated) (before after : List UInt8) :
    readCount (before ++ (LittleEndian.intBytes lengthSize n ++ after)) before.length = .ok n := by
  have hfield : ((before ++ (LittleEndian.intBytes lengthSize n ++ after)).drop
      before.length).take countSize = LittleEndian.intBytes lengthSize n := by
    rw [List.drop_left]
    exact List.take_left' (Builder.length_intBytes _ _)
  have hlength : ¬ (LittleEndian.intBytes lengthSize n).length < countSize := by
    rw [Builder.length_intBytes]
    decide
  simp only [readCount, hfield, if_neg hlength, intValue_intBytes h]
  rfl

/-! ### Trace and parameters at a given place -/

/-- `readTrace` reads the trace at its offset, or none if the header has announced none, and stops
    behind it. -/
theorem readTrace_append (trace? : Option Trace) (before after : List UInt8) :
    readTrace (before ++ ((trace?.map Trace.bytes).getD [] ++ after)) trace?.isSome before.length
      = .ok (trace?, (before ++ (trace?.map Trace.bytes).getD []).length) := by
  cases trace? with
  | none => simp [readTrace, pure, Except.pure]
  | some trace =>
    have hread : Trace.read ((before ++ (trace.bytes ++ after)).drop before.length)
        = .ok trace := by
      rw [List.drop_left, Trace.read_bytes]
    simp only [readTrace, Option.map_some, Option.getD_some, Option.isSome_some, ↓reduceIte,
      hread, List.length_append, Trace.length_bytes]
    rfl

/-- `readParams` reads the entries at its offset, which reach to the end: `Param.yields_read` for
    each, by `yields_many` in a row. -/
theorem readParams_append {entries : List Entry} (hbytes : ∀ e ∈ entries, e.bytes = e.param.bytes)
    (hfits : ∀ e ∈ entries, e.param.value.FitsArray) {before : List UInt8}
    (hsize : (before ++ entries.flatMap (·.bytes)).length < Width.w64.count) :
    readParams (before ++ entries.flatMap (·.bytes)) entries.length before.length
      = .ok (entries.map (·.param.escaped)) := by
  have hread : Read.Yields (Read.many Param.read entries.length) (entries.flatMap (·.bytes))
      (entries.map (·.param.escaped)) := by
    refine Read.yields_many fun e he => ?_
    rw [hbytes e he]
    exact e.param.yields_read (hfits e he)
  have hrun := hread.runAt before [] (by rwa [List.append_nil])
  rw [List.append_nil] at hrun
  rw [readParams, hrun, List.length_append]
  exact if_pos rfl

/-! ### Whole records -/

/-- What a builder holds, as it travels. -/
def Builder.contents (b : Builder) : Record where
  header := b.header
  trace := b.trace?
  params := b.params.map Param.escaped

/-- `layout` has the header behind the length. -/
theorem read_header_layout {b : Builder} (h : b.header.Storable) :
    Header.read (b.layout.drop lengthSize) = .ok b.header := by
  rw [Builder.layout, List.drop_left' (Builder.length_intBytes _ _)]
  exact Header.read_bytes h _

/-- `peekHeader` finds the header of a record that was laid out. -/
theorem peekHeader_layout {b : Builder} (h : b.header.Storable) :
    peekHeader b.layout = .ok b.header := by
  rw [peekHeader, read_header_layout h]

/-- `decode` finds in a `layout` what the builder has in it. The data is cut into the parts that
    stand in front of the trace, of the number of parameters and of the parameters, and each of
    the lemmas above reads one of the parts. -/
theorem decode_layout {b : Builder} (hheader : b.header.Storable) (hbytes : b.Encoded)
    (hfits : ∀ p ∈ b.params, p.value.FitsArray) (hsize : b.size ≤ Builder.maxStated)
    (hcount : b.entries.length ≤ Builder.maxStated) :
    decode b.layout = .ok b.contents := by
  have hlength := b.length_layout
  have hmin : ¬ b.layout.length < minSize := by
    rw [hlength, Builder.size, Builder.baseSize, minSize]
    omega
  have hprefix : leadingInt b.layout = b.layout.length := by
    rw [hlength]
    exact leadingInt_append hsize _
  have hread := read_header_layout hheader
  -- what stands before the trace, and before the number of parameters
  let front := LittleEndian.intBytes lengthSize b.size ++ b.header.bytes
  let traced := front ++ (b.trace?.map Trace.bytes).getD []
  let counted := traced ++ LittleEndian.intBytes lengthSize b.entries.length
  have hfront : front.length = lengthSize + Header.blockSize := by
    rw [List.length_append, Builder.length_intBytes, Header.length_bytes]
  have htrace : readTrace b.layout b.header.traced (lengthSize + Header.blockSize)
      = .ok (b.trace?, traced.length) := by
    have h := readTrace_append b.trace? front
      (LittleEndian.intBytes lengthSize b.entries.length ++ b.entries.flatMap (·.bytes))
    rwa [hfront, b.isSome_trace?, List.append_assoc] at h
  have hnumber : readCount b.layout traced.length = .ok b.entries.length := by
    have h := readCount_append hcount traced (b.entries.flatMap (·.bytes))
    rwa [List.append_assoc, List.append_assoc] at h
  have hcounted : counted.length = traced.length + countSize := by
    rw [List.length_append, Builder.length_intBytes]
    rfl
  have hwhole : counted ++ b.entries.flatMap (·.bytes) = b.layout := by
    simp only [counted, traced, front, Builder.layout, List.append_assoc]
  have hparams : readParams b.layout b.entries.length (traced.length + countSize)
      = .ok (b.entries.map (·.param.escaped)) := by
    -- four bytes state the length, so that every position has a 64-bit offset
    have hbound : b.layout.length < Width.w64.count := by
      rw [hlength]
      exact Nat.lt_of_le_of_lt hsize (by decide)
    have h := readParams_append hbytes
      (fun e he => hfits e.param (List.mem_map_of_mem he)) (hwhole ▸ hbound)
    rwa [hwhole, hcounted] at h
  have hcontents : b.contents = ⟨b.header, b.trace?, b.entries.map (·.param.escaped)⟩ := by
    rw [Builder.contents, Builder.params, List.map_map]
    rfl
  rw [hcontents, decode]
  simp only [bind, Except.bind, pure, Except.pure, if_neg hmin, hprefix, ne_eq, not_true_eq_false,
    ↓reduceIte, hread, htrace, hnumber, hparams]

/-- `decode` accepts no record without a length, a header and a number of parameters. -/
theorem minSize_le_of_decode {data : List UInt8} {r : Record} (h : decode data = .ok r) :
    minSize ≤ data.length := by
  simp only [decode] at h
  split at h
  · cases h
  · next hmin => exact Nat.le_of_not_lt hmin

/-- `peekHeader` finds the header of a record that `decode` accepts, as it reads the same
    bytes. -/
theorem peekHeader_of_decode {data : List UInt8} {r : Record} (h : decode data = .ok r) :
    peekHeader data = .ok r.header := by
  simp only [decode] at h
  split at h
  · cases h
  · split at h
    · cases h
    · obtain ⟨header, hheader, h⟩ := bind_eq_ok h
      obtain ⟨_, _, h⟩ := bind_eq_ok h
      obtain ⟨_, _, h⟩ := bind_eq_ok h
      obtain ⟨_, _, h⟩ := bind_eq_ok h
      cases h
      rw [peekHeader, hheader]

/-- No change spoils the header: its names are part of the `frame`. -/
theorem storable_applyAll {domain name : String} (hdomain : Text.nul ∉ domain.toList)
    (hname : Text.nul ∉ name.toList) (type : EventType) (limit : Nat) (changes : List Change) :
    ((Builder.new domain name type limit).applyAll changes).header.Storable := by
  have hframe := Builder.frame_applyAll (Builder.new domain name type limit) changes
  exact (Header.storable_new hdomain hname type).of_names
    (congrArg Builder.Frame.domain hframe) (congrArg Builder.Frame.name hframe)

/-- Whatever was done to a record under construction, if it can be laid out then a reader finds
    its header, its trace and its parameters in their order, each as it travels; these stand for
    the parameters that were added. -/
theorem decode_eq_of_build_applyAll {domain name : String} (hdomain : Text.nul ∉ domain.toList)
    (hname : Text.nul ∉ name.toList) (type : EventType) (limit : Nat) {changes : List Change}
    (harrays : ∀ p, .append p ∈ changes → p.value.FitsArray) {bytes : List UInt8} :
    let b := (Builder.new domain name type limit).applyAll changes
    b.build = .ok bytes →
      ∃ r, decode bytes = .ok r ∧ r.header = b.header ∧ r.trace = b.trace? ∧
        r.params = b.params.map Param.escaped ∧ r.params.map Param.unescaped = b.params ∧
        ∀ p ∈ b.params, .append p ∈ changes := by
  intro b hbuild
  have happended : ∀ p ∈ b.params, .append p ∈ changes :=
    fun p hp => Builder.append_mem_of_mem_params hp
  have hheader : b.header.Storable := storable_applyAll hdomain hname type limit changes
  have hbytes : b.Encoded := Builder.encoded_applyAll domain name type limit changes
  obtain ⟨rfl, hsize, hcount⟩ := Builder.build_eq_ok hbuild
  have hread := decode_layout hheader hbytes (fun p hp => harrays p (happended p hp)) hsize hcount
  -- what travels escaped is the parameter itself once it is unescaped
  have hback : Param.unescaped ∘ Param.escaped = id := funext Param.unescaped_escaped
  refine ⟨_, hread, rfl, rfl, rfl, ?_, happended⟩
  rw [Builder.contents, List.map_map, hback, List.map_id]

/-- A history with a trace, quotes, a negative number, a NaN with a payload and a negative zero,
    in which the first parameter is replaced by an array. -/
def sampleHistory : List Change :=
  [.timestamp 1700000000000, .timeZone "+0200",
    .append ⟨"A", .scalar (.signed .w64) ⟨-0x8000000000000000, by decide⟩⟩,
    .trace ⟨1, 77, 2, 3⟩, .append ⟨"B", .scalar .string "say \"hi\"\n"⟩,
    .append ⟨"A", .array .double [(0x7FF0000000000001#64 : BitVec 64), 0x8000000000000000#64]⟩]

/-- The only array of `sampleHistory` is within the limit of elements. -/
theorem fitsArray_sampleHistory : ∀ p, .append p ∈ sampleHistory → p.value.FitsArray := by
  intro p hp n hn
  simp only [sampleHistory, List.mem_cons, reduceCtorEq, Change.append.injEq, List.not_mem_nil,
    false_or, or_false] at hp
  rcases hp with rfl | rfl | rfl
  · cases hn
  · cases hn
  · cases hn
    decide

/-- A history that sets a time zone and a trace and appends one key twice: it is built, and read
    back with the time zone, the trace and the key that was appended last behind the other one. -/
theorem decode_sampleHistory :
    Text.nul ∉ "KERNEL_VENDOR".toList ∧ Text.nul ∉ "POWER_KEY".toList ∧
      (∀ p, .append p ∈ sampleHistory → p.value.FitsArray) ∧
      ∃ bytes r,
        ((Builder.new "KERNEL_VENDOR" "POWER_KEY" .behavior 300).applyAll sampleHistory).build
          = .ok bytes ∧
        decode bytes = .ok r ∧ r.header.timeZone = 16 ∧ r.trace = some ⟨1, 77, 2, 3⟩ ∧
        r.params.map Param.key = ["B", "A"] := by
  have hdomain : Text.nul ∉ "KERNEL_VENDOR".toList := by decide
  have hname : Text.nul ∉ "POWER_KEY".toList := by decide
  have hbuilt : ((Builder.new "KERNEL_VENDOR" "POWER_KEY" .behavior 300).applyAll
      sampleHistory).build.isOk = true := by decide +kernel
  obtain ⟨bytes, hbuild⟩ := isOk_iff.mp hbuilt
  obtain ⟨r, hread, hheader, htrace, hparams, _⟩ :=
    decode_eq_of_build_applyAll hdomain hname .behavior 300 fitsArray_sampleHistory hbuild
  refine ⟨hdomain, hname, fitsArray_sampleHistory, bytes, r, hbuild, hread, ?_, ?_, ?_⟩
  · rw [hheader]
    decide +kernel
  · rw [htrace]
    decide +kernel
  · rw [hparams]
    decide +kernel

end EventReporter.Record
