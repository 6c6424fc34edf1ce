import EventReporter.Library
import EventReporter.Proofs.Draft.Latest
import EventReporter.Proofs.Record.RoundTrip
import EventReporter.Writer.History
namespace EventReporter.Request

/-!
# The record of an event

The record that a writer lays out for an event holds what was asked for: the names, the type and
the surroundings of the event, its trace, and those of its parameters that were taken. It can be
laid out whenever there is room for the header and the trace.

* `record_isOk_iff` : when there is a record.
* `describes_of_record` : what a reader finds in it.
* `taken_of_describes` : which way it goes.
-/

variable {q : Request} {maxSize : Nat}

/-! ### What a reader should find -/

/-- The header of the event's record. -/
def header (q : Request) : Header where
  domain := q.event.domain
  name := q.event.name
  timestamp := q.surroundings.timestamp
  timeZone := UInt8.ofNat (TimeZone.index q.surroundings.timeZone)
  uid := q.surroundings.uid
  pid := q.surroundings.pid
  tid := q.surroundings.tid
  id := 0
  type := q.event.type
  traced := decide (q.ambient.stored.id ≠ 0)

/-- The parameters of the event that its record takes, those that it does not keep included. -/
def accepted (q : Request) (maxSize : Nat) : List Param :=
  (Draft.new (Writer.blank q.surroundings q.event maxSize)).accepted q.event.params

/-- What a reader finds is the event. -/
structure FoundAs (q : Request) (maxSize : Nat) (r : Record) : Prop where
  /-- The names, the type and the surroundings are those of the event. -/
  header : r.header = q.header
  /-- There is a trace if the ambient one has an identifier other than 0, and it is this one. -/
  trace : r.trace = if q.ambient.stored.id = 0 then none else some q.ambient.stored
  /-- There are not too many parameters. -/
  count : r.params.length ≤ Limits.params
  /-- Their keys are distinct. -/
  distinct : (r.params.map Param.key).Nodup
  /-- Their keys are names. -/
  names : ∀ p ∈ r.params, Text.isName Limits.keyBytes p.key = true
  /-- Their arrays are not too long. -/
  arrays : ∀ p ∈ r.params, p.value.FitsArray
  /-- They stand for the last parameter with each key, among those that were taken. -/
  values : List.Forall₂ (fun p found => found.key = p.key ∧ p.value.ArrivesAs found.value)
    (Param.latest (q.accepted maxSize)) r.params

/-- Some bytes are a record of the event, of a size that can be sent. -/
structure Describes (q : Request) (maxSize : Nat) (bytes : List UInt8) : Prop where
  /-- There are not too many of them. -/
  fits : bytes.length ≤ maxSize
  /-- A reader accepts them, and finds the event. -/
  read : ∃ r, Record.decode bytes = .ok r ∧ q.FoundAs maxSize r

/-! ### The record under construction -/

/-- `blank` has no parameters. -/
theorem entries_blank (s : Surroundings) (e : Event) (limit : Nat) :
    (Writer.blank s e limit).entries = [] := by
  unfold Writer.blank
  cases s.trace <;> rfl

/-- `blank` keeps the limit. -/
theorem limit_blank (s : Surroundings) (e : Event) (limit : Nat) :
    (Writer.blank s e limit).limit = limit := by
  unfold Writer.blank
  cases s.trace <;> rfl

/-- `blank` has the trace in force. -/
theorem trace?_blank (s : Surroundings) (e : Event) (limit : Nat) :
    (Writer.blank s e limit).trace? = s.trace := by
  unfold Writer.blank
  cases s.trace <;> rfl

/-- `blank` takes the room of a header, and of a trace if there is one. -/
theorem baseSize_blank (s : Surroundings) (e : Event) (limit : Nat) :
    (Writer.blank s e limit).baseSize
      = Record.minSize + if s.trace.isSome then Trace.blockSize else 0 := by
  unfold Writer.blank
  cases s.trace <;> rfl

/-- The trace in force is the ambient one if it has an identifier, as `Ambient.current?` has
    it. -/
theorem trace_eq (q : Request) :
    q.surroundings.trace
      = if q.ambient.stored.id = 0 then none else some q.ambient.stored := by
  rw [q.inForce, Ambient.current?, Trace.isValid]
  by_cases hid : q.ambient.stored.id = 0
  · simp [hid]
  · simp [hid]

/-- There is a trace in force exactly if the ambient one has an identifier. -/
theorem isSome_trace (q : Request) :
    q.surroundings.trace.isSome = decide (q.ambient.stored.id ≠ 0) := by
  rw [trace_eq]
  by_cases hid : q.ambient.stored.id = 0
  · simp [hid]
  · simp [hid]

/-- Names that are in order need not be cut, so the header is that of the request. -/
theorem header_blank (hdomain : Text.isName Limits.domainBytes q.event.domain = true)
    (hname : Text.isName Limits.eventNameBytes q.event.name = true) (limit : Nat) :
    (Writer.blank q.surroundings q.event limit).header = q.header := by
  have hcutDomain := Text.cut_of_fits (Text.size_le_of_isName hdomain)
  have hcutName := Text.cut_of_fits (Text.size_le_of_isName hname)
  rw [header, ← isSome_trace]
  unfold Writer.blank Record.Builder.new Header.new
  rw [hcutDomain, hcutName]
  cases q.surroundings.trace <;> rfl

/-- What the record holds when all parameters have been tried: `Draft.holds_addAll`, from a record
    without any. -/
theorem holds_draft (q : Request) (maxSize : Nat) :
    Draft.Holds (Writer.blank q.surroundings q.event maxSize) (q.accepted maxSize)
      (q.draft maxSize).builder :=
  Draft.holds_addAll (entries_blank ..) q.event.params

/-- The entries are those of the `latest` parameters that were accepted. -/
theorem entries_draft (q : Request) (maxSize : Nat) :
    (q.draft maxSize).builder.entries
      = (Param.latest (q.accepted maxSize)).map Record.Entry.ofParam := by
  rw [(q.holds_draft maxSize).builder]

/-- The parameters do not change the limit. -/
theorem limit_draft (q : Request) (maxSize : Nat) : (q.draft maxSize).builder.limit = maxSize := by
  rw [(q.holds_draft maxSize).builder]
  exact limit_blank ..

/-- The parameters do not change the trace. -/
theorem trace?_draft (q : Request) (maxSize : Nat) :
    (q.draft maxSize).builder.trace? = q.surroundings.trace := by
  rw [(q.holds_draft maxSize).builder]
  exact trace?_blank ..

/-- The parameters do not change the header. -/
theorem header_draft (hdomain : Text.isName Limits.domainBytes q.event.domain = true)
    (hname : Text.isName Limits.eventNameBytes q.event.name = true) (maxSize : Nat) :
    (q.draft maxSize).builder.header = q.header := by
  rw [(q.holds_draft maxSize).builder]
  exact header_blank hdomain hname maxSize

/-- The record without its parameters: a trace takes room, and nothing else does. -/
theorem baseSize_draft (q : Request) (maxSize : Nat) :
    (q.draft maxSize).builder.baseSize
      = Record.minSize + if q.ambient.stored.id = 0 then 0 else Trace.blockSize := by
  have hblank := baseSize_blank q.surroundings q.event maxSize
  rw [isSome_trace] at hblank
  simp only [decide_eq_true_eq, ne_eq, ite_not] at hblank
  rw [(q.holds_draft maxSize).builder, ← hblank]
  rfl

/-! ### The record -/

/-- Nothing but the limit for records stands between an event and its record: the header and the
    trace have to fit. The parameters keep to the limit by `Draft.Holds`. -/
theorem record_isOk_iff (q : Request) (h : maxSize ≤ Limits.recordBytes) :
    (q.record maxSize).isOk = true ↔
      Record.minSize + (if q.ambient.stored.id = 0 then 0 else Trace.blockSize) ≤ maxSize := by
  have hholds := q.holds_draft maxSize
  have hlimit := q.limit_draft maxSize
  rw [record, Record.Builder.build_isOk_iff, ← baseSize_draft q maxSize, hlimit]
  constructor
  · rintro ⟨hfits, _, _⟩
    exact Nat.le_trans (Nat.le_add_right _ _) hfits
  · intro hfits
    have hstated : Limits.recordBytes ≤ Record.Builder.maxStated := by decide
    have hmany : Limits.params ≤ Record.Builder.maxStated := by decide
    have hcount : (q.draft maxSize).builder.entries.length ≤ Limits.params := by
      rw [entries_draft, List.length_map]
      exact hholds.count
    -- no parameter is taken beyond the limit
    have hbase : (Writer.blank q.surroundings q.event maxSize).baseSize
        ≤ (Writer.blank q.surroundings q.event maxSize).limit := by
      rw [limit_blank]
      rw [hholds.builder] at hfits
      exact hfits
    have hsize := hholds.size hbase
    rw [hlimit] at hsize
    omega

/-- The record has the header and the trace of the request, and the parameters that were accepted,
    in the form in which they travel. -/
theorem contents_draft (hdomain : Text.isName Limits.domainBytes q.event.domain = true)
    (hname : Text.isName Limits.eventNameBytes q.event.name = true) :
    (q.draft maxSize).builder.contents
      = ⟨q.header, q.surroundings.trace,
          (Param.latest (q.accepted maxSize)).map fun p => p.tidied.escaped⟩ := by
  rw [Record.Builder.contents, header_draft hdomain hname, trace?_draft, Record.Builder.params,
    entries_draft, List.map_map, List.map_map]
  rfl

/-- What is laid out for an event with proper names is read as this event: each field of `FoundAs`
    is about the parameters that were accepted, shortened and escaped. -/
theorem foundAs_contents (q : Request) (maxSize : Nat) :
    q.FoundAs maxSize ⟨q.header, q.surroundings.trace,
      (Param.latest (q.accepted maxSize)).map fun p => p.tidied.escaped⟩ where
  header := rfl
  trace := q.trace_eq
  count := Nat.le_trans (Nat.le_of_eq (List.length_map _)) (q.holds_draft maxSize).count
  distinct := by
    have hkeys := Param.nodup_keys_latest (q.accepted maxSize)
    rw [List.map_map]
    exact hkeys
  names := by
    intro found hfound
    obtain ⟨p, hp, rfl⟩ := List.mem_map.mp hfound
    exact (q.holds_draft maxSize).names p ((Param.latest_sublist _).subset hp)
  arrays := by
    intro found hfound
    obtain ⟨p, _, rfl⟩ := List.mem_map.mp hfound
    exact p.value.fitsArray_tidied.escaped
  values := by
    rw [List.forall₂_map_right_iff]
    exact List.forall₂_same.mpr fun p _ => ⟨rfl, p.value.arrivesAs_tidied⟩

/-- A `record` of an event with proper names describes it: `decode_layout`, as every entry stands
    beside its encoding and no array is too long. -/
theorem describes_of_record (hdomain : Text.isName Limits.domainBytes q.event.domain = true)
    (hname : Text.isName Limits.eventNameBytes q.event.name = true) {bytes : List UInt8}
    (h : q.record maxSize = .ok bytes) : q.Describes maxSize bytes := by
  have hbuilt : (q.draft maxSize).builder.build.isOk = true := isOk_iff.mpr ⟨bytes, h⟩
  obtain ⟨hlimit, hcount, hstated⟩ := (Record.Builder.build_isOk_iff _).mp hbuilt
  obtain ⟨rfl, _, _⟩ := Record.Builder.build_eq_ok h
  have hstorable : (q.draft maxSize).builder.header.Storable := by
    rw [header_draft hdomain hname]
    exact ⟨Text.size_le_of_isName hdomain, Text.nul_notMem_of_isName hdomain,
      Text.size_le_of_isName hname, Text.nul_notMem_of_isName hname⟩
  have hentries : ∀ e ∈ (q.draft maxSize).builder.entries, ∃ p, e = Record.Entry.ofParam p := by
    rw [entries_draft]
    intro e he
    obtain ⟨p, _, rfl⟩ := List.mem_map.mp he
    exact ⟨p, rfl⟩
  have hencoded : (q.draft maxSize).builder.Encoded := by
    intro e he
    obtain ⟨p, rfl⟩ := hentries e he
    rfl
  have hfits : ∀ p ∈ (q.draft maxSize).builder.params, p.value.FitsArray := by
    intro p hp
    obtain ⟨e, he, rfl⟩ := List.mem_map.mp hp
    obtain ⟨p, rfl⟩ := hentries e he
    exact p.value.fitsArray_tidied
  have hread := Record.decode_layout hstorable hencoded hfits hstated hcount
  refine ⟨?_, _, hread, ?_⟩
  · rw [Record.Builder.length_layout]
    rwa [limit_draft] at hlimit
  · rw [contents_draft hdomain hname]
    exact q.foundAs_contents maxSize

/-- A record of an event goes the way of the event, since its header is that of the request. -/
theorem taken_of_describes {bytes : List UInt8} (h : q.Describes maxSize bytes) :
    Route.taken bytes = q.route := by
  obtain ⟨r, hread, hfound⟩ := h.read
  have hroute : Route.ofRecord bytes = .ok q.route := by
    rw [Route.ofRecord, Record.peekHeader_of_decode hread, hfound.header]
    rfl
  rw [Route.taken, hroute]

end EventReporter.Request
