import EventReporter.Library
import EventReporter.Proofs.Param
import EventReporter.Record.History
namespace EventReporter

/-!
# The layout of a record

A builder that lays out its record writes the length, the header, the trace, the number of
parameters and the bytes of each parameter, in this order and nothing else. Whatever its history,
these bytes are the encodings of its parameters.

* `Record.Builder.build_eq_ok` : what is laid out, with a length that can be stated.
* `Record.Builder.encoded_applyAll` : every parameter stands beside its encoding.
* `Record.Builder.append_mem_of_mem_params` : every parameter was added.
-/

/-- What `encode` answers is `Param.bytes`: it appends the pieces to an empty buffer. -/
theorem Param.eq_bytes_of_encode {p : Param} {bytes : List UInt8} (h : p.encode = .ok bytes) :
    bytes = p.bytes := by
  unfold encode at h
  split at h
  · next b hb =>
    cases h
    rw [Buffer.toList_appendAll hb, Buffer.toList_empty, List.nil_append, Param.bytes]
  · cases h

namespace Record.Builder

/-! ### What a builder holds -/

/-- Every parameter stands beside its encoding. -/
def Encoded (b : Builder) : Prop :=
  ∀ e ∈ b.entries, e.bytes = e.param.bytes

/-- What an `add` that succeeds does: the entry with this key goes, and the new one comes last. -/
theorem add_eq_ok {b b' : Builder} {p : Param} (h : b.add p = .ok b') :
    b' = { b with entries := b.without p.key ++ [⟨p, p.bytes⟩] } := by
  obtain ⟨bytes, hbytes, h⟩ := bind_eq_ok h
  simp only at h
  split at h
  · cases h
  · cases h
    rw [Param.eq_bytes_of_encode hbytes]

/-- An entry after `add` is the new one or was there before. -/
theorem mem_entries_of_add {b b' : Builder} {p : Param} (h : b.add p = .ok b') {e : Entry}
    (he : e ∈ b'.entries) : e ∈ b.entries ∨ e = ⟨p, p.bytes⟩ := by
  rw [add_eq_ok h, List.mem_append, List.mem_singleton] at he
  -- what is left without the old entry was there before
  exact he.imp_left List.mem_of_mem_eraseP

/-- A change adds no entry but that of a parameter that it appends, beside the bytes of that
    parameter. -/
theorem mem_entries_of_apply {b : Builder} {change : Change} {e : Entry}
    (he : e ∈ (b.apply change).entries) :
    e ∈ b.entries ∨ change = .append e.param ∧ e.bytes = e.param.bytes := by
  cases change with
  | append p =>
    simp only [apply] at he
    split at he
    · next added hadd =>
      refine (mem_entries_of_add hadd he).imp_right ?_
      rintro rfl
      exact ⟨rfl, rfl⟩
    · exact .inl he
  | _ => exact .inl he

/-- Every entry of a history was there at its start or stands beside its encoding and was
    appended: by induction on the changes, with `mem_entries_of_apply` for each. -/
theorem mem_entries_of_applyAll {b : Builder} {changes : List Change} {e : Entry}
    (he : e ∈ (b.applyAll changes).entries) :
    e ∈ b.entries ∨ .append e.param ∈ changes ∧ e.bytes = e.param.bytes := by
  induction changes generalizing b with
  | nil => exact .inl he
  | cons change changes ih =>
    obtain hbefore | ⟨hmem, hbytes⟩ := ih he
    · obtain hfirst | ⟨rfl, hbytes⟩ := mem_entries_of_apply hbefore
      · exact .inl hfirst
      · exact .inr ⟨List.mem_cons_self, hbytes⟩
    · exact .inr ⟨List.mem_cons_of_mem _ hmem, hbytes⟩

/-- Whatever was done to a new builder, it is `Encoded`: each entry stands beside its own
    encoding, for a new builder has no others. -/
theorem encoded_applyAll (domain name : String) (type : EventType) (limit : Nat)
    (changes : List Change) : ((new domain name type limit).applyAll changes).Encoded := by
  intro e he
  obtain hnew | ⟨_, hbytes⟩ := mem_entries_of_applyAll he
  · cases hnew
  · exact hbytes

/-- Every parameter of a history that began with a new builder was appended in it. -/
theorem append_mem_of_mem_params {domain name : String} {type : EventType} {limit : Nat}
    {changes : List Change} {p : Param}
    (hp : p ∈ ((new domain name type limit).applyAll changes).params) :
    .append p ∈ changes := by
  obtain ⟨e, he, rfl⟩ := List.mem_map.mp hp
  obtain hnew | ⟨hmem, _⟩ := mem_entries_of_applyAll he
  · cases hnew
  · exact hmem

/-- What a record is started with, and keeps whatever is done to it: `Builder.new` is given all of
    it, and no `Change` says anything about it. -/
structure Frame where
  /-- The domain in its header. -/
  domain : String
  /-- The event name in its header. -/
  name : String
  /-- The category in its header. -/
  type : EventType
  /-- The limit of its size. -/
  limit : Nat

/-- The frame of a record. -/
def frame (b : Builder) : Frame :=
  ⟨b.header.domain, b.header.name, b.header.type, b.limit⟩

/-- No change touches the `frame`. Only an appended parameter needs a look, since the other
    changes set fields outside of it. -/
theorem frame_apply (b : Builder) (change : Change) : (b.apply change).frame = b.frame := by
  cases change with
  | append p =>
    simp only [apply]
    split
    · next added hadd =>
      rw [add_eq_ok hadd]
      rfl
    · rfl
  | _ => rfl

/-- No history touches the `frame` (`foldl_frame`). -/
theorem frame_applyAll (b : Builder) (changes : List Change) :
    (b.applyAll changes).frame = b.frame :=
  foldl_frame frame_apply b changes

/-- The limit of a history, read off `frame_applyAll`. -/
theorem limit_applyAll (b : Builder) (changes : List Change) :
    (b.applyAll changes).limit = b.limit :=
  congrArg Frame.limit (frame_applyAll b changes)

/-! ### What is laid out -/

/-- The bytes of a record: its length, the header, the trace, the number of parameters, and the
    parameters. -/
def layout (b : Builder) : List UInt8 :=
  LittleEndian.intBytes lengthSize b.size ++ (b.header.bytes ++
    (((b.trace?.map Trace.bytes).getD []) ++
      (LittleEndian.intBytes lengthSize b.entries.length ++ b.entries.flatMap (·.bytes))))

/-- `intBytes` has the width that it is asked for. -/
theorem length_intBytes (width : Nat) (i : Int) :
    (LittleEndian.intBytes width i).length = width :=
  LittleEndian.length_bytes _ _

/-- `entriesSize` counts the bytes of the entries. -/
theorem entriesSize_eq_length (entries : List Entry) :
    entriesSize entries = (entries.flatMap (·.bytes)).length := by
  induction entries with
  | nil => rfl
  | cons e entries ih =>
    rw [List.flatMap_cons, List.length_append, ← ih]
    rfl

/-- There is a trace to write exactly if the header says that there is. -/
theorem isSome_trace? (b : Builder) : b.trace?.isSome = b.header.traced := by
  unfold trace?
  cases b.header.traced <;> rfl

/-- The trace takes the room that `baseSize` counts for it. -/
theorem length_trace (b : Builder) :
    ((b.trace?.map Trace.bytes).getD []).length
      = if b.header.traced then Trace.blockSize else 0 := by
  unfold trace?
  split
  · exact Trace.length_bytes _
  · rfl

/-- `layout` has as many bytes as `size` says, part by part. -/
theorem length_layout (b : Builder) : b.layout.length = b.size := by
  simp only [layout, List.length_append, length_intBytes, Header.length_bytes, length_trace,
    ← entriesSize_eq_length, size, baseSize, countSize, lengthSize]
  omega

/-- `lay` puts the pieces behind what is in the buffer. -/
theorem toList_of_lay {buffer buffer' : Buffer} {pieces : List (List UInt8)}
    (h : lay buffer pieces = .ok buffer') : buffer'.toList = buffer.toList ++ pieces.flatten := by
  unfold lay at h
  split at h
  · next b hb =>
    cases h
    exact Buffer.toList_appendAll hb
  · cases h

/-- `stated` answers the bytes of a number that has 31 bits. -/
theorem stated_eq_ok {n : Nat} {bytes : List UInt8} (h : stated n = .ok bytes) :
    n ≤ maxStated ∧ bytes = LittleEndian.intBytes lengthSize n := by
  unfold stated at h
  split at h
  · next hle =>
    cases h
    exact ⟨hle, rfl⟩
  · cases h

/-- `update` at 0 puts its bytes in place of the first ones. -/
theorem toList_of_update_zero {buffer buffer' : Buffer} {bytes : List UInt8}
    (h : buffer.update 0 bytes = .ok buffer') :
    buffer'.toList = bytes ++ buffer.toList.drop bytes.length := by
  unfold Buffer.update at h
  split at h
  · cases h
    simp [Buffer.toList]
  · cases h

/-- What `build` answers is `layout`: the pieces one behind the other, and in the end the length
    in place of the zeros that came first. -/
theorem build_eq_ok {b : Builder} {bytes : List UInt8} (h : b.build = .ok bytes) :
    bytes = b.layout ∧ b.size ≤ maxStated ∧ b.entries.length ≤ maxStated := by
  obtain ⟨leading, hleading, h⟩ := bind_eq_ok h
  obtain ⟨count, hcount, h⟩ := bind_eq_ok h
  obtain ⟨whole, hwhole, h⟩ := bind_eq_ok h
  obtain ⟨length, hlength, h⟩ := bind_eq_ok h
  obtain ⟨patched, hpatched, h⟩ := bind_eq_ok h
  cases h
  obtain ⟨hcountLe, rfl⟩ := stated_eq_ok hcount
  obtain ⟨hsize, rfl⟩ := stated_eq_ok hlength
  -- before the length is known there are zeros in its place
  have hlaid : whole.toList
      = LittleEndian.intBytes lengthSize 0 ++ b.layout.drop lengthSize := by
    rw [toList_of_lay hwhole, toList_of_lay hleading, layout,
      List.drop_left' (length_intBytes _ _), leadingPieces]
    cases b.trace? <;> simp [List.flatMap_def]
  -- so the length that is written last is the one that `layout` begins with
  have hwholeSize : whole.size = b.size := by
    rw [← Buffer.length_toList, hlaid, List.length_append, List.length_drop, length_intBytes,
      length_layout, size, baseSize]
    omega
  rw [hwholeSize] at hsize hpatched
  refine ⟨?_, hsize, hcountLe⟩
  rw [toList_of_update_zero hpatched, hlaid, length_intBytes,
    List.drop_left' (length_intBytes _ _), layout, List.drop_left' (length_intBytes _ _)]

end Record.Builder

end EventReporter
