import EventReporter.Library
import EventReporter.Proofs.Buffer
import EventReporter.Proofs.Record.Layout
namespace EventReporter

/-!
# What has room in a record

A builder takes a parameter exactly if it can be encoded on its own and the record keeps to its
limit with it. It can lay out its record exactly if the record keeps to the limit, and has a length
and a number of parameters that can be stated; nothing but a limit stands in the way.

* `Record.Builder.add_isOk_iff` : when a parameter is taken.
* `Record.Builder.build_isOk_iff` : when the record can be laid out.
* `Record.Builder.isOverflow_of_build` : why it cannot.
-/

/-! ### One parameter -/

/-- `encode` has room for `recordBytes`, and succeeds exactly if the parameter takes no more. -/
theorem Param.encode_isOk_iff (p : Param) :
    p.encode.isOk = true ↔ p.bytes.length ≤ Limits.recordBytes := by
  have happend := Buffer.appendAll_isOk_iff (.empty Limits.recordBytes) p.pieces
  have hroom : (Buffer.empty Limits.recordBytes).remaining = Limits.recordBytes := rfl
  rw [hroom] at happend
  rw [Param.bytes, ← happend, encode, encodeInto]
  split
  · next h =>
    rw [h]
    exact Iff.rfl
  · next h =>
    rw [h]
    exact Iff.rfl

namespace Record.Builder

variable {b : Builder}

/-- When `add` succeeds: the parameter can be encoded, and fits with the room of the entry that it
    replaces. -/
theorem add_isOk_iff (b : Builder) (p : Param) :
    (b.add p).isOk = true ↔
      p.bytes.length ≤ Limits.recordBytes ∧
        b.size - b.sizeOf p.key + p.bytes.length ≤ b.limit := by
  rw [add, isOk_bind, ← Param.encode_isOk_iff]
  constructor
  · rintro ⟨bytes, hbytes, hfits⟩
    refine ⟨isOk_iff.mpr ⟨bytes, hbytes⟩, ?_⟩
    rw [← Param.eq_bytes_of_encode hbytes]
    -- beyond the limit `add` refuses the parameter although it was encoded
    refine Nat.le_of_not_lt fun hlimit => ?_
    simp only [if_pos hlimit] at hfits
    cases hfits
  · rintro ⟨hencode, hfits⟩
    obtain ⟨bytes, hbytes⟩ := isOk_iff.mp hencode
    rw [← Param.eq_bytes_of_encode hbytes] at hfits
    refine ⟨bytes, hbytes, ?_⟩
    simp only [if_neg (Nat.not_lt_of_le hfits)]
    rfl

/-! ### The whole record -/

/-- `lay` succeeds exactly if all pieces fit together: `Buffer.appendAll_isOk_iff`. -/
theorem lay_isOk_iff (buffer : Buffer) (pieces : List (List UInt8)) :
    (lay buffer pieces).isOk = true ↔ pieces.flatten.length ≤ buffer.remaining := by
  rw [← Buffer.appendAll_isOk_iff, lay]
  split
  · next h => rw [h]; rfl
  · next h => rw [h]; rfl

/-- `lay` fails for want of room only. -/
theorem isOverflow_of_lay {buffer : Buffer} {pieces : List (List UInt8)} {e : WireError}
    (h : lay buffer pieces = .error e) : e.isOverflow = true := by
  unfold lay at h
  split at h
  · cases h
  · next hpieces =>
    cases h
    exact Buffer.isOverflow_of_appendAll hpieces

/-- `lay` does not change the limit of the buffer. -/
theorem limit_of_lay {buffer buffer' : Buffer} {pieces : List (List UInt8)}
    (h : lay buffer pieces = .ok buffer') : buffer'.limit = buffer.limit := by
  unfold lay at h
  split at h
  · next hpieces =>
    cases h
    exact Buffer.limit_of_appendAll hpieces
  · cases h

/-- `lay` makes the buffer longer by all the pieces. -/
theorem size_of_lay {buffer buffer' : Buffer} {pieces : List (List UInt8)}
    (h : lay buffer pieces = .ok buffer') : buffer'.size = buffer.size + pieces.flatten.length := by
  rw [← Buffer.length_toList, toList_of_lay h, List.length_append, Buffer.length_toList]

/-- `stated` accepts a number of 31 bits. -/
theorem stated_of_le {n : Nat} (h : n ≤ maxStated) :
    stated n = .ok (LittleEndian.intBytes lengthSize n) :=
  if_pos h

/-- `stated` refuses a number because it is too large. -/
theorem isOverflow_of_stated {n : Nat} {e : WireError} (h : stated n = .error e) :
    e.isOverflow = true := by
  unfold stated at h
  split at h
  · cases h
  · cases h
    rfl

/-- The pieces in front of the number of parameters take `baseSize`, less the four bytes of that
    number. -/
theorem length_leadingPieces (b : Builder) :
    b.leadingPieces.flatten.length + countSize = b.baseSize := by
  have htrace : ((b.trace?.map Trace.bytes).toList).flatten
      = (b.trace?.map Trace.bytes).getD [] := by
    cases b.trace? <;> simp
  rw [leadingPieces, List.flatten_append, htrace, List.length_append, length_trace, baseSize]
  simp [length_intBytes]

/-- The number of parameters and the entries take the rest of `size`. -/
theorem length_trailingPieces (b : Builder) (n : Nat) :
    (LittleEndian.intBytes lengthSize n :: b.entries.map (·.bytes)).flatten.length
      = countSize + entriesSize b.entries := by
  rw [List.flatten_cons, List.length_append, length_intBytes, ← List.flatMap_def,
    ← entriesSize_eq_length]
  rfl

/-- There is a length to write over by the time it is known, so that `update` does not fail. -/
theorem length_fits_of_lay {front whole : Buffer}
    (h : lay front (LittleEndian.intBytes lengthSize b.entries.length ::
      b.entries.map (·.bytes)) = .ok whole) (n : Nat) :
    0 + (LittleEndian.intBytes lengthSize n).length ≤ whole.size := by
  have htrailing := b.length_trailingPieces b.entries.length
  have hsize := size_of_lay h
  rw [length_intBytes, lengthSize]
  rw [countSize] at htrailing
  omega

/-- When `build` succeeds: the record keeps to its limit, and both its length and its number of
    parameters can be stated. Four steps can fail, and each of these is about one of the
    bounds. -/
theorem build_isOk_iff (b : Builder) :
    b.build.isOk = true ↔
      b.size ≤ b.limit ∧ b.entries.length ≤ maxStated ∧ b.size ≤ maxStated := by
  have hleading := b.length_leadingPieces
  have htrailing := b.length_trailingPieces b.entries.length
  have hsize : b.size = b.baseSize + entriesSize b.entries := rfl
  constructor
  · intro h
    obtain ⟨bytes, hbuild⟩ := isOk_iff.mp h
    obtain ⟨_, hstated, hcounted⟩ := build_eq_ok hbuild
    refine ⟨?_, hcounted, hstated⟩
    obtain ⟨front, hfront, hrest⟩ := bind_eq_ok hbuild
    obtain ⟨count, hcount, hrest⟩ := bind_eq_ok hrest
    obtain ⟨whole, hwhole, _⟩ := bind_eq_ok hrest
    obtain ⟨_, rfl⟩ := stated_eq_ok hcount
    -- what is appended second fits behind what was appended first
    have hfrontFits := (lay_isOk_iff _ _).mp (isOk_iff.mpr ⟨_, hfront⟩)
    have hwholeFits := (lay_isOk_iff _ _).mp (isOk_iff.mpr ⟨_, hwhole⟩)
    have hfrontSize := size_of_lay hfront
    have hfrontLimit := limit_of_lay hfront
    simp only [Buffer.remaining, Buffer.empty, Buffer.size, List.size_toArray, List.length_nil]
      at hfrontFits hwholeFits hfrontSize hfrontLimit
    omega
  · rintro ⟨hlimit, hcounted, hstated⟩
    have hfrontFits : b.leadingPieces.flatten.length ≤ (Buffer.empty b.limit).remaining := by
      show _ ≤ b.limit - 0
      omega
    obtain ⟨front, hfront⟩ := isOk_iff.mp ((lay_isOk_iff _ _).mpr hfrontFits)
    have hfrontSize : front.size = 0 + b.leadingPieces.flatten.length := size_of_lay hfront
    have hfrontLimit : front.limit = b.limit := limit_of_lay hfront
    have hwholeFits : (LittleEndian.intBytes lengthSize b.entries.length ::
        b.entries.map (·.bytes)).flatten.length ≤ front.remaining := by
      rw [Buffer.remaining]
      omega
    obtain ⟨whole, hwhole⟩ := isOk_iff.mp ((lay_isOk_iff _ _).mpr hwholeFits)
    have hwholeSize := size_of_lay hwhole
    have hwholeStated : whole.size ≤ maxStated := by omega
    -- the length that is written last finds its place
    have hplace := length_fits_of_lay hwhole whole.size
    simp only [build, hfront, hwhole, stated_of_le hcounted, stated_of_le hwholeStated, bind,
      Except.bind, Buffer.update, if_pos hplace]
    rfl

/-- Nothing but a limit keeps a record from being laid out: each step of `build` fails in that
    way, and `update` does not fail. -/
theorem isOverflow_of_build {e : WireError} (h : b.build = .error e) : e.isOverflow = true := by
  rcases bind_eq_error h with hfront | ⟨front, hfront, h⟩
  · exact isOverflow_of_lay hfront
  rcases bind_eq_error h with hcount | ⟨count, hcount, h⟩
  · exact isOverflow_of_stated hcount
  rcases bind_eq_error h with hwhole | ⟨whole, hwhole, h⟩
  · exact isOverflow_of_lay hwhole
  rcases bind_eq_error h with hlength | ⟨length, hlength, h⟩
  · exact isOverflow_of_stated hlength
  obtain ⟨_, rfl⟩ := stated_eq_ok hcount
  obtain ⟨_, rfl⟩ := stated_eq_ok hlength
  have hplace := length_fits_of_lay hwhole whole.size
  simp only [Buffer.update, if_pos hplace, bind, Except.bind] at h
  cases h

end Record.Builder

end EventReporter
