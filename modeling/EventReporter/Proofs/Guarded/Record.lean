import EventReporter.Proofs.Guarded.Follows
namespace EventReporter

/-!
# Records are read without a trap

The guarded reader of records ends as the plain one does, on all data. The parameters are what it
might be kept busy with: each takes three bytes at least, so that it does not begin to read more of
them than fit into the data, and one that does not, whatever number of them the data declare.

* `header_eq`, `trace_eq` : blocks of fixed size.
* `paramsFrom_eq` : how many parameters are begun.
* `record_eq` : records.
-/

/-! ### Where the parts of a record end -/

namespace Record

variable {data : List UInt8} {offset behind count : Nat} {traced : Bool} {t? : Option Trace}

/-- `readTrace` has gone over as many bytes as the trace takes that it read. -/
theorem readTrace_eq_ok (h : readTrace data traced offset = .ok (t?, behind)) :
    behind = offset + (if t?.isSome then Trace.blockSize else 0) ∧
      (offset ≤ data.length → behind ≤ data.length) := by
  cases traced with
  | false =>
    cases h
    exact ⟨rfl, id⟩
  | true =>
    simp only [readTrace, if_true] at h
    by_cases hshort : (data.drop offset).length < Trace.blockSize
    · rw [Trace.read, if_pos hshort] at h
      cases h
    · rw [Trace.read, if_neg hshort] at h
      cases h
      rw [List.length_drop] at hshort
      exact ⟨rfl, fun _ => by omega⟩

/-- `readCount` answers only if its four bytes are there. -/
theorem le_length_of_readCount (h : readCount data offset = .ok count) :
    offset + countSize ≤ data.length := by
  simp only [readCount, List.length_take, List.length_drop] at h
  split at h
  · cases h
  · have hsize : countSize = 4 := rfl
    omega

/-- A length that is stated in four bytes is one that a machine can hold, so the data `Fits`. -/
theorem length_lt_of_leadingInt (hmin : minSize ≤ data.length)
    (h : leadingInt data = data.length) : data.length < Width.w64.half := by
  have hbytes : (data.take lengthSize).length = lengthSize :=
    List.length_take_of_le (Nat.le_trans (by decide) hmin)
  -- a number of four bytes with a sign is below `2 ^ 31`
  have hlt : leadingInt data < ((LittleEndian.count lengthSize : Int) + 1) / 2 := by
    rw [leadingInt, LittleEndian.intValue, hbytes]
    exact Int.bmod_lt (by decide)
  have hhalf : ((LittleEndian.count lengthSize : Int) + 1) / 2 ≤ Width.w64.half := by decide
  omega

/-- What `decode` has left to read of bytes that declare their own length. -/
theorem decode_eq (hmin : minSize ≤ data.length) (h : leadingInt data = data.length) :
    decode data = (do
      let header ← Header.read (data.drop lengthSize)
      let (trace, offset) ← readTrace data header.traced (lengthSize + Header.blockSize)
      let params ← (do
        let count ← readCount data offset
        readParams data count (offset + countSize))
      pure ⟨header, trace, params⟩) := by
  simp only [decode, if_neg (Nat.not_lt_of_le hmin), if_neg (not_not_intro h), bind_assoc]

end Record

namespace Guarded

variable {bs : List UInt8} {d : Desk}

/-! ### Blocks of fixed size -/

/-- `name` looks for the first zero byte, where `readName` takes bytes up to one. The slice ends
    within the field, so there is no trap. -/
theorem name_eq (field : List UInt8) (what : String) :
    name field what = ofExcept (Header.readName field what) := by
  have hstop : field.findIdx (· == 0) ≤ field.length := List.findIdx_le_length
  have hbytes : field.takeWhile (· != 0) = field.take (field.findIdx (· == 0)) := by
    rw [List.takeWhile_eq_take_findIdx_not]
    simp [bne]
  rw [name, part_of_le (Nat.zero_le _) hstop, pure_bind, Header.readName, hbytes, List.drop_zero,
    Nat.sub_zero]
  cases Text.ofUtf8? (field.take (field.findIdx (· == 0))) <;> rfl

/-- `field` cuts a number out of the first `size` bytes as it would out of all of them. -/
theorem field_take {size pos width : Nat} (h : pos + width ≤ size) (hsize : size ≤ bs.length)
    (hwidth : size < Width.w64.count) :
    field (bs.take size) pos width
      = pure (LittleEndian.value ((bs.drop pos).take width), pos + width) := by
  rw [field, sum_of_lt (Nat.lt_of_le_of_lt h hwidth), pure_bind,
    part_take (Nat.le_add_right _ _) h hsize, pure_bind, Nat.add_sub_cancel_left]

/-- `header` traps nowhere: it cuts one block of 80 bytes with `part?`, and every slice after that
    is within the block. -/
theorem header_eq (bs : List UInt8) : header bs = ofExcept (Header.read bs) := by
  by_cases hshort : bs.length < Header.blockSize
  · rw [header, part?_of_lt hshort, Header.read, if_pos hshort]
    rfl
  · have hsize : Header.blockSize ≤ bs.length := Nat.le_of_not_lt hshort
    have hwidth : Header.blockSize < Width.w64.count := by decide
    have hblock : part? bs 0 Header.blockSize = some (bs.take Header.blockSize) :=
      part?_of_le (Nat.zero_le _) hsize
    have hdomain : part (bs.take Header.blockSize) 0 Header.domainField
        = pure (bs.take Header.domainField) := part_take (Nat.zero_le _) (by decide) hsize
    have hsum : sum .w64 Header.domainField Header.nameField
        = pure (Header.domainField + Header.nameField) := sum_of_lt (by decide)
    have hname : part (bs.take Header.blockSize) Header.domainField
          (Header.domainField + Header.nameField)
        = pure ((bs.drop Header.domainField).take Header.nameField) :=
      part_take (by decide) (by decide) hsize
    rw [header, hblock, Header.read, if_neg hshort]
    simp only [orRefuse, pure_bind, hdomain, hsum, hname, name_eq]
    cases Header.readName (bs.take Header.domainField) "domain" with
    | error e => rfl
    | ok domain =>
      simp only [ofExcept, pure_bind]
      cases Header.readName ((bs.drop Header.domainField).take Header.nameField) "event name" with
      | error e => rfl
      | ok name =>
        -- the position behind a field is where the bytes after it begin
        have hfield : ∀ pos width, pos + width ≤ Header.blockSize →
            field (bs.take Header.blockSize) pos width
              = pure (LittleEndian.value ((bs.drop pos).take width), pos + width) :=
          fun pos width h => field_take h hsize hwidth
        simp (disch := decide) only [hfield, pure_bind, LittleEndian.take, List.drop_drop]
        rfl

/-- `trace` traps nowhere, as `header` does not: every slice is within its block. -/
theorem trace_eq (bs : List UInt8) : trace bs = ofExcept (Trace.read bs) := by
  by_cases hshort : bs.length < Trace.blockSize
  · rw [trace, part?_of_lt hshort, Trace.read, if_pos hshort]
    rfl
  · have hsize : Trace.blockSize ≤ bs.length := Nat.le_of_not_lt hshort
    have hblock : part? bs 0 Trace.blockSize = some (bs.take Trace.blockSize) :=
      part?_of_le (Nat.zero_le _) hsize
    have hfield : ∀ pos width, pos + width ≤ Trace.blockSize →
        field (bs.take Trace.blockSize) pos width
          = pure (LittleEndian.value ((bs.drop pos).take width), pos + width) :=
      fun pos width h => field_take h hsize (by decide)
    rw [trace, hblock, Trace.read, if_neg hshort]
    simp (disch := decide) only [orRefuse, hfield, pure_bind, LittleEndian.take, List.drop_drop]
    rfl

/-! ### Parameters -/

/-- `paramsFrom` reads what `Read.manyFrom` does. It begins no more parameters than can stand in
    the bytes ahead, and one that cannot: each takes three bytes at least, by `local_read`. -/
theorem paramsFrom_eq (done : List Param) (n : Nat) (hd : Fits d) :
    ∃ begun, begun ≤ d.begun + (d.data.length - d.offset) / 3 + 1 ∧
      paramsFrom done n d
        = answer { d with begun } (Read.manyFrom Param.read done n (cursor d)) := by
  induction n generalizing done d with
  | zero => exact ⟨d.begun, by omega, rfl⟩
  | succ n ih =>
    have hparam : param { d with begun := d.begun + 1 }
        = answer { d with begun := d.begun + 1 } (Param.read (cursor d)) :=
      follows_param _ ⟨hd.offset_le, hd.length_lt⟩
    show ∃ begun, _ ∧ (param >>= fun p => paramsFrom (p :: done) n) _
      = answer _ ((Param.read >>= fun p => Read.manyFrom Param.read (p :: done) n) _)
    rw [bind_apply, bind_apply, hparam]
    cases hread : Param.read (cursor d) with
    | error e c => exact ⟨d.begun + 1, by omega, rfl⟩
    | ok p c =>
      have hahead := (Param.local_read.ok hread).1
      have hnext := hd.of_ahead hahead
      -- this parameter has taken three bytes, which pays for having begun it
      have hmoved : d.offset + 3 ≤ c.offset := hahead.le_offset
      have hend : c.offset ≤ d.data.length := hnext.offset_le
      obtain ⟨begun, hbegun, hrest⟩ := ih (p :: done) (d := ⟨d.data, c.offset, d.begun + 1⟩)
        ⟨hend, hd.length_lt⟩
      refine ⟨begun, by simp only at hbegun; omega, ?_⟩
      rw [eq_cursor_of_ahead hahead]
      exact hrest

/-! ### The parts in between -/

/-- How a guarded reader at `d` ends that has the same verdict as a plain one: at the offset that
    this one names, or at any offset if it refuses the data. -/
def Ends {α : Type} (d : Desk) (verdict : Except WireError (α × Nat))
    (result : EStateM.Result Stop Desk α) : Prop :=
  match verdict with
  | .ok (x, offset) => result = .ok x { d with offset }
  | .error e => ∃ offset, result = .error (.refusal e) { d with offset }

/-- `trace?` ends as `Record.readTrace` does, with the trace and the place behind it, or with its
    refusal. -/
theorem trace?_ends_readTrace (hd : Fits d) (traced : Bool) :
    Ends d (Record.readTrace d.data traced d.offset) (trace? traced d) := by
  cases traced with
  | false => exact rfl
  | true =>
    show Ends d _ ((part d.data d.offset d.data.length >>= _) d)
    rw [part_to_end hd.offset_le, pure_bind, trace_eq, hd.sum_eq (by decide)]
    simp only [Record.readTrace, if_true]
    cases Trace.read (d.data.drop d.offset) with
    | error e => exact ⟨d.offset, rfl⟩
    | ok t => exact rfl

/-- `count` ends as `Record.readCount` does, with the number of parameters and the place behind
    its four bytes, or with its refusal. -/
theorem count_ends_readCount (hd : Fits d) :
    Ends d ((Record.readCount d.data d.offset).map (·, d.offset + Record.countSize)) (count d) := by
  have hbytes : bytes Record.countSize d = answer d (Read.bytes Record.countSize (cursor d)) :=
    follows_bytes (by decide) d hd
  have hshort : ((d.data.drop d.offset).take Record.countSize).length < Record.countSize
      ↔ (d.data.drop d.offset).length < Record.countSize := by
    rw [List.length_take]
    omega
  rw [count, bind_apply, hbytes]
  simp only [Record.readCount, hshort]
  by_cases h : (d.data.drop d.offset).length < Record.countSize
  · rw [if_pos h, Read.bytes_eq_of_lt h]
    exact ⟨d.offset, rfl⟩
  · rw [if_neg h, Read.bytes_eq_of_le (Nat.le_of_not_lt h), rest_cursor]
    simp only [answer]
    cases (LittleEndian.intValue ((d.data.drop d.offset).take Record.countSize)).toNat? with
    | none => exact ⟨d.offset + Record.countSize, rfl⟩
    | some n => exact rfl

/-! ### Records -/

/-- The bytes behind the trace are read as far as they make sense: `count_ends_readCount` for the
    number of parameters, `paramsFrom_eq` for these. -/
theorem params_eq {data : List UInt8} {offset : Nat} (hd : Fits ⟨data, offset, 0⟩) :
    ∃ begun, begun ≤ (data.length - (offset + Record.countSize)) / 3 + 1 ∧
      outcome (params (Record.leadingInt data) ⟨data, offset, 0⟩)
        = ((do
            let count ← Record.readCount data offset
            Record.readParams data count (offset + Record.countSize)).mapError .refusal,
          begun) := by
  have hcount := count_ends_readCount hd
  cases h : Record.readCount data offset with
  | error e =>
    rw [h] at hcount
    obtain ⟨stop, hcount⟩ := hcount
    refine ⟨0, Nat.zero_le _, ?_⟩
    rw [params, bind_apply, hcount]
    rfl
  | ok count =>
    rw [h] at hcount
    have hbehind : offset + Record.countSize ≤ data.length := Record.le_length_of_readCount h
    obtain ⟨begun, hbegun, hparams⟩ := paramsFrom_eq [] count
      (d := ⟨data, offset + Record.countSize, 0⟩) ⟨hbehind, hd.length_lt⟩
    rw [Nat.zero_add] at hbegun
    refine ⟨begun, hbegun, ?_⟩
    rw [params, bind_apply, hcount]
    have hcursor : cursor ⟨data, offset + Record.countSize, 0⟩
        = .ofBytes data (offset + Record.countSize) := rfl
    show outcome ((paramsFrom [] count >>= _) _) = ((Record.readParams _ _ _).mapError _, _)
    rw [bind_apply, hparams, Record.readParams, Read.runAt, Read.many, hcursor]
    cases Read.manyFrom Param.read [] count (.ofBytes data (offset + Record.countSize)) with
    | error e c => rfl
    | ok params c =>
      show outcome ((if c.offset ≠ data.length then _ else _ : Guarded _) _)
        = (Except.mapError _ (if c.offset = data.length then _ else _), _)
      -- bytes behind the last parameter are refused
      by_cases hend : c.offset = data.length
      · rw [if_neg (not_not_intro hend), if_pos hend]
        rfl
      · rw [if_pos hend, if_neg hend]
        rfl

/-- What is made of an answer without another look at the data has the outcome of that answer. -/
theorem outcome_bind_pure {α β : Type} {g : Guarded α} {v : Except WireError α} {begun : Nat}
    (h : outcome (g d) = (v.mapError .refusal, begun)) (f : α → β) :
    outcome ((g >>= fun x => pure (f x)) d)
      = ((v >>= fun x => pure (f x)).mapError .refusal, begun) := by
  rw [bind_apply]
  cases hg : g d with
  | error s d' =>
    rw [hg] at h
    cases v <;> cases h
    rfl
  | ok x d' =>
    rw [hg] at h
    cases v <;> cases h
    rfl

/-- `body` answers what `Record.decode` does for bytes that declare their own length, part by
    part: `header_eq`, `trace?_ends_readTrace`, `params_eq`. -/
theorem body_eq {data : List UInt8} (hmin : Record.minSize ≤ data.length)
    (hdeclared : Record.leadingInt data = data.length) :
    ∃ begun, begun ≤ (data.length - Record.minSize) / 3 + 1 ∧
      (body (Record.leadingInt data)).runOn data
        = ((Record.decode data).mapError .refusal, begun) := by
  have hlt := Record.length_lt_of_leadingInt hmin hdeclared
  have hsize : Record.minSize = Record.lengthSize + Header.blockSize + Record.countSize := rfl
  have hfront : Fits ⟨data, Record.lengthSize + Header.blockSize, 0⟩ := ⟨by simp only; omega, hlt⟩
  rw [Record.decode_eq hmin hdeclared]
  show ∃ begun, _ ∧ outcome ((part data Record.lengthSize data.length >>= _) _) = _
  rw [part_to_end (by omega), pure_bind, header_eq]
  cases Header.read (data.drop Record.lengthSize) with
  | error e => exact ⟨0, Nat.zero_le _, rfl⟩
  | ok header =>
    have htrace := trace?_ends_readTrace hfront header.traced
    show ∃ begun, _ ∧ outcome ((trace? header.traced >>= _) _)
      = (Except.mapError _ (Record.readTrace data header.traced _ >>= _), _)
    rw [bind_apply]
    cases h : Record.readTrace data header.traced (Record.lengthSize + Header.blockSize) with
    | error e =>
      rw [h] at htrace
      obtain ⟨stop, htrace⟩ := htrace
      rw [htrace]
      exact ⟨0, Nat.zero_le _, rfl⟩
    | ok found =>
      obtain ⟨trace, behind⟩ := found
      rw [h] at htrace
      -- behind a trace fewer parameters can stand, so the bound still holds
      obtain ⟨hbehind, hend⟩ := Record.readTrace_eq_ok h
      have hnext : Fits ⟨data, behind, 0⟩ := ⟨hend hfront.offset_le, hlt⟩
      obtain ⟨begun, hbegun, hparams⟩ := params_eq hnext
      rw [htrace]
      exact ⟨begun, by omega, outcome_bind_pure hparams _⟩

/-- `record` answers what `Record.decode` does, for all bytes and without a trap, and begins no
    more parameters than could stand in them, and one. -/
theorem record_eq (data : List UInt8) :
    ∃ begun, begun ≤ (data.length - Record.minSize) / 3 + 1 ∧
      record.runOn data = ((Record.decode data).mapError .refusal, begun) := by
  by_cases hshort : data.length < Record.minSize
  · refine ⟨0, Nat.zero_le _, ?_⟩
    show outcome ((if data.length < Record.minSize then _ else _ : Guarded _) _) = _
    rw [if_pos hshort, Record.decode, if_pos hshort]
    rfl
  · have hmin : Record.minSize ≤ data.length := Nat.le_of_not_lt hshort
    have hprefix : part data 0 Record.lengthSize = pure (data.take Record.lengthSize) :=
      part_of_le (Nat.zero_le _) (Nat.le_trans (by decide) hmin)
    have hrecord : record ⟨data, 0, 0⟩
        = (do
            if Record.leadingInt data ≠ data.length then
              refuse (.lengthMismatch (Record.leadingInt data) data.length)
            body (Record.leadingInt data) : Guarded Record) ⟨data, 0, 0⟩ := by
      show (if data.length < Record.minSize then _ else _ : Guarded _) _ = _
      rw [if_neg hshort, hprefix]
      rfl
    by_cases hdeclared : Record.leadingInt data = data.length
    · rw [if_neg (not_not_intro hdeclared)] at hrecord
      rw [runOn, hrecord]
      exact body_eq hmin hdeclared
    · refine ⟨0, Nat.zero_le _, ?_⟩
      rw [runOn, hrecord, if_pos hdeclared, Record.decode]
      simp only [if_neg hshort, if_pos hdeclared]
      rfl

end Guarded

end EventReporter
