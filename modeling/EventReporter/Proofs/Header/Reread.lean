import EventReporter.Library
import EventReporter.Proofs.Header
import EventReporter.Proofs.Record.Room
import Mathlib.Data.List.TakeDrop
namespace EventReporter.Header

/-!
# Headers that were read are written again

A header that is read from any bytes is refused only if they are too few, or if what stands before
the first zero in the field of a name is not text. A field without a zero is taken in full, and then
the name is one byte longer than what the same field takes when it is written, in which the last
byte is always zero. So what was read can be written and read again without loss exactly if both
fields end their name.

* `names_of_read`, `fits_iff_of_read` : where the names were read, and when they fit a record.
* `read_writeInto` : what is read of a header that was written, whatever its names.
* `reread_iff_terminated` : when it is the header that was read.
-/

variable {data : List UInt8} {h : Header} {e : WireError}

/-! ### Names that are read -/

/-- The bytes of a name that `readName` accepts stand before the first zero of its field. -/
theorem readName_eq_ok_iff {field : List UInt8} {what name : String} :
    readName field what = .ok name ↔ Text.utf8 name = field.takeWhile (· != 0) := by
  unfold readName
  constructor
  · intro hread
    split at hread
    · next s hs =>
      cases hread
      exact Text.utf8_of_ofUtf8? hs
    · cases hread
  · intro hbytes
    rw [← hbytes, Text.ofUtf8?_utf8]

/-- There is one way in which `readName` fails: these bytes are no text. -/
theorem eq_badUtf8_of_readName {field : List UInt8} {what : String}
    (hread : readName field what = .error e) : e = .badUtf8 what := by
  unfold readName at hread
  split at hread
  · cases hread
  · cases hread
    rfl

/-- A name that was read is free of zeros. -/
theorem zero_notMem_of_readName {field : List UInt8} {what name : String}
    (hread : readName field what = .ok name) : (0 : UInt8) ∉ Text.utf8 name := by
  rw [readName_eq_ok_iff.mp hread]
  intro hzero
  exact absurd (List.mem_takeWhile_imp hzero) (by decide)

/-- A name that was read leaves a byte of its field free exactly if there is a zero in the
    field. -/
theorem size_lt_iff_of_readName {field : List UInt8} {what name : String}
    (hread : readName field what = .ok name) : name.utf8ByteSize < field.length ↔ 0 ∈ field := by
  have hprefix : field.takeWhile (· != 0) <+: field := List.takeWhile_prefix _
  rw [← Text.length_utf8, readName_eq_ok_iff.mp hread, ← not_iff_not, Nat.not_lt]
  constructor
  · -- all bytes stand before the first zero, so there is none
    intro hlength hzero
    have hall := hprefix.eq_of_length_le hlength
    exact absurd (List.takeWhile_eq_self_iff.mp hall 0 hzero) (by decide)
  · intro hnone
    have hall : field.takeWhile (· != 0) = field := by
      refine List.takeWhile_eq_self_iff.mpr fun b hb => ?_
      simp only [bne_iff_ne]
      rintro rfl
      exact hnone hb
    rw [hall]

/-- Of a name without zeros a field of `padName` has all but what would take its last byte. -/
theorem takeWhile_padName {size : Nat} {name : String} (hzero : (0 : UInt8) ∉ Text.utf8 name) :
    (padName size name).takeWhile (· != 0) = (Text.utf8 name).take (size - 1) := by
  have hfree : ∀ b ∈ (Text.utf8 name).take (size - 1), (b != 0) = true := by
    intro b hb
    simp only [bne_iff_ne]
    rintro rfl
    exact hzero (List.mem_of_mem_take hb)
  rw [padName, List.takeWhile_append_of_pos hfree]
  cases size - ((Text.utf8 name).take (size - 1)).length with
  | zero => simp
  | succ n => simp [List.replicate_succ]

/-- A name without zeros is kept by `padName` exactly if its field is longer. -/
theorem readName_padName_iff {size : Nat} {what name : String} (hsize : 0 < size)
    (hzero : (0 : UInt8) ∉ Text.utf8 name) :
    readName (padName size name) what = .ok name ↔ name.utf8ByteSize < size := by
  rw [readName_eq_ok_iff, takeWhile_padName hzero, eq_comm, List.take_eq_self_iff, Text.length_utf8]
  omega

/-! ### Headers that are read -/

/-- `withNames` gives a header exactly if both names can be had, and then it has these. -/
theorem withNames_eq_ok_iff {h' : Header} {domain name : Except WireError String} :
    h.withNames domain name = .ok h' ↔
      domain = .ok h'.domain ∧ name = .ok h'.name ∧
        h' = { h with domain := h'.domain, name := h'.name } := by
  constructor
  · intro hnames
    obtain ⟨_, hdomain, hnames⟩ := bind_eq_ok hnames
    obtain ⟨_, hname, hnames⟩ := bind_eq_ok hnames
    cases hnames
    exact ⟨hdomain, hname, rfl⟩
  · rintro ⟨hdomain, hname, hsame⟩
    rw [hdomain, hname, hsame]
    rfl

/-- Enough bytes are a header with the names in their fields, if these are names. Nothing but the
    names can fail. -/
theorem read_eq (hsize : blockSize ≤ data.length) :
    ∃ h : Header, read data = h.withNames (readName (data.take domainField) "domain")
      (readName ((data.drop domainField).take nameField) "event name") := by
  rw [read, if_neg (Nat.not_lt_of_le hsize)]
  exact ⟨⟨"", "", _, _, _, _, _, _, _, _⟩, rfl⟩

/-- Bytes that are read as a header are enough for one. -/
theorem size_le_of_read (hread : read data = .ok h) : blockSize ≤ data.length := by
  by_contra hshort
  rw [read, if_pos (Nat.lt_of_not_le hshort)] at hread
  cases hread

/-- The names of a header that was read stood in their fields (`read_eq`). -/
theorem names_of_read (hread : read data = .ok h) :
    readName (data.take domainField) "domain" = .ok h.domain ∧
      readName ((data.drop domainField).take nameField) "event name" = .ok h.name := by
  obtain ⟨numbers, hnumbers⟩ := read_eq (size_le_of_read hread)
  obtain ⟨hdomain, hname, -⟩ := withNames_eq_ok_iff.mp (hnumbers.symm.trans hread)
  exact ⟨hdomain, hname⟩

/-- The names that were read fit a record exactly if they ended inside of their fields, by
    `size_lt_iff_of_readName` for each. -/
theorem fits_iff_of_read (hread : read data = .ok h) :
    (h.domain.utf8ByteSize ≤ Limits.domainBytes ↔ 0 ∈ data.take domainField) ∧
      (h.name.utf8ByteSize ≤ Limits.eventNameBytes ↔
        0 ∈ (data.drop domainField).take nameField) := by
  obtain ⟨hdomain, hname⟩ := names_of_read hread
  have hsize : domainField + nameField ≤ data.length :=
    Nat.le_trans (by decide) (size_le_of_read hread)
  have hdomainField : (data.take domainField).length = domainField := by
    rw [List.length_take]
    omega
  have hnameField : ((data.drop domainField).take nameField).length = nameField := by
    rw [List.length_take, List.length_drop]
    omega
  rw [← size_lt_iff_of_readName hdomain, ← size_lt_iff_of_readName hname, hdomainField, hnameField]
  exact ⟨Nat.lt_succ_iff.symm, Nat.lt_succ_iff.symm⟩

/-! ### Writing what was read -/

/-- Where there is room for a header it is written by `writeInto`, and read as its fields have
    it. -/
theorem read_writeInto (h : Header) {b : Buffer} (hroom : blockSize ≤ b.remaining)
    (rest : List UInt8) :
    (h.writeInto b).2 = .ok () ∧
      read ((h.writeInto b).1.toList.drop b.toList.length ++ rest)
        = h.withNames (readName (padName domainField h.domain) "domain")
          (readName (padName nameField h.name) "event name") := by
  have hwritten := (writeInto_eq h b).trans (if_pos hroom)
  have hbytes : (h.writeInto b).1.toList = b.toList ++ h.bytes := by
    rw [hwritten]
    exact Array.toList_appendList
  refine ⟨by rw [hwritten], ?_⟩
  rw [hbytes, List.drop_left, read_written]

/-- A header that was read is written in full where there is room for it. It is read again as it
    was exactly if its names ended with a zero inside of their fields, which is to say that they
    are short enough for a record. Otherwise, what is read again, if anything, has names that are
    cut to these sizes, and is the same in everything else. -/
theorem reread_iff_terminated (hread : read data = .ok h) {b : Buffer}
    (hroom : blockSize ≤ b.remaining) (rest : List UInt8) :
    let written := h.writeInto b
    let again := read (written.1.toList.drop b.toList.length ++ rest)
    written.2 = .ok () ∧
      (again = .ok h ↔ 0 ∈ data.take domainField ∧ 0 ∈ (data.drop domainField).take nameField) ∧
      (h.domain.utf8ByteSize ≤ Limits.domainBytes ↔ 0 ∈ data.take domainField) ∧
      (h.name.utf8ByteSize ≤ Limits.eventNameBytes ↔
        0 ∈ (data.drop domainField).take nameField) ∧
      ∀ h', again = .ok h' →
        Text.utf8 h'.domain = (Text.utf8 h.domain).take Limits.domainBytes ∧
          Text.utf8 h'.name = (Text.utf8 h.name).take Limits.eventNameBytes ∧
          h' = { h with domain := h'.domain, name := h'.name } := by
  intro written again
  obtain ⟨hdomain, hname⟩ := names_of_read hread
  obtain ⟨hdomainFits, hnameFits⟩ := fits_iff_of_read hread
  obtain ⟨hwritten, hagain⟩ := read_writeInto h hroom rest
  have hdomainZero := zero_notMem_of_readName hdomain
  have hnameZero := zero_notMem_of_readName hname
  refine ⟨hwritten, ?_, hdomainFits, hnameFits, ?_⟩
  · rw [← hdomainFits, ← hnameFits]
    show read _ = _ ↔ _
    -- both names are kept exactly if their fields are longer
    rw [hagain, withNames_eq_ok_iff, readName_padName_iff (by decide) hdomainZero,
      readName_padName_iff (by decide) hnameZero]
    exact ⟨fun hkept => ⟨Nat.le_of_lt_succ hkept.1, Nat.le_of_lt_succ hkept.2.1⟩,
      fun hfits => ⟨Nat.lt_succ_of_le hfits.1, Nat.lt_succ_of_le hfits.2, rfl⟩⟩
  · intro h' hread'
    obtain ⟨hdomain', hname', hsame⟩ := withNames_eq_ok_iff.mp (hagain.symm.trans hread')
    rw [readName_eq_ok_iff, takeWhile_padName hdomainZero] at hdomain'
    rw [readName_eq_ok_iff, takeWhile_padName hnameZero] at hname'
    exact ⟨hdomain', hname', hsame⟩

/-- A header with a domain that fills its field up to a zero, the last character of which takes two
    bytes, with bytes behind the zero of its name, and with bits set that have no meaning. -/
def littered : List UInt8 :=
  Text.utf8 "KERNEL_VENDOR_é" ++ [0] ++ Text.utf8 "POWER_KEY" ++ [0] ++ List.replicate 53 255

/-- What is written again, behind other bytes, has zeros where there were other bytes, and is the
    same header. -/
theorem reread_littered :
    let b : Buffer := ⟨#[7, 7], 100⟩
    blockSize ≤ b.remaining ∧
      ∃ h : Header, read littered = .ok h ∧ h.domain.utf8ByteSize = 16 ∧ h.bytes ≠ littered ∧
        read ((h.writeInto b).1.toList.drop 2 ++ [9]) = .ok h := by
  intro b
  have hroom : blockSize ≤ b.remaining := by decide
  have hisOk : (read littered).isOk = true := by decide +kernel
  obtain ⟨h, hread⟩ := isOk_iff.mp hisOk
  have hfacts : (read littered).toOption.all
      (fun h => decide (h.domain.utf8ByteSize = 16 ∧ h.bytes ≠ littered)) = true := by
    decide +kernel
  rw [hread] at hfacts
  obtain ⟨hsize, hother⟩ := of_decide_eq_true hfacts
  obtain ⟨-, hiff, -⟩ := reread_iff_terminated hread hroom [9]
  exact ⟨hroom, h, hread, hsize, hother, hiff.mpr ⟨by decide +kernel, by decide +kernel⟩⟩

/-- A header with a domain that fills its field. -/
def unterminated : List UInt8 :=
  Text.utf8 "KERNEL_VENDOR_ABC" ++ List.replicate 63 0

/-- The domain of `unterminated` has a byte more than a domain may have, which is lost when it is
    written again. -/
theorem reread_unterminated :
    let h : Header := ⟨"KERNEL_VENDOR_ABC", "", 0, 0, 0, 0, 0, 0, .fault, false⟩
    let written := h.writeInto (.empty 100)
    (read unterminated).toOption = some h ∧ Limits.domainBytes < h.domain.utf8ByteSize ∧
      written.2.isOk = true ∧ (read written.1.toList).toOption ≠ some h ∧
      (read written.1.toList).toOption = some { h with domain := "KERNEL_VENDOR_AB" } := by
  decide +kernel

end EventReporter.Header
