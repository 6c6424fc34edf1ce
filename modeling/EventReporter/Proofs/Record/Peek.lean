import EventReporter.Library
import EventReporter.Proofs.Header.Reread
import EventReporter.Proofs.Record.Extent
namespace EventReporter

/-!
# The header of a record on its own

The header can be read without the rest of the record. It is found wherever a record is accepted,
and on a record whose length is as declared it is refused exactly if the record is refused because
of it. The cause is lost, however: whatever is wrong with a header that is read on its own counts as
missing bytes. So the two ways to read it agree exactly if the names are text or bytes are missing.

* `Header.read_isOk_iff` : which bytes are read as a header.
* `Record.exists_peekHeader_error_iff` : both refuse a header of the same records.
* `Record.peekAgrees_iff` : when the two ways to read a header agree.
-/

/-! ### What a header is refused for -/

namespace Header

variable {data : List UInt8} {e : WireError}

/-- What stands in the fields of both names before the first zero is text. -/
def HasTextNames (data : List UInt8) : Prop :=
  (∃ s, Text.utf8 s = (data.take domainField).takeWhile (· != 0)) ∧
    ∃ s, Text.utf8 s = ((data.drop domainField).take nameField).takeWhile (· != 0)

/-- `Header.read` accepts 80 bytes with text up to the zero bytes of the two names. -/
theorem read_isOk_iff : (read data).isOk = true ↔ blockSize ≤ data.length ∧ HasTextNames data := by
  rw [isOk_iff]
  constructor
  · rintro ⟨h, hread⟩
    obtain ⟨hdomain, hname⟩ := names_of_read hread
    exact ⟨size_le_of_read hread, ⟨_, readName_eq_ok_iff.mp hdomain⟩,
      ⟨_, readName_eq_ok_iff.mp hname⟩⟩
  · rintro ⟨hsize, ⟨domain, hdomain⟩, name, hname⟩
    obtain ⟨numbers, hnumbers⟩ := read_eq hsize
    refine ⟨{ numbers with domain, name }, ?_⟩
    rw [hnumbers, readName_eq_ok_iff.mpr hdomain, readName_eq_ok_iff.mpr hname]
    rfl

/-- Enough bytes are refused because of a name: no number has a wrong form. -/
theorem eq_badUtf8_of_read (hsize : blockSize ≤ data.length) (hread : read data = .error e) :
    ∃ what, e = .badUtf8 what := by
  obtain ⟨numbers, hnumbers⟩ := read_eq hsize
  rw [hnumbers] at hread
  rcases bind_eq_error hread with hdomain | ⟨_, _, hread⟩
  · exact ⟨_, eq_badUtf8_of_readName hdomain⟩
  · rcases bind_eq_error hread with hname | ⟨_, _, hread⟩
    · exact ⟨_, eq_badUtf8_of_readName hname⟩
    · cases hread

end Header

namespace Record

variable {data : List UInt8} {e : WireError}

/-! ### The header on its own -/

/-- `peekHeader` has one error for whatever is wrong with the header. -/
theorem peekHeader_eq_error_iff :
    peekHeader data = .error e ↔
      e = .tooShort (lengthSize + Header.blockSize) data.length ∧
        (Header.read (data.drop lengthSize)).isOk = false := by
  unfold peekHeader
  split
  · next h hread => simp [hread, Except.isOk, Except.toBool]
  · next e' hread =>
    rw [hread, Except.error.injEq, eq_comm]
    exact (and_iff_left rfl).symm

/-- `decode` refuses a record whose length is as declared for what is wrong with its header. -/
theorem decode_of_header_error (hmin : minSize ≤ data.length)
    (hdeclared : leadingInt data = data.length)
    (hread : Header.read (data.drop lengthSize) = .error e) : decode data = .error e := by
  rw [decode_eq hmin hdeclared, hread]
  rfl

/-- If the length of a record is as declared, `peekHeader` fails exactly if `decode` does because
    of a name in the header. -/
theorem exists_peekHeader_error_iff (hmin : minSize ≤ data.length)
    (hdeclared : leadingInt data = data.length) :
    (∃ e, peekHeader data = .error e) ↔
      ∃ what, Header.read (data.drop lengthSize) = .error (.badUtf8 what) ∧
        decode data = .error (.badUtf8 what) := by
  constructor
  · rintro ⟨e, hpeek⟩
    cases hread : Header.read (data.drop lengthSize) with
    | ok h =>
      rw [peekHeader, hread] at hpeek
      cases hpeek
    | error e =>
      have hsize : Header.blockSize ≤ (data.drop lengthSize).length := by
        rw [List.length_drop]
        exact Nat.le_sub_of_add_le' (Nat.le_of_add_right_le hmin)
      obtain ⟨what, rfl⟩ := Header.eq_badUtf8_of_read hsize hread
      exact ⟨what, rfl, decode_of_header_error hmin hdeclared hread⟩
  · rintro ⟨what, hread, -⟩
    rw [peekHeader, hread]
    exact ⟨_, rfl⟩

/-! ### The two ways to read a header -/

/-- A header that is read on its own is the one of the record, bytes are missing only where it says
    so, and it is refused, if the length of the record is as declared, exactly if the record is
    refused because of its header, and for the same cause. -/
structure PeekAgrees (data : List UInt8) : Prop where
  accepted : ∀ r, decode data = .ok r → peekHeader data = .ok r.header
  short : ∀ expected actual, peekHeader data = .error (.tooShort expected actual) →
    data.length < lengthSize + Header.blockSize
  refused : minSize ≤ data.length → leadingInt data = data.length → ∀ e,
    peekHeader data = .error e ↔
      Header.read (data.drop lengthSize) = .error e ∧ decode data = .error e

/-- Where there are enough bytes, a header can be read exactly if it `HasTextNames`. -/
theorem header_isOk_iff (hsize : lengthSize + Header.blockSize ≤ data.length) :
    (Header.read (data.drop lengthSize)).isOk = true ↔
      Header.HasTextNames (data.drop lengthSize) := by
  rw [Header.read_isOk_iff, List.length_drop]
  exact and_iff_right (by omega)

/-- A header that is text wherever there are enough bytes is refused for missing bytes only, which
    is what `PeekAgrees` asks for. -/
theorem peekAgrees_of_hasTextNames
    (hnames : lengthSize + Header.blockSize ≤ data.length →
      Header.HasTextNames (data.drop lengthSize)) : PeekAgrees data where
  accepted := fun r => peekHeader_of_decode
  short := by
    intro expected actual hpeek
    by_contra hlong
    have hsize := Nat.le_of_not_lt hlong
    have hread := (header_isOk_iff hsize).mpr (hnames hsize)
    cases hread.symm.trans (peekHeader_eq_error_iff.mp hpeek).2
  refused := by
    intro hmin _ e
    have hsize : lengthSize + Header.blockSize ≤ data.length := Nat.le_of_add_right_le hmin
    have hread := (header_isOk_iff hsize).mpr (hnames hsize)
    constructor
    · intro hpeek
      cases hread.symm.trans (peekHeader_eq_error_iff.mp hpeek).2
    · rintro ⟨hrefused, -⟩
      rw [hrefused] at hread
      cases hread

/-- The header that is read on its own is the one of the record, if the record is accepted, and it
    is refused exactly if the record is, if its length is as declared, because of a name in its
    header. It is always refused for missing bytes, though, so the two agree on the cause exactly if
    bytes are missing, or the names are text. -/
theorem peekAgrees_iff (data : List UInt8) :
    (∀ r, decode data = .ok r → peekHeader data = .ok r.header) ∧
      (minSize ≤ data.length → leadingInt data = data.length →
        ((∃ e, peekHeader data = .error e) ↔
          ∃ what, Header.read (data.drop lengthSize) = .error (.badUtf8 what) ∧
            decode data = .error (.badUtf8 what))) ∧
      (∀ e, peekHeader data = .error e →
        e = .tooShort (lengthSize + Header.blockSize) data.length) ∧
      (PeekAgrees data ↔
        (lengthSize + Header.blockSize ≤ data.length →
          Header.HasTextNames (data.drop lengthSize))) := by
  refine ⟨fun r => peekHeader_of_decode, exists_peekHeader_error_iff,
    fun e he => (peekHeader_eq_error_iff.mp he).1, ?_⟩
  refine ⟨fun hagrees hsize => ?_, peekAgrees_of_hasTextNames⟩
  rw [← header_isOk_iff hsize]
  by_contra hrefused
  rw [Bool.not_eq_true] at hrefused
  have hshort := hagrees.short _ _ (peekHeader_eq_error_iff.mpr ⟨rfl, hrefused⟩)
  exact absurd hsize (Nat.not_le_of_lt hshort)

/-- A record without parameters, the domain of which is no text. -/
def unreadable : List UInt8 :=
  [88, 0, 0, 0, 255] ++ List.replicate 83 0

/-- The record `unreadable` is refused because of its domain, but on its own its header is refused
    because it would end behind the bytes that there are, although there are more. -/
theorem not_peekAgrees_unreadable :
    unreadable.length = 88 ∧ leadingInt unreadable = 88 ∧
      decode unreadable = .error (.badUtf8 "domain") ∧
      peekHeader unreadable = .error (.tooShort 84 88) ∧ ¬ PeekAgrees unreadable := by
  have hpeek : peekHeader unreadable = .error (.tooShort 84 88) := by decide +kernel
  refine ⟨by decide, by decide, by decide +kernel, hpeek, fun hagrees => ?_⟩
  exact absurd (hagrees.short 84 88 hpeek) (by decide)

end Record

end EventReporter
