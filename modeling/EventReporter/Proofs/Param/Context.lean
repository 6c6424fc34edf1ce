import EventReporter.Proofs.Buffer
import EventReporter.Proofs.Param
namespace EventReporter

/-!
# Parameters among other bytes

A parameter that fits into a buffer is written behind what is there already. From that place on it
is read again, whatever follows it, and the reader stops at its end. Only an array with more
elements than a reader accepts is refused, although it was written like any other.

* `Param.encodeInto_of_fits` : what is written.
* `Param.runAt_read_encodeInto` : what is read.
-/

/-! ### Sizes -/

/-- Every element takes room, for its number, its length or its bits. -/
theorem ElementType.length_pieces_pos (t : ElementType) (x : t.Carrier) :
    0 < (t.pieces x).flatten.length := by
  cases t with
  | float | double =>
    simp only [pieces, List.flatten_cons, List.flatten_nil, List.append_nil,
      LittleEndian.length_bytes]
    decide
  | _ =>
    simp only [pieces, textPieces, Varint.encodeSigned, List.flatten_cons, List.length_append]
    exact Nat.add_pos_left (Varint.length_encode_pos _ _) _

/-- An array has no more elements than bytes, by `length_pieces_pos` for each of them. -/
theorem Value.arraySize_le_length {v : Value} {n : Nat} (hn : v.arraySize? = some n) :
    n ≤ v.pieces.flatten.length := by
  cases v with
  | scalar t x => cases hn
  | array t xs =>
    cases hn
    have helements : xs.length ≤ (xs.flatMap fun x => (t.pieces x).flatten).length := by
      induction xs with
      | nil => exact Nat.zero_le _
      | cons x xs ih =>
        have hx := t.length_pieces_pos x
        rw [List.flatMap_cons, List.length_append, List.length_cons]
        omega
    rw [flatten_pieces_array, List.length_append]
    omega

namespace Param

variable {p : Param} {b : Buffer}

/-! ### Writing -/

/-- `encodeInto` writes a parameter that fits behind what is there. -/
theorem encodeInto_of_fits (hfits : p.bytes.length ≤ b.remaining) :
    ∃ b', p.encodeInto b = (b', .ok ()) ∧ b'.toList = b.toList ++ p.bytes := by
  have hok := (Buffer.appendAll_isOk_iff b p.pieces).mpr hfits
  cases hresult : b.appendAll p.pieces with
  | mk b' result =>
    rw [hresult] at hok
    cases result with
    | error e => cases hok
    | ok u => exact ⟨b', hresult, Buffer.toList_appendAll hresult⟩

/-! ### Reading -/

/-- A parameter that fits into a buffer is written behind what is there. Whatever follows it, as
    long as every position has a 64-bit offset, it is read from its place in the form in which it
    travels, up to its last byte. Only an array that is too long is refused, with the number of its
    elements. -/
theorem runAt_read_encodeInto (hfits : p.bytes.length ≤ b.remaining) (after : List UInt8)
    (hsize : (b.toList ++ p.bytes ++ after).length < Width.w64.count) :
    ∃ b', p.encodeInto b = (b', .ok ()) ∧ b'.toList = b.toList ++ p.bytes ∧
      (p.value.FitsArray →
        Param.read.runAt (b'.toList ++ after) b.size = (.ok p.escaped, b'.size)) ∧
      ∀ n, p.value.arraySize? = some n → Limits.elements < n →
        (Param.read.runAt (b'.toList ++ after) b.size).1
          = .error (.tooManyElements n Limits.elements) := by
  obtain ⟨b', hwritten, hbytes⟩ := encodeInto_of_fits hfits
  refine ⟨b', hwritten, hbytes, fun harray => ?_, fun n hn hmany => ?_⟩
  · rw [hbytes, ← b.length_toList, ← b'.length_toList, hbytes, List.length_append]
    exact (p.yields_read harray).runAt b.toList after hsize
  · -- what is read is followed by the elements, which are not looked at
    let head := (textPieces p.key).flatten ++ ([p.value.typeByte.pack] ++ Varint.encode .value n)
    obtain ⟨elements, helements⟩ : ∃ elements, p.bytes = head ++ elements := by
      cases hvalue : p.value with
      | scalar t x =>
        rw [hvalue] at hn
        cases hn
      | array t xs =>
        rw [hvalue] at hn
        cases hn
        refine ⟨xs.flatMap fun x => (t.pieces x).flatten, ?_⟩
        rw [bytes_eq, hvalue, Value.flatten_pieces_array]
        simp only [head, hvalue, List.append_assoc]
    -- the elements have bytes, so there are fewer of them than positions
    have hwidth : n < Width.w64.count := by
      have hle := Value.arraySize_le_length hn
      rw [bytes_eq] at hsize
      simp only [List.length_append] at hsize
      omega
    have hwhole : b.toList ++ p.bytes ++ after = b.toList ++ head ++ (elements ++ after) := by
      rw [helements]
      simp only [List.append_assoc]
    rw [hwhole] at hsize
    have hrun := (p.refuses_read hn hmany hwidth).runAt b.toList (elements ++ after) hsize
    rw [hbytes, hwhole, ← b.length_toList, hrun]

/-- A buffer with two bytes in it. -/
def sampleBuffer : Buffer :=
  ⟨#[0xAA, 0xBB], 256⟩

/-- A text that needs escaping, and an empty one. -/
def sampleTexts : Param :=
  ⟨"T", .array .string ["say \"hi\"\n", ""]⟩

/-- One flag more than a reader accepts. -/
def sampleFlags : Param :=
  ⟨"B", .array .bool (List.replicate 101 true)⟩

/-- Behind two bytes of a buffer and in front of another one, two texts are read in their escaped
    form, while 101 flags are refused with their number. -/
theorem runAt_read_samples :
    (sampleTexts.bytes.length ≤ sampleBuffer.remaining ∧
      (sampleBuffer.toList ++ sampleTexts.bytes ++ [0xCC]).length < Width.w64.count ∧
      ∃ b', sampleTexts.encodeInto sampleBuffer = (b', .ok ()) ∧
        Param.read.runAt (b'.toList ++ [0xCC]) 2
          = (.ok ⟨"T", .array .string ["say \\\"hi\\\"\\n", ""]⟩, 20)) ∧
    sampleFlags.bytes.length ≤ sampleBuffer.remaining ∧
      (sampleBuffer.toList ++ sampleFlags.bytes ++ [0xCC]).length < Width.w64.count ∧
      ∃ b', sampleFlags.encodeInto sampleBuffer = (b', .ok ()) ∧
        (Param.read.runAt (b'.toList ++ [0xCC]) 2).1 = .error (.tooManyElements 101 100) := by
  constructor
  · have hfits : sampleTexts.bytes.length ≤ sampleBuffer.remaining := by decide +kernel
    have hsize : (sampleBuffer.toList ++ sampleTexts.bytes ++ [0xCC]).length < Width.w64.count := by
      decide +kernel
    obtain ⟨b', hwritten, hbytes, hread, _⟩ := runAt_read_encodeInto hfits [0xCC] hsize
    have hbehind : b'.size = 20 := by
      rw [← b'.length_toList, hbytes]
      decide +kernel
    have harray : sampleTexts.value.FitsArray := by
      intro n hn
      cases hn
      decide
    have hrun := hread harray
    rw [hbehind] at hrun
    exact ⟨hfits, hsize, b', hwritten, hrun⟩
  · have hfits : sampleFlags.bytes.length ≤ sampleBuffer.remaining := by decide +kernel
    have hsize : (sampleBuffer.toList ++ sampleFlags.bytes ++ [0xCC]).length < Width.w64.count := by
      decide +kernel
    obtain ⟨b', hwritten, _, _, hrefused⟩ := runAt_read_encodeInto hfits [0xCC] hsize
    exact ⟨hfits, hsize, b', hwritten, hrefused 101 rfl (by decide)⟩

end Param

end EventReporter
