import EventReporter.Proofs.Buffer
import EventReporter.Proofs.Param
namespace EventReporter

/-!
# Parameters for which there is not enough room

A parameter is a run of primitives: numbers of variable and of fixed width, a type byte, and the
bytes of texts. They are written one after the other, each in full or not at all. So a parameter
that does not fit is cut in front of the first primitive for which there is no more room, and what
has been written by then is how its encoding begins.

* `Param.pieces_eq` : the primitives of a parameter.
* `Param.encodeInto_exact` : what is written of a parameter.
-/

/-! ### Primitives -/

/-- Something that is written at once. -/
inductive Primitive where
  /-- A natural number of variable length. -/
  | number (purpose : Varint.Purpose) (n : Nat)
  /-- An integer of variable length. -/
  | integer (i : Int)
  /-- A type byte. -/
  | kind (b : TypeByte)
  /-- The bits of a floating-point number, in so many bytes. -/
  | bits (width n : Nat)
  /-- The bytes of a text. -/
  | body (s : String)

/-- The bytes of a primitive. -/
def Primitive.bytes : Primitive → List UInt8
  | number purpose n => Varint.encode purpose n
  | integer i => Varint.encodeSigned .value i
  | kind b => [b.pack]
  | bits width n => LittleEndian.bytes width n
  | body s => Text.utf8 s

/-- A text: its length, then its bytes. -/
def Primitive.text (s : String) : List Primitive :=
  [.number .length s.utf8ByteSize, .body s]

/-- The primitives of an element. -/
def ElementType.primitives : (t : ElementType) → t.Carrier → List Primitive
  | bool, b => [.integer (Bool.toNat b)]
  | signed _, i => [.integer i.val]
  | unsigned _, n => [.number .value n.val]
  | float, x => [.bits 4 x.toNat]
  | double, x => [.bits 8 x.toNat]
  | string, s => Primitive.text (Text.escape s)

/-- The primitives of a value after its type byte. -/
def Value.primitives : Value → List Primitive
  | scalar t x => t.primitives x
  | array t xs => .number .value xs.length :: xs.flatMap t.primitives

/-- The primitives of a parameter. -/
def Param.primitives (p : Param) : List Primitive :=
  Primitive.text p.key ++ .kind p.value.typeByte :: p.value.primitives

/-- Each of the `pieces` of an element is one of its primitives. -/
theorem ElementType.pieces_eq (t : ElementType) (x : t.Carrier) :
    t.pieces x = (t.primitives x).map Primitive.bytes := by
  cases t <;> rfl

/-- The `pieces` of a value are its primitives, the count of an array among them. -/
theorem Value.pieces_eq (v : Value) : v.pieces = v.primitives.map Primitive.bytes := by
  cases v with
  | scalar t x => exact t.pieces_eq x
  | array t xs =>
    have helements : t.pieces = fun x => (t.primitives x).map Primitive.bytes :=
      funext t.pieces_eq
    rw [pieces, primitives, List.map_cons, List.map_flatMap, helements]
    rfl

/-- The `pieces` of a parameter are its primitives, written one after the other. -/
theorem Param.pieces_eq (p : Param) : p.pieces = p.primitives.map Primitive.bytes := by
  rw [pieces, primitives, List.map_append, List.map_cons, Value.pieces_eq]
  rfl

/-- The `bytes` of a parameter are those of its primitives. -/
theorem Param.bytes_eq_flatMap (p : Param) : p.bytes = p.primitives.flatMap Primitive.bytes := by
  rw [bytes, pieces_eq, List.flatMap_def]

/-! ### What is written of a parameter -/

namespace Param

variable {p : Param} {b : Buffer}

/-- `encodeInto` stops at the first primitive that does not fit: `Buffer.appendAll_of_overflow`,
    with the pieces taken for the primitives that they are by `pieces_eq`. -/
theorem encodeInto_of_overflow (h : b.remaining < p.bytes.length) :
    ∃ (written : List Primitive) (next : Primitive) (rest : List Primitive),
      p.primitives = written ++ next :: rest ∧
      (written.flatMap Primitive.bytes).length ≤ b.remaining ∧
      b.remaining < (written.flatMap Primitive.bytes).length + next.bytes.length ∧
      p.encodeInto b =
        (b.extended (written.flatMap Primitive.bytes),
          .error (.overflow next.bytes.length
            (b.remaining - (written.flatMap Primitive.bytes).length))) := by
  obtain ⟨done, piece, later, hpieces, hdone, hnext, hrun⟩ := Buffer.appendAll_of_overflow h
  -- the pieces are primitives
  rw [pieces_eq, List.map_eq_append_iff] at hpieces
  obtain ⟨written, others, hprimitives, rfl, hothers⟩ := hpieces
  rw [List.map_eq_cons_iff] at hothers
  obtain ⟨next, rest, rfl, rfl, _⟩ := hothers
  rw [← List.flatMap_def] at hdone hnext hrun
  exact ⟨written, next, rest, hprimitives, hdone, hnext, hrun⟩

/-- A parameter is written behind what is in a buffer if it fits there. If it does not, it is
    written up to the first primitive for which there is no more room: what is behind the old
    content then is the beginning of its encoding, with the primitives before that one in full and
    nothing of those after them, and the buffer stays within its limit. On its own it is either
    written whole or refused. -/
theorem encodeInto_exact (p : Param) (b : Buffer) :
    p.bytes = p.primitives.flatMap Primitive.bytes ∧
      ((p.encodeInto b).2 = .ok () ↔ p.bytes.length ≤ b.remaining) ∧
      (p.bytes.length ≤ b.remaining → p.encodeInto b = (b.extended p.bytes, .ok ())) ∧
      (b.remaining < p.bytes.length →
        ∃ (written : List Primitive) (next : Primitive) (rest : List Primitive),
          p.primitives = written ++ next :: rest ∧
          let bytes := written.flatMap Primitive.bytes
          bytes <+: p.bytes ∧ bytes ≠ p.bytes ∧
          bytes.length ≤ b.remaining ∧ b.remaining < bytes.length + next.bytes.length ∧
          p.encodeInto b =
            (b.extended bytes,
              .error (.overflow next.bytes.length (b.remaining - bytes.length)))) ∧
      (b.size ≤ b.limit → (p.encodeInto b).1.size ≤ b.limit) ∧
      (p.bytes.length ≤ Limits.recordBytes → p.encode = .ok p.bytes) ∧
      (Limits.recordBytes < p.bytes.length →
        ∃ requested remaining, p.encode = .error (.overflow requested remaining)) := by
  have hfits (b : Buffer) (h : p.bytes.length ≤ b.remaining) :
      p.encodeInto b = (b.extended p.bytes, .ok ()) := Buffer.appendAll_of_fits h
  have hroom : (Buffer.empty Limits.recordBytes).remaining = Limits.recordBytes := rfl
  refine ⟨p.bytes_eq_flatMap, ⟨fun hok => ?_, fun h => ?_⟩, hfits b, fun h => ?_, fun hsize => ?_,
    fun h => ?_, fun h => ?_⟩
  · refine Nat.le_of_not_lt fun h => ?_
    obtain ⟨_, _, _, _, _, _, hrun⟩ := encodeInto_of_overflow h
    rw [hrun] at hok
    cases hok
  · rw [hfits b h]
  · obtain ⟨written, next, rest, hprimitives, hdone, hnext, hrun⟩ := encodeInto_of_overflow h
    refine ⟨written, next, rest, hprimitives, ?_, ?_, hdone, hnext, hrun⟩
    · rw [bytes_eq_flatMap, hprimitives, List.flatMap_append]
      exact List.prefix_append _ _
    · -- otherwise the parameter would have fitted
      intro hwhole
      rw [hwhole] at hdone
      omega
  · -- what is added keeps to the room that there was
    obtain ⟨bytes, hadded, hle⟩ : ∃ bytes, (p.encodeInto b).1 = b.extended bytes ∧
        bytes.length ≤ b.remaining := by
      rcases Nat.lt_or_ge b.remaining p.bytes.length with h | h
      · obtain ⟨_, _, _, _, hdone, _, hrun⟩ := encodeInto_of_overflow h
        exact ⟨_, congrArg Prod.fst hrun, hdone⟩
      · exact ⟨_, congrArg Prod.fst (hfits b h), h⟩
    rw [hadded, Buffer.size_extended]
    rw [Buffer.remaining] at hle
    omega
  · rw [encode, hfits _ (hroom ▸ h)]
    simp
  · -- a buffer of its own has room for a whole record
    rw [← hroom] at h
    obtain ⟨_, _, _, _, _, _, hrun⟩ := encodeInto_of_overflow h
    rw [encode, hrun]
    exact ⟨_, _, rfl⟩

/-- Two texts under a key. -/
def samplePair : Param :=
  ⟨"T", .array .string ["ab", "cd"]⟩

/-- A buffer with two bytes in it, and room for six more. -/
def crampedBuffer : Buffer :=
  ⟨#[0xAA, 0xBB], 8⟩

/-- There is room for the length of the first text, but not for the text. -/
theorem encodeInto_exact_samplePair :
    crampedBuffer.remaining < samplePair.bytes.length ∧
      ¬ (samplePair.encodeInto crampedBuffer).2 = .ok () ∧
      crampedBuffer.size ≤ crampedBuffer.limit ∧
      (samplePair.encodeInto crampedBuffer).1.size ≤ 8 ∧
      samplePair.encodeInto crampedBuffer
        = (⟨#[0xAA, 0xBB, 0x41, 0x54, 0x19, 0x02, 0x42], 8⟩, .error (.overflow 2 1)) ∧
      samplePair.bytes.length ≤ Limits.recordBytes ∧ samplePair.encode = .ok samplePair.bytes := by
  obtain ⟨_, hok, _, _, hsize, hwhole, _⟩ := encodeInto_exact samplePair crampedBuffer
  have hover : crampedBuffer.remaining < samplePair.bytes.length := by decide +kernel
  have hwithin : crampedBuffer.size ≤ crampedBuffer.limit := by decide
  have hfits : samplePair.bytes.length ≤ Limits.recordBytes := by decide +kernel
  refine ⟨hover, fun h => ?_, hwithin, hsize hwithin, rfl, hfits, hwhole hfits⟩
  exact Nat.not_lt_of_le (hok.mp h) hover

end Param

end EventReporter
