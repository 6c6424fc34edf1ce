import EventReporter.Param
import EventReporter.Proofs.Varint
import EventReporter.Text.Escape
namespace EventReporter

/-!
# Parameters are read in the form in which they travel

What is read off the bytes of a parameter is the parameter with its strings escaped, every other
element being read as it was, bit for bit. The escaped strings stand for the strings that were
written.

* `Param.yields_read` : a parameter is read with its strings escaped.
* `Param.refuses_read` : unless it is an array that is too long.
* `Param.unescaped_escaped` : nothing is lost by that.
-/

/-! ### The form in which values travel -/

namespace ElementType

/-- An element as it travels: a string in its escaped form, and anything else as it is. -/
def escaped : (t : ElementType) → t.Carrier → t.Carrier
  | string, s => Text.escape s
  | bool, b => b
  | signed _, i => i
  | unsigned _, n => n
  | float, x => x
  | double, x => x

/-- The element that stands for one that has travelled. -/
def unescaped : (t : ElementType) → t.Carrier → t.Carrier
  | string, s => Text.unescape s
  | bool, b => b
  | signed _, i => i
  | unsigned _, n => n
  | float, x => x
  | double, x => x

/-- An element is its own text again once it is unescaped: `unescapeChars_escapeChars` for
    strings, and nothing to do for others. -/
theorem unescaped_escaped (t : ElementType) (x : t.Carrier) : t.unescaped (t.escaped x) = x := by
  cases t with
  | string =>
    have htext : ∀ s : String, Text.unescape (Text.escape s) = s := by
      intro s
      rw [Text.unescape, Text.escape, String.toList_ofList, Text.unescapeChars_escapeChars,
        String.ofList_toList]
    exact htext x
  | _ => rfl

end ElementType

namespace Value

/-- A value as it travels. -/
def escaped : Value → Value
  | scalar t x => scalar t (t.escaped x)
  | array t xs => array t (xs.map t.escaped)

/-- The value that stands for one that has travelled. -/
def unescaped : Value → Value
  | scalar t x => scalar t (t.unescaped x)
  | array t xs => array t (xs.map t.unescaped)

/-- `escaped` and back is the value, element by element. -/
theorem unescaped_escaped (v : Value) : v.escaped.unescaped = v := by
  cases v with
  | scalar t x => rw [escaped, unescaped, t.unescaped_escaped]
  | array t xs =>
    have hid : t.unescaped ∘ t.escaped = id := funext t.unescaped_escaped
    rw [escaped, unescaped, List.map_map, hid, List.map_id]

/-- An array is no longer than a reader accepts. -/
def FitsArray (v : Value) : Prop :=
  ∀ n, v.arraySize? = some n → n ≤ Limits.elements

end Value

namespace Param

/-- A parameter as it travels. -/
def escaped (p : Param) : Param :=
  ⟨p.key, p.value.escaped⟩

/-- The parameter that stands for one that has travelled. -/
def unescaped (p : Param) : Param :=
  ⟨p.key, p.value.unescaped⟩

/-- `escaped` and back is the parameter, for its key is not touched. -/
theorem unescaped_escaped (p : Param) : p.escaped.unescaped = p := by
  rw [escaped, unescaped, Value.unescaped_escaped]

end Param

/-! ### Texts -/

/-- `text` reads a text off its length and its bytes. That these are there, before an end with a
    64-bit offset, keeps the sum that it checks in range. -/
theorem Read.yields_text (what s : String) :
    Read.Yields (Read.text what) (textPieces s).flatten s := by
  intro c rest hc hsize
  simp only [textPieces, List.flatten_cons, List.flatten_nil, List.append_nil] at hc ⊢
  -- the text is there, so that its length and its end have 64-bit offsets
  have hroom := hsize
  rw [hc, List.append_assoc, List.length_append, List.length_append, Text.length_utf8] at hroom
  have hlength : s.utf8ByteSize < Width.w64.count := by omega
  have hnumber := Varint.yields_readUnsigned .length hlength c (Text.utf8 s ++ rest)
    (by rw [hc, List.append_assoc]) hsize
  generalize Varint.encode .length s.utf8ByteSize = number at hc hroom hnumber ⊢
  have hend : ¬ Width.w64.count ≤ (c.advance number.length).offset + s.utf8ByteSize := by
    simp only [Cursor.advance]
    omega
  have htaken : (c.advance number.length).rest.take s.utf8ByteSize = Text.utf8 s := by
    rw [Cursor.advance, hc, List.append_assoc, List.drop_left, ← Text.length_utf8,
      List.take_left]
  have hbody : Read.asText what s.utf8ByteSize (c.advance number.length)
      = .ok s ((c.advance number.length).advance s.utf8ByteSize) := by
    simp only [Read.asText, htaken, Text.length_utf8, ↓reduceIte, Text.ofUtf8?_utf8]
  rw [List.length_append, Text.length_utf8, ← Cursor.advance_advance, ← hbody]
  -- `get` tells where the text starts, which the check of its end needs
  have hget (c : Cursor) : (get : Read Cursor) c = .ok c c := rfl
  simp only [Read.text, bind, EStateM.bind, hget, hnumber, if_neg hend]

/-! ### Elements -/

/-- The bits of a number are found in its `bytes`, if these are as many as it needs. -/
theorem LittleEndian.ofNat_value_bytes {w width : Nat} {x : BitVec w}
    (h : x.toNat < count width) : BitVec.ofNat w (value (bytes width x.toNat)) = x := by
  rw [value_bytes, Nat.mod_eq_of_lt h, BitVec.ofNat_toNat, BitVec.setWidth_eq]

/-- `ElementType.read` reads an element in the form in which it travels, one case for each
    type. -/
theorem ElementType.yields_read (t : ElementType) (x : t.Carrier) :
    Read.Yields t.read (t.pieces x).flatten (t.escaped x) := by
  cases t with
  | bool =>
    have hrange : -(Width.w64.half : Int) ≤ Bool.toNat x ∧
        (Bool.toNat x : Int) < Width.w64.half := by
      cases x <;> decide
    have hvalue : ((Bool.toNat x : Int) != 0) = x := by
      cases x <;> rfl
    simp only [pieces, List.flatten_cons, List.flatten_nil, List.append_nil]
    exact (Varint.yields_readSigned .value hrange).map (congrArg pure hvalue)
  | signed w =>
    -- integers travel as ones of 64 bits, and are judged by their own width when they are read
    have hw : w.half ≤ Width.w64.half := by
      cases w <;> decide
    have hrange : -(Width.w64.half : Int) ≤ x.val ∧ x.val < Width.w64.half := by
      have := x.property
      omega
    simp only [pieces, List.flatten_cons, List.flatten_nil, List.append_nil]
    exact (Varint.yields_readSigned .value hrange).map (dif_pos x.property)
  | unsigned w =>
    have hw : w.count ≤ Width.w64.count := by
      cases w <;> decide
    have hrange : x.val < Width.w64.count := Nat.lt_of_lt_of_le x.isLt hw
    simp only [pieces, List.flatten_cons, List.flatten_nil, List.append_nil]
    exact (Varint.yields_readUnsigned .value hrange).map (dif_pos x.isLt)
  | float =>
    simp only [pieces, List.flatten_cons, List.flatten_nil, List.append_nil]
    refine (Read.yields_bytes (LittleEndian.length_bytes _ _)).map (congrArg pure ?_)
    exact LittleEndian.ofNat_value_bytes (BitVec.isLt x)
  | double =>
    simp only [pieces, List.flatten_cons, List.flatten_nil, List.append_nil]
    refine (Read.yields_bytes (LittleEndian.length_bytes _ _)).map (congrArg pure ?_)
    exact LittleEndian.ofNat_value_bytes (BitVec.isLt x)
  | string => exact Read.yields_text _ _

/-! ### Values -/

/-- `readScalar` reads one element. -/
theorem Value.yields_readScalar (t : ElementType) (x : t.Carrier) :
    Read.Yields (readScalar (some t)) (scalar t x).pieces.flatten (scalar t x).escaped :=
  (t.yields_read x).map rfl

/-- The `pieces` of an array are its count and those of its elements, in their order. -/
theorem Value.flatten_pieces_array (t : ElementType) (xs : List t.Carrier) :
    (array t xs).pieces.flatten
      = Varint.encode .value xs.length ++ xs.flatMap fun x => (t.pieces x).flatten := by
  rw [pieces, List.flatten_cons, List.flatMap_def, List.flatten_flatten, List.flatMap_def,
    List.map_map]
  rfl

/-- `readArray` reads the count, and then by `yields_many` as many elements. -/
theorem Value.yields_readArray (t : ElementType) {xs : List t.Carrier}
    (h : xs.length ≤ Limits.elements) :
    Read.Yields (readArray (some t)) (array t xs).pieces.flatten (array t xs).escaped := by
  have hcount : xs.length < Width.w64.count := Nat.lt_of_le_of_lt h (by decide)
  have helements : Read.Yields (Read.many t.read xs.length)
      (xs.flatMap fun x => (t.pieces x).flatten) (xs.map t.escaped) :=
    Read.yields_many fun x _ => t.yields_read x
  rw [flatten_pieces_array]
  refine (Varint.yields_readUnsigned .value hcount).bind ?_
  -- the count is within the limit
  simp only [if_neg (Nat.not_lt_of_le h)]
  exact helements.map rfl

/-- `readArray` does not look at the elements of an array that is too long. -/
theorem Value.refuses_readArray (type : Option ElementType) {n : Nat} (h : Limits.elements < n)
    (hn : n < Width.w64.count) :
    Read.Refuses (readArray type) (Varint.encode .value n)
      (.tooManyElements n Limits.elements) := by
  refine (Varint.yields_readUnsigned .value hn).bind_throw ?_
  simp only [if_pos h]
  rfl

/-! ### Parameters -/

/-- The `bytes` of a parameter: those of its key, one for its type, and those of its value. -/
theorem Param.bytes_eq (p : Param) :
    p.bytes
      = (textPieces p.key).flatten ++ ([p.value.typeByte.pack] ++ p.value.pieces.flatten) := by
  rw [bytes, pieces, List.flatten_append, List.flatten_cons]

/-- A parameter takes room, if only for the length of its key. -/
theorem Param.length_bytes_pos (p : Param) : 0 < p.bytes.length := by
  have hkey := Varint.length_encode_pos .length p.key.utf8ByteSize
  simp only [bytes_eq, textPieces, List.flatten_cons, List.length_append]
  omega

/-- `unpack` accepts the type byte of every value. -/
theorem Value.ofExcept_unpack_typeByte (v : Value) :
    Read.ofExcept (TypeByte.unpack v.typeByte.pack)
      = pure (TypeByte.new (some v.type) v.arraySize?.isSome) := by
  rw [typeByte, TypeByte.unpack_pack]
  rfl

/-- `Param.read` reads the key, the type byte and what that one announces, in the order of
    `Param.bytes_eq`. -/
theorem Param.yields_read (p : Param) (h : p.value.FitsArray) :
    Read.Yields Param.read p.bytes p.escaped := by
  have hkey := Read.yields_text "param key" p.key
  rw [bytes_eq]
  refine hkey.bind ((Read.yields_byte _).bind ?_)
  rw [Value.ofExcept_unpack_typeByte, pure_bind]
  cases hvalue : p.value with
  | scalar t x =>
    have hx := Value.yields_readScalar t x
    refine hx.map ?_
    rw [Param.escaped, hvalue]
  | array t xs =>
    have hsize : xs.length ≤ Limits.elements := h _ (by rw [hvalue]; rfl)
    refine (Value.yields_readArray t hsize).map ?_
    rw [Param.escaped, hvalue]

/-- `Param.read` has read the key, the type and the number of elements of an array that is too
    long when it refuses it. -/
theorem Param.refuses_read (p : Param) {n : Nat} (hn : p.value.arraySize? = some n)
    (h : Limits.elements < n) (hwidth : n < Width.w64.count) :
    Read.Refuses Param.read
      ((textPieces p.key).flatten ++ ([p.value.typeByte.pack] ++ Varint.encode .value n))
      (.tooManyElements n Limits.elements) := by
  have hkey := Read.yields_text "param key" p.key
  refine hkey.bind_refuses ((Read.yields_byte _).bind_refuses ?_)
  rw [Value.ofExcept_unpack_typeByte, pure_bind, hn]
  exact (Value.refuses_readArray (some p.value.type) h hwidth).bind _

end EventReporter
