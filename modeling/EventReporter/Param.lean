import EventReporter.Buffer
import EventReporter.LittleEndian
import EventReporter.Text.Escape
import EventReporter.Value
import EventReporter.Varint
import EventReporter.Wire
namespace EventReporter

/-!
# Parameters as bytes

A parameter is written as its key, its type byte, the number of elements if it is an array, and
its elements: booleans and signed integers as signed numbers of variable length, unsigned ones
as plain numbers, floating-point numbers as their bits, strings as their length and their
escaped text. The encoding is a list of pieces, each of which a buffer takes in full or not at all.

The readers go with the pieces. String values are given as they travel, with their escape
sequences. An error leaves the cursor behind what could be read: behind a number that does not fit
its type, but before the bytes of a text that is cut off or malformed.

* `Param.encodeInto`, `Param.encode` : writing a parameter into a buffer, or on its own.
* `Param.read` : reading one.
-/

/-! ### Writing -/

/-- A named value. -/
structure Param where
  /-- The name. -/
  key : String
  /-- The value. -/
  value : Value
deriving DecidableEq

/-- The pieces of a text: its length in bytes, then the bytes. -/
def textPieces (s : String) : List (List UInt8) :=
  [Varint.encode .length s.utf8ByteSize, Text.utf8 s]

namespace ElementType

/-- The pieces of one element. -/
def pieces : (t : ElementType) → t.Carrier → List (List UInt8)
  | bool, b => [Varint.encodeSigned .value (Bool.toNat b)]
  | signed _, i => [Varint.encodeSigned .value i.val]
  | unsigned _, n => [Varint.encode .value n.val]
  | float, x => [LittleEndian.bytes 4 x.toNat]
  | double, x => [LittleEndian.bytes 8 x.toNat]
  | string, s => textPieces (Text.escape s)

end ElementType

/-- The pieces of a value after its type byte. -/
def Value.pieces : Value → List (List UInt8)
  | scalar t x => t.pieces x
  | array t xs => Varint.encode .value xs.length :: xs.flatMap t.pieces

namespace Param

/-- The pieces of a parameter. -/
def pieces (p : Param) : List (List UInt8) :=
  textPieces p.key ++ [p.value.typeByte.pack] :: p.value.pieces

/-- All bytes of a parameter. -/
def bytes (p : Param) : List UInt8 :=
  p.pieces.flatten

/-- Writes a parameter into a buffer, piece by piece. -/
def encodeInto (p : Param) (b : Buffer) : Buffer × Except WireError Unit :=
  b.appendAll p.pieces

/-- The bytes of a parameter on its own, which may take as much room as a whole record. -/
def encode (p : Param) : Except WireError (List UInt8) :=
  match p.encodeInto (.empty Limits.recordBytes) with
  | (b, .ok ()) => .ok b.toList
  | (_, .error e) => .error e

end Param

/-! ### Reading -/

namespace Read

/-- Lifts a verdict on bytes that were already read. -/
def ofExcept {α : Type} : Except WireError α → Read α
  | .ok x => pure x
  | .error e => throw e

/-- Reads the next `n` bytes as a text. -/
def asText (what : String) (n : Nat) : Read String := fun c =>
  let bytes := c.rest.take n
  if bytes.length = n then
    match Text.ofUtf8? bytes with
    | some s => .ok s (c.advance n)
    | none => .error (.badUtf8 what) c
  else .error (.tooShort (c.offset + n) c.size) c

/-- Reads a text that is preceded by its length. A length whose end has no 64-bit offset is
    malformed. -/
def text (what : String) : Read String := do
  let start := (← get).offset
  let (_, n) ← Varint.readUnsigned
  if Width.w64.count ≤ (← get).offset + n then throw (.badVarint start)
  asText what n

end Read

namespace ElementType

/-- Reads an element. -/
def read : (t : ElementType) → Read t.Carrier
  | bool => do
    let (_, i) ← Varint.readSigned
    pure (i != 0)
  | signed w => do
    let (_, i) ← Varint.readSigned
    if h : -(w.half : Int) ≤ i ∧ i < w.half then pure ⟨i, h⟩
    else throw (.outOfRange i (signed w).name)
  | unsigned w => do
    let (_, n) ← Varint.readUnsigned
    if h : n < w.count then pure ⟨n, h⟩
    else throw (.outOfRange n (unsigned w).name)
  | float => do
    let bytes ← Read.bytes 4
    pure (BitVec.ofNat 32 (LittleEndian.value bytes))
  | double => do
    let bytes ← Read.bytes 8
    pure (BitVec.ofNat 64 (LittleEndian.value bytes))
  | string => Read.text "string value"

end ElementType

namespace Value

/-- Reads one element of a type that the type byte named. -/
def readScalar : Option ElementType → Read Value
  | some t => do
    let x ← t.read
    pure (scalar t x)
  | none => throw (.unknownValueType 0)

/-- Reads an array of a type that the type byte named. Its size is looked at before its type. -/
def readArray (type : Option ElementType) : Read Value := do
  let (_, count) ← Varint.readUnsigned
  if Limits.elements < count then throw (.tooManyElements count Limits.elements)
  match type with
  | some t =>
    let xs ← Read.many t.read count
    pure (array t xs)
  | none => throw (.unknownValueType 0)

end Value

/-- Reads a parameter. -/
def Param.read : Read Param := do
  let key ← Read.text "param key"
  let kind ← Read.ofExcept (TypeByte.unpack (← Read.byte))
  let value ← if kind.isArray then Value.readArray kind.type else Value.readScalar kind.type
  pure ⟨key, value⟩

end EventReporter
