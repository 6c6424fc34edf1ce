import EventReporter.Width
import EventReporter.Wire
namespace EventReporter

/-!
# Element types and the type byte

The types that a parameter's value, or the elements of its array, may have, and the Lean type of
the values of each. Floating-point numbers are kept as their bits, so that every one of them,
signed zeros and NaN payloads included, is told apart.

In the type byte of a parameter, bit 0 says whether the value is an array, bits 1 to 4 hold the
code of the element type, and bits 5 to 7 a hint at the size of an element.

* `ElementType.ofCode?_code`, `ElementType.code_of_ofCode?` : codes and types correspond.
* `TypeByte.unpack_pack` : a type byte is read as it was written.
-/

/-! ### Types -/

/-- The type of an element. -/
inductive ElementType where
  | bool
  | signed (w : Width)
  | unsigned (w : Width)
  | float
  | double
  | string
deriving DecidableEq, Repr

namespace ElementType

/-- The values of a type. -/
def Carrier : ElementType → Type
  | bool => Bool
  | signed w => w.Signed
  | unsigned w => w.Unsigned
  | float => BitVec 32
  | double => BitVec 64
  | string => String

instance instDecidableEqCarrier : (t : ElementType) → DecidableEq t.Carrier
  | bool => inferInstanceAs (DecidableEq Bool)
  | signed w => inferInstanceAs (DecidableEq w.Signed)
  | unsigned w => inferInstanceAs (DecidableEq w.Unsigned)
  | float => inferInstanceAs (DecidableEq (BitVec 32))
  | double => inferInstanceAs (DecidableEq (BitVec 64))
  | string => inferInstanceAs (DecidableEq String)

/-- The code of a type in the type byte of a parameter. Code 0 is no type. -/
def code : ElementType → Nat
  | bool => 1
  | signed .w8 => 2
  | unsigned .w8 => 3
  | signed .w16 => 4
  | unsigned .w16 => 5
  | signed .w32 => 6
  | unsigned .w32 => 7
  | signed .w64 => 8
  | unsigned .w64 => 9
  | float => 10
  | double => 11
  | string => 12

/-- The type with a code. -/
def ofCode? : Nat → Option ElementType
  | 1 => some bool
  | 2 => some (signed .w8)
  | 3 => some (unsigned .w8)
  | 4 => some (signed .w16)
  | 5 => some (unsigned .w16)
  | 6 => some (signed .w32)
  | 7 => some (unsigned .w32)
  | 8 => some (signed .w64)
  | 9 => some (unsigned .w64)
  | 10 => some float
  | 11 => some double
  | 12 => some string
  | _ => none

/-- `ofCode?` finds a type by its `code`. -/
@[simp]
theorem ofCode?_code (t : ElementType) : ofCode? t.code = some t := by
  cases t with
  | signed w => cases w <;> rfl
  | unsigned w => cases w <;> rfl
  | _ => rfl

/-- The converse of `ofCode?_code`: a number by which `ofCode?` finds a type is its `code`. -/
theorem code_of_ofCode? {n : Nat} {t : ElementType} (h : ofCode? n = some t) : t.code = n := by
  unfold ofCode? at h
  split at h <;> simp at h <;> subst h <;> rfl

/-- The bytes that a value of fixed size takes outside a record; 0 where there is no such size. -/
def byteWidth : ElementType → Nat
  | signed w | unsigned w => w.bits / 8
  | float => 4
  | double => 8
  | bool | string => 0

/-- The name of a type. -/
def name : ElementType → String
  | bool => "bool"
  | signed w => s!"int{w.bits}"
  | unsigned w => s!"uint{w.bits}"
  | float => "float"
  | double => "double"
  | string => "string"

end ElementType

/-! ### The type byte -/

/-- What a type byte says. `none` stands for code 0, which names no type. -/
structure TypeByte where
  /-- Whether the value is an array. -/
  isArray : Bool
  /-- The type of the value or of its elements. -/
  type : Option ElementType
  /-- The hint at the size of an element. -/
  hint : Nat
deriving DecidableEq, Repr

namespace TypeByte

/-- The hint for an element type: the binary logarithm of its size, or 0. -/
def hintFor (type : Option ElementType) : Nat :=
  match type.map ElementType.byteWidth with
  | some 2 => 1
  | some 4 => 2
  | some 8 => 3
  | _ => 0

/-- The type byte for a type, with its usual hint. -/
def new (type : Option ElementType) (isArray : Bool) : TypeByte :=
  ⟨isArray, type, hintFor type⟩

/-- The code of a type, 0 for none. -/
def codeOf (type : Option ElementType) : Nat :=
  (type.map ElementType.code).getD 0

/-- The type with a code from 0 to 12. -/
def typeOfCode (code : Nat) : Except WireError (Option ElementType) :=
  if code = 0 then .ok none
  else match ElementType.ofCode? code with
    | some t => .ok (some t)
    | none => .error (.unknownValueType code)

/-- The name of a type, or of its absence. -/
def nameOf (type : Option ElementType) : String :=
  (type.map ElementType.name).getD "unknown"

/-- The byte. Of the hint it has room for three bits. -/
def pack (b : TypeByte) : UInt8 :=
  UInt8.ofNat (b.isArray.toNat + 2 * codeOf b.type + 32 * (b.hint % 8))

/-- Reads a byte. -/
def unpack (byte : UInt8) : Except WireError TypeByte := do
  let type ← typeOfCode (byte.toNat / 2 % 16)
  pure ⟨byte.toNat % 2 = 1, type, byte.toNat / 32⟩

/-- `unpack` reads a type byte that `pack` has made with the usual hint of `new`; by looking at
    all of them. -/
theorem unpack_pack (type : Option ElementType) (isArray : Bool) :
    unpack (new type isArray).pack = .ok (new type isArray) := by
  cases type with
  | none => cases isArray <;> rfl
  | some t =>
    cases t with
    | signed w => cases w <;> cases isArray <;> rfl
    | unsigned w => cases w <;> cases isArray <;> rfl
    | _ => cases isArray <;> rfl

end TypeByte

end EventReporter
