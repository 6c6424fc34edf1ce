import EventReporter.Decimal
import EventReporter.Value
namespace EventReporter

/-!
# Values by kind

A reader that does not care for the exact type of a value asks for it as a natural number, an
integer, a double-precision number or a text. Unsigned types are natural numbers, signed types
and booleans are integers, and both floating-point types are double-precision numbers; every
value has a text. Scalars and arrays answer separately.

* `nat?`, `int?`, `double?`, `string?` : the answers of a scalar; the plural forms are those of
  an array, with one answer for each element.
-/

namespace ElementType

/-- The natural number that an element of an unsigned type is. -/
def toNat? : (t : ElementType) → Option (t.Carrier → Nat)
  | unsigned _ => some Fin.val
  | _ => none

/-- The integer that an element of a signed type, or a boolean, is. -/
def toInt? : (t : ElementType) → Option (t.Carrier → Int)
  | bool => some fun b => (Bool.toNat b : Int)
  | signed _ => some Subtype.val
  | _ => none

/-- The double-precision bits of a floating-point element. -/
def toDouble? : (t : ElementType) → Option (t.Carrier → BitVec 64)
  | float => some Decimal.widen
  | double => some id
  | _ => none

/-- The text of an element. -/
def render : (t : ElementType) → t.Carrier → String
  | bool, b => toString (Bool.toNat b)
  | signed _, i => toString i.val
  | unsigned _, n => toString n.val
  | float, x => (Decimal.Binary64.ofBits (Decimal.widen x)).render
  | double, x => (Decimal.Binary64.ofBits x).render
  | string, s => s

end ElementType

namespace Value

/-- A scalar as a natural number. -/
def nat? : Value → Option Nat
  | scalar t x => t.toNat?.map (· x)
  | array .. => none

/-- A scalar as an integer. -/
def int? : Value → Option Int
  | scalar t x => t.toInt?.map (· x)
  | array .. => none

/-- A scalar as a double-precision number. -/
def double? : Value → Option (BitVec 64)
  | scalar t x => t.toDouble?.map (· x)
  | array .. => none

/-- A scalar as a text. -/
def string? : Value → Option String
  | scalar t x => some (t.render x)
  | array .. => none

/-- An array as natural numbers. -/
def nats? : Value → Option (List Nat)
  | scalar .. => none
  | array t xs => t.toNat?.map xs.map

/-- An array as integers. -/
def ints? : Value → Option (List Int)
  | scalar .. => none
  | array t xs => t.toInt?.map xs.map

/-- An array as double-precision numbers. -/
def doubles? : Value → Option (List (BitVec 64))
  | scalar .. => none
  | array t xs => t.toDouble?.map xs.map

/-- An array as texts. -/
def strings? : Value → Option (List String)
  | scalar .. => none
  | array t xs => some (xs.map t.render)

end Value

end EventReporter
