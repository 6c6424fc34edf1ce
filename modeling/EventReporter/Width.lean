namespace EventReporter

/-!
# Widths of integers, and powers of two and ten

The four widths of the integer types and the integers of each in two's complement, and the units
in which binary and decimal numbers count.

* `Width.count_eq_half_add_half` : half of the numbers of a width stand for negative integers.
* `pow2_add`, `pow2_lt` : units of units, and their order.
-/

/-! ### Widths -/

/-- The number of bits of an integer type. -/
inductive Width where
  | w8 | w16 | w32 | w64
deriving DecidableEq, Repr

namespace Width

/-- The number of bits. -/
def bits : Width → Nat
  | w8 => 8
  | w16 => 16
  | w32 => 32
  | w64 => 64

/-- How many numbers there are of a width. -/
def count : Width → Nat
  | w8 => UInt8.size
  | w16 => UInt16.size
  | w32 => UInt32.size
  | w64 => UInt64.size

/-- How many of them are negative in two's complement. -/
def half : Width → Nat
  | w8 => 0x80
  | w16 => 0x8000
  | w32 => 0x80000000
  | w64 => 0x8000000000000000

/-- Integers of a width in two's complement. -/
abbrev Signed (w : Width) : Type :=
  { i : Int // -(w.half : Int) ≤ i ∧ i < w.half }

/-- Natural numbers of a width. -/
abbrev Unsigned (w : Width) : Type :=
  Fin w.count

/-- The numbers of a width, `count`, are twice those that stand for negative integers, `half`. -/
theorem count_eq_half_add_half (w : Width) : w.count = w.half + w.half := by
  cases w <;> rfl

end Width

/-! ### Powers -/

/-- The power `2^k`. -/
def pow2 (k : Nat) : Nat := Nat.pow 2 k

/-- The power `10^k`. -/
def pow10 (k : Nat) : Nat := Nat.pow 10 k

/-- No unit `pow2 k` is empty, so it can be divided by. -/
theorem pow2_pos (k : Nat) : 0 < pow2 k :=
  Nat.two_pow_pos k

/-- A `pow2 k` of units `pow2 l` is a larger unit: shifting twice is shifting once. -/
theorem pow2_add (k l : Nat) : pow2 (k + l) = pow2 k * pow2 l :=
  Nat.pow_add 2 k l

/-- Larger exponents give larger units `pow2`. -/
theorem pow2_lt {k l : Nat} (h : k < l) : pow2 k < pow2 l :=
  Nat.pow_lt_pow_right (by decide) h

end EventReporter
