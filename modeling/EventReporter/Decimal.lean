import EventReporter.Width
namespace EventReporter.Decimal

/-!
# Binary numbers in decimal

A binary floating-point number `m · 2^e` stands for all reals that round to it. Of the decimals
in that interval, `shortest` finds one with the fewest digits, the nearest of those, and of two
equally near ones the larger. The interval is described in quarters of `2^e`, in which its centre
is `4 · m`; all comparisons are between natural numbers.

Every finite number is written with all its places, never with an exponent, and a whole number
without a point.

* `shortest` : the shortest decimal that reads back.
* `Binary64.render` : the text of a double-precision number.
* `widen` : a single-precision number as a double-precision one.
-/

/-! ### The shortest decimal -/

/-- The decimal number `digits · 10^exponent`. -/
structure Scaled where
  /-- The digits, as a natural number. -/
  digits : Nat
  /-- The power of ten that counts them. -/
  exponent : Int
deriving DecidableEq, Repr

/-- An interval around `centre`, in units of `num / den`. -/
structure Interval where
  /-- The least real that rounds to the centre. -/
  low : Nat
  /-- The number itself. -/
  centre : Nat
  /-- The greatest real that rounds to the centre. -/
  high : Nat
  /-- Whether the two ends belong to the interval. -/
  closed : Bool
  /-- The unit's numerator. -/
  num : Nat
  /-- The unit's denominator. -/
  den : Nat

/-- The interval of `m · 2^e`. The gap to the number below is half as wide as the one above when
    `m` is the least significand of its exponent. -/
def Interval.ofBinary (m : Nat) (e : Int) (least : Bool) : Interval where
  low := 4 * m - (if least then 1 else 2)
  centre := 4 * m
  high := 4 * m + 2
  closed := m % 2 == 0
  num := pow2 (e - 2).toNat
  den := pow2 (2 - e).toNat

/-- How many decimal digits a natural number has. -/
def digitCount (n : Nat) : Nat :=
  if n < 10 then 1 else digitCount (n / 10) + 1

/-- How many zeros stand between the point and the first digit of `num / den`, which is below 1;
    looks at most at `room` places. -/
def leadingZeros (num den : Nat) : (room : Nat) → Nat
  | 0 => 0
  | room + 1 => if den ≤ 10 * num then 0 else leadingZeros (10 * num) den room + 1

/-- The `t` with `10^(t-1) ≤ num / den < 10^t`, for a positive number of less than 1000 leading
    zeros. -/
def magnitude (num den : Nat) : Int :=
  if den ≤ num then digitCount (num / den) else -(leadingZeros num den 1000 : Int)

namespace Interval

/-- Whether `d · 10^p` lies in the interval. -/
def contains (i : Interval) (d : Nat) (p : Int) : Bool :=
  let point := d * pow10 p.toNat * i.den
  let unit := i.num * pow10 (-p).toNat
  if i.closed then decide (i.low * unit ≤ point ∧ point ≤ i.high * unit)
  else decide (i.low * unit < point ∧ point < i.high * unit)

/-- The centre in units of `10^p`, rounded down. -/
def gridFloor (i : Interval) (p : Int) : Nat :=
  i.centre * i.num * pow10 (-p).toNat / (i.den * pow10 p.toNat)

/-- Whether the centre is nearer to `d · 10^p` than to `(d + 1) · 10^p`. -/
def nearerBelow (i : Interval) (d : Nat) (p : Int) : Bool :=
  decide (2 * (i.centre * i.num * pow10 (-p).toNat) < (2 * d + 1) * (i.den * pow10 p.toNat))

/-- The better of the two neighbours of the centre on the grid `10^p` that lie in the interval. -/
def onGrid? (i : Interval) (p : Int) : Option Scaled :=
  let d := i.gridFloor p
  -- the centre lies between `d` and `d + 1`
  match i.contains d p, i.contains (d + 1) p with
  | true, true => if i.nearerBelow d p then some ⟨d, p⟩ else some ⟨d + 1, p⟩
  | true, false => some ⟨d, p⟩
  | false, true => some ⟨d + 1, p⟩
  | false, false => none

/-- The first hit on the grids `10^p`, `10^(p-1)`, …; after `room` of them, the centre rounded
    down. -/
def firstHit (i : Interval) (p : Int) : (room : Nat) → Scaled
  | 0 => ⟨i.gridFloor p, p⟩
  | room + 1 =>
    match i.onGrid? p with
    | some d => d
    | none => firstHit i (p - 1) room

end Interval

/-- The shortest decimal that rounds to `m · 2^e`, for a positive `m` of at most 53 bits. -/
def shortest (m : Nat) (e : Int) (least : Bool) : Scaled :=
  let i := Interval.ofBinary m e least
  i.firstHit (magnitude (i.centre * i.num) i.den - 1) 17

/-! ### Numbers written out -/

/-- The same number without trailing zeros among its digits. -/
def Scaled.normalize (x : Scaled) : Scaled :=
  if x.digits = 0 ∨ x.digits % 10 ≠ 0 then x
  else normalize ⟨x.digits / 10, x.exponent + 1⟩
termination_by x.digits
decreasing_by omega

/-- The digits of a decimal number with its point. -/
def Scaled.positional (x : Scaled) : String :=
  let digits := (toString x.digits).toList
  if 0 ≤ x.exponent then String.ofList (digits ++ List.replicate x.exponent.toNat '0')
  else
    let places := (-x.exponent).toNat
    if digits.length ≤ places then
      String.ofList ('0' :: '.' :: List.replicate (places - digits.length) '0' ++ digits)
    else
      let whole := digits.length - places
      String.ofList (digits.take whole ++ '.' :: digits.drop whole)

/-- A double-precision number, read from its bits. -/
inductive Binary64 where
  /-- Not a number. -/
  | nan
  /-- An infinity. -/
  | infinite (negative : Bool)
  /-- `m · 2^e`; `least` marks the least significand of an exponent other than the lowest. -/
  | finite (negative : Bool) (m : Nat) (e : Int) (least : Bool)
deriving DecidableEq, Repr

/-- Reads the bits of a double-precision number. -/
def Binary64.ofBits (bits : BitVec 64) : Binary64 :=
  let n := bits.toNat
  let negative := n / pow2 63 == 1
  let exponent : Nat := n / pow2 52 % 2048
  let fraction : Nat := n % pow2 52
  if exponent = 2047 then if fraction = 0 then infinite negative else nan
  else if exponent = 0 then finite negative fraction (-1074) false
  else
    -- the leading bit is not stored
    finite negative (pow2 52 + fraction) ((exponent : Int) - 1075)
      (fraction == 0 && exponent != 1)

/-- The text of a double-precision number. -/
def Binary64.render : Binary64 → String
  | nan => "NaN"
  | infinite negative => if negative then "-inf" else "inf"
  | finite negative m e least =>
    let digits := if m = 0 then "0" else (shortest m e least).normalize.positional
    if negative then "-" ++ digits else digits

/-- The double-precision bits of a single-precision number; every NaN becomes a quiet one. -/
def widen (bits : BitVec 32) : BitVec 64 :=
  let n := bits.toNat
  let negative := n / pow2 31
  let exponent : Nat := n / pow2 23 % 256
  let fraction : Nat := n % pow2 23
  let magnitude :=
    if exponent = 255 then
      2047 * pow2 52 + if fraction = 0 then 0 else pow2 51 + fraction % pow2 22 * pow2 29
    else if exponent = 0 then
      if fraction = 0 then 0
      else
        -- a subnormal number has a normal form in the wider format, led by its highest bit
        let k := fraction.log2
        (k + 874) * pow2 52 + (fraction - pow2 k) * pow2 (52 - k)
    else (exponent + 896) * pow2 52 + fraction * pow2 29
  BitVec.ofNat 64 (negative * pow2 63 + magnitude)

end EventReporter.Decimal
