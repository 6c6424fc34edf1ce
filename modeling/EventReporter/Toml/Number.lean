import EventReporter.Toml.Scan
import EventReporter.Width
namespace EventReporter.Toml

/-!
# Numbers and dates in TOML

Integers of 64 bits in four bases, floating-point numbers, and dates and times. Of the latter two
only the form matters here.

* `integer`, `finite`, `special` : the numbers; an integer has to fit 64 bits.
* `dateTime` : a date, a time or both, of which nothing is kept.
-/

/-! ### Digits -/

/-- The value of some digits in a base, if all of them are digits of that base. -/
def value? (base : Nat) (digits : List Char) : Option Nat :=
  match digits with
  | [] => none
  | _ => digits.foldlM
      (fun n c => (Text.hexValue? c).bind fun d => if d < base then some (base * n + d) else none) 0

/-- Whether a character is a digit of a base. -/
def isDigitOf (base : Nat) (c : Char) : Bool :=
  (Text.hexValue? c).any (· < base)

/-- Digits of a base after the ones in `done`, last one first; single underscores may stand
    between them. -/
def digitsFrom (base : Nat) (done : List Char) : Scan (List Char)
  | '_' :: c :: rest =>
    if isDigitOf base c then digitsFrom base (c :: done) rest else none
  | c :: rest =>
    if isDigitOf base c then digitsFrom base (c :: done) rest
    else if c = '_' then none
    else some (done.reverse, c :: rest)
  | [] => some (done.reverse, [])

/-- Some digits of a base. -/
def digits (base : Nat) : Scan (List Char)
  | c :: rest => if isDigitOf base c then digitsFrom base [c] rest else none
  | [] => none

/-- A sign: whether it is a minus. -/
def sign : List Char → Bool × List Char
  | '+' :: rest => (false, rest)
  | '-' :: rest => (true, rest)
  | cs => (false, cs)

/-- A decimal number without leading zeros. -/
def decimalDigits : Scan (List Char)
  | '0' :: rest => some (['0'], rest)
  | cs => digits 10 cs

/-! ### Integers -/

/-- An integer of 64 bits. -/
def within64 (i : Int) : Option Int :=
  if -(Width.w64.half : Int) ≤ i ∧ i < Width.w64.half then some i else none

/-- A number in a base other than ten, after the two characters that announce it. -/
def based (base : Nat) : Scan Int := fun cs => do
  let (ds, rest) ← digits base cs
  let n ← value? base ds
  let i ← within64 n
  some (i, rest)

/-- An integer. -/
def integer : Scan Int
  | '0' :: 'x' :: rest => based 16 rest
  | '0' :: 'o' :: rest => based 8 rest
  | '0' :: 'b' :: rest => based 2 rest
  | cs => do
    let (negative, cs) := sign cs
    let (ds, rest) ← decimalDigits cs
    let n ← value? 10 ds
    let i ← within64 (if negative then -n else n)
    some (i, rest)

/-! ### Floating-point numbers -/

/-- Whether `digits · 10^exponent` is too large for a double-precision number: it is at least
    halfway from the greatest one to the next power of two. -/
def overflows (digits : Nat) (exponent : Int) : Bool :=
  let places : Int := (toString digits).length + exponent
  if digits = 0 ∨ places < 300 then false
  else if 320 < places then true
  else
    decide ((pow2 54 - 1) * pow2 970 * pow10 (-exponent).toNat ≤ digits * pow10 exponent.toNat)

/-- The digits after a point, if there are any. -/
def fraction : Scan (List Char)
  | '.' :: rest => digits 10 rest
  | cs => some ([], cs)

/-- An exponent, if there is one. -/
def exponent : Scan Int
  | c :: rest =>
    if c = 'e' ∨ c = 'E' then do
      let (negative, cs) := sign rest
      let (ds, behind) ← digits 10 cs
      let n ← value? 10 ds
      some (if negative then -n else n, behind)
    else some (0, c :: rest)
  | [] => some (0, [])

/-- A finite number with a fraction or an exponent. -/
def finite : Scan Unit := fun cs => do
  let (negative, cs) := sign cs
  let (whole, afterWhole) ← decimalDigits cs
  let (part, afterPart) ← fraction afterWhole
  let (power, rest) ← exponent afterPart
  if rest.length = afterWhole.length then none
  let n ← value? 10 (whole ++ part)
  if overflows n (power - part.length) ∧ ¬ negative then none
  some ((), rest)

/-- An infinity or no number. -/
def special : Scan Unit := fun cs =>
  match (sign cs).2 with
  | 'i' :: 'n' :: 'f' :: rest => some ((), rest)
  | 'n' :: 'a' :: 'n' :: rest => some ((), rest)
  | _ => none

/-! ### Dates and times -/

/-- A number of exactly `width` digits between two bounds. -/
def field (width low high : Nat) : Scan Nat := fun cs => do
  let ds := cs.take width
  if ds.length < width then none
  let n ← value? 10 ds
  if low ≤ n ∧ n ≤ high then some (n, cs.drop width) else none

/-- One given character. -/
def mark (c : Char) : Scan Unit
  | d :: rest => if c = d then some ((), rest) else none
  | [] => none

/-- How many days a month has. -/
def daysIn (year month : Nat) : Nat :=
  if month = 2 then
    if year % 4 = 0 ∧ (year % 100 ≠ 0 ∨ year % 400 = 0) then 29 else 28
  else if month = 4 ∨ month = 6 ∨ month = 9 ∨ month = 11 then 30
  else 31

/-- A date. -/
def date : Scan Unit := fun cs => do
  let (year, cs) ← field 4 0 9999 cs
  let (_, cs) ← mark '-' cs
  let (month, cs) ← field 2 1 12 cs
  let (_, cs) ← mark '-' cs
  let (_, cs) ← field 2 1 (daysIn year month) cs
  some ((), cs)

/-- The text after a point and digits, if they are there. -/
def skipFraction (cs : List Char) : List Char :=
  match cs with
  | '.' :: c :: rest => if c.isDigit then rest.dropWhile Char.isDigit else cs
  | _ => cs

/-- A time of the day, down to the second at least. -/
def time : Scan Unit := fun cs => do
  let (_, cs) ← field 2 0 23 cs
  let (_, cs) ← mark ':' cs
  let (_, cs) ← field 2 0 59 cs
  let (_, cs) ← mark ':' cs
  let (_, cs) ← field 2 0 60 cs
  some ((), skipFraction cs)

/-- An offset from UTC, if there is one. -/
def offset : Scan Unit
  | c :: rest =>
    if c = 'Z' ∨ c = 'z' then some ((), rest)
    else if c = '+' ∨ c = '-' then do
      let (_, cs) ← field 2 0 23 rest
      let (_, cs) ← mark ':' cs
      let (_, cs) ← field 2 0 59 cs
      some ((), cs)
    else some ((), c :: rest)
  | [] => some ((), [])

/-- A time with its offset, behind a date. -/
def clock : Scan Unit := fun cs =>
  match cs with
  | c :: rest =>
    if c = 'T' ∨ c = 't' ∨ c = ' ' then
      match time rest with
      | some (_, behind) => offset behind
      | none => some ((), cs)
    else some ((), cs)
  | [] => some ((), cs)

/-- A date, a time, or both. -/
def dateTime : Scan Unit := fun cs =>
  match date cs with
  | some (_, rest) => clock rest
  | none => time cs

end EventReporter.Toml
