import EventReporter.Width
import EventReporter.Wire
namespace EventReporter

/-!
# Reading under guard

A guarded reader works on all bytes of the data at once: it adds up positions in machine numbers,
and cuts the bytes between two positions out of the data. A sum or a shift that does not fit its
machine number, and a cut that reaches past the bytes, is a trap, which no data may lead into. The
reader also counts the parameters that it begins to read.

* `part_take` : a cut out of the first bytes.
-/

/-- What no data may lead into. -/
inductive Trap where
  /-- The bytes from `start` to `stop` were cut out of `size` bytes. -/
  | cut (start stop size : Nat)
  /-- There is no number of width `w` that is `a + b`. -/
  | sum (w : Width) (a b : Nat)
  /-- Shifted to the left by `bits`, `n` is not a number of 128 bits. -/
  | shift (n bits : Nat)
deriving DecidableEq, Repr

/-- Why a guarded reader does not go on. -/
inductive Stop where
  /-- It went into a trap. -/
  | trap (t : Trap)
  /-- It does not accept the data. -/
  | refusal (e : WireError)
deriving DecidableEq, Repr

/-- What a guarded reader works on. -/
structure Desk where
  /-- All bytes. -/
  data : List UInt8
  /-- How many of them have been read. -/
  offset : Nat
  /-- How many parameters it has begun to read. -/
  begun : Nat
deriving DecidableEq, Repr

/-- A guarded reader of an `α`. -/
abbrev Guarded (α : Type) := EStateM Stop Desk α

namespace Guarded

variable {α : Type}

/-- Does not accept the data. -/
def refuse (e : WireError) : Guarded α :=
  throw (.refusal e)

/-- Goes on with what is there, or does not accept the data. -/
def orRefuse (x : Option α) (e : WireError) : Guarded α :=
  match x with
  | some x => pure x
  | none => refuse e

/-- Goes on with a verdict on bytes that were cut out. -/
def ofExcept (x : Except WireError α) : Guarded α :=
  match x with
  | .ok x => pure x
  | .error e => refuse e

/-- Moves on to an offset. -/
def moveTo (offset : Nat) : Guarded Unit :=
  modify fun d => { d with offset }

/-- Counts a parameter. -/
def begin : Guarded Unit :=
  modify fun d => { d with begun := d.begun + 1 }

/-- What a guarded reader ends with, and how many parameters have been begun. -/
def outcome : EStateM.Result Stop Desk α → Except Stop α × Nat
  | .ok x d => (.ok x, d.begun)
  | .error s d => (.error s, d.begun)

/-- Runs a guarded reader on some bytes. -/
def runOn (g : Guarded α) (data : List UInt8) : Except Stop α × Nat :=
  outcome (g ⟨data, 0, 0⟩)

/-! ### Numbers -/

/-- The sum of two numbers, if it is a number of the given width. -/
def sum? (w : Width) (a b : Nat) : Option Nat :=
  if a + b < w.count then some (a + b) else none

/-- The sum of two numbers, which has to be one of the given width. -/
def sum (w : Width) (a b : Nat) : Guarded Nat :=
  match sum? w a b with
  | some n => pure n
  | none => throw (.trap (.sum w a b))

/-- A number shifted to the left, which has to stay one of 128 bits. -/
def shift (n bits : Nat) : Guarded Nat :=
  if bits < 128 ∧ n * pow2 bits < pow2 128 then pure (n * pow2 bits)
  else throw (.trap (.shift n bits))

/-! ### Bytes -/

/-- The bytes from `start` to `stop`, if they are there. -/
def part? (bs : List UInt8) (start stop : Nat) : Option (List UInt8) :=
  if start ≤ stop ∧ stop ≤ bs.length then some ((bs.take stop).drop start) else none

/-- The bytes from `start` to `stop`, which have to be there. -/
def part (bs : List UInt8) (start stop : Nat) : Guarded (List UInt8) :=
  match part? bs start stop with
  | some bs => pure bs
  | none => throw (.trap (.cut start stop bs.length))

variable {bs : List UInt8} {start stop : Nat}

/-- `part?` cuts out what lies inside of the bytes. -/
theorem part?_of_le (h : start ≤ stop) (h' : stop ≤ bs.length) :
    part? bs start stop = some ((bs.drop start).take (stop - start)) := by
  rw [part?, if_pos ⟨h, h'⟩, List.drop_take]

/-- `part?` cuts out nothing that ends beyond the bytes. -/
theorem part?_of_lt (h : bs.length < stop) : part? bs start stop = none :=
  if_neg fun hin => Nat.not_le_of_lt h hin.2

/-- `part` springs no trap inside of the bytes. -/
theorem part_of_le (h : start ≤ stop) (h' : stop ≤ bs.length) :
    part bs start stop = pure ((bs.drop start).take (stop - start)) := by
  rw [part, part?_of_le h h']

/-- In particular not at their end. -/
theorem part_to_end (h : start ≤ bs.length) : part bs start bs.length = pure (bs.drop start) := by
  rw [part_of_le h (Nat.le_refl _), ← List.length_drop, List.take_length]

/-- What `part` cuts out of the first bytes, it would cut out of all of them. -/
theorem part_take {size : Nat} (h : start ≤ stop) (h' : stop ≤ size) (hsize : size ≤ bs.length) :
    part (bs.take size) start stop = pure ((bs.drop start).take (stop - start)) := by
  rw [part_of_le h (by rw [List.length_take]; omega), List.drop_take, List.take_take]
  congr 2
  omega

/-- `sum?` adds numbers whose sum has the width. -/
theorem sum?_of_lt {w : Width} {a b : Nat} (h : a + b < w.count) : sum? w a b = some (a + b) :=
  if_pos h

/-- `sum` springs no trap on them. -/
theorem sum_of_lt {w : Width} {a b : Nat} (h : a + b < w.count) : sum w a b = pure (a + b) := by
  rw [sum, sum?_of_lt h]

/-- `shift` springs no trap as long as no bit is lost. -/
theorem shift_of_lt {n bits : Nat} (h : bits < 128) (h' : n * pow2 bits < pow2 128) :
    shift n bits = pure (n * pow2 bits) :=
  if_pos ⟨h, h'⟩

end Guarded

end EventReporter
