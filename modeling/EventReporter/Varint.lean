import EventReporter.Cursor
import EventReporter.Width
namespace EventReporter.Varint

/-!
# Tagged numbers of variable length

The first byte of a number is its tag: what the number is for in its two high bits, whether more
bytes follow in bit 5, and the lowest five bits of the number. Each later byte has seven bits of
the number, lower ones first, and its high bit says whether another one follows. A number takes
at most ten bytes.

A signed number is written as twice its magnitude, plus one if it is negative.

* `ofSignMagnitude_signMagnitude` : the signed form loses nothing.
* `length_encode_le` : no number takes more than ten bytes.
-/

/-- What a number is for. -/
inductive Purpose where
  /-- A value. -/
  | value
  /-- The length of the bytes that follow. -/
  | length
deriving DecidableEq, Repr

/-- Most bytes of one number. -/
def maxBytes : Nat := 10

/-! ### Writing -/

/-- The two high bits of the tag. -/
def Purpose.code : Purpose → Nat
  | value => 0
  | length => 1

/-- The tag byte: purpose, the lowest five bits of `n`, and whether `n` has more. -/
def tag (purpose : Purpose) (n : Nat) : UInt8 :=
  UInt8.ofNat (64 * purpose.code + (if 32 ≤ n then 32 else 0) + n % 32)

/-- The bytes after the tag for the bits `n` that are left, at most `room` bytes of them. -/
def groups : (room : Nat) → (n : Nat) → List UInt8
  | 0, _ => []
  | room + 1, n =>
    -- no byte is spent on bits that are not there
    if n = 0 then []
    else UInt8.ofNat ((if 128 ≤ n then 128 else 0) + n % 128) :: groups room (n / 128)

/-- The bytes of a natural number. -/
def encode (purpose : Purpose) (n : Nat) : List UInt8 :=
  tag purpose n :: groups (maxBytes - 1) (n / 32)

/-- Magnitude and sign in one number. -/
def signMagnitude (i : Int) : Nat :=
  2 * i.natAbs + if i < 0 then 1 else 0

/-- The bytes of an integer. -/
def encodeSigned (purpose : Purpose) (i : Int) : List UInt8 :=
  encode purpose (signMagnitude i)

/-- `groups` writes no more bytes than there is room for. By induction on the room. -/
theorem length_groups_le (room n : Nat) : (groups room n).length ≤ room := by
  induction room generalizing n with
  | zero => simp [groups]
  | succ room ih =>
    unfold groups
    split
    · simp
    · simpa using ih _

/-- A number never takes more than `maxBytes`. -/
theorem length_encode_le (purpose : Purpose) (n : Nat) :
    (encode purpose n).length ≤ maxBytes := by
  have := length_groups_le (maxBytes - 1) (n / 32)
  simp only [encode, List.length_cons]
  simp only [maxBytes] at this ⊢
  omega

/-- `encode` takes one byte at least, the one with the purpose. -/
theorem length_encode_pos (purpose : Purpose) (n : Nat) : 0 < (encode purpose n).length :=
  Nat.succ_pos _

/-! ### Reading -/

/-- The purpose that a tag byte names; codes without a meaning count as values. -/
def Purpose.ofTag (b : UInt8) : Purpose :=
  if b.toNat / 64 = 1 then length else value

/-- The integer whose magnitude and sign are in `n`. -/
def ofSignMagnitude (n : Nat) : Int :=
  if n % 2 = 1 then -(n / 2 : Nat) else (n / 2 : Nat)

/-- An integer is found again in the number that `signMagnitude` makes of it. -/
theorem ofSignMagnitude_signMagnitude (i : Int) : ofSignMagnitude (signMagnitude i) = i := by
  unfold ofSignMagnitude signMagnitude
  split <;> split at * <;> omega

/-- How the reading of a number from the front of some bytes ends. -/
inductive Scan where
  /-- The number is `n`, in the first `used` bytes. -/
  | complete (n used : Nat)
  /-- All bytes are used up and the number goes on. -/
  | truncated (used : Nat)
  /-- The number goes on after ten bytes. -/
  | endless
deriving DecidableEq, Repr

/-- Reads on after `used` bytes that say `n`, where the next group counts in units of `unit`. -/
def scanGroups (n unit used : Nat) : List UInt8 → Scan
  | [] => if maxBytes ≤ used then .endless else .truncated used
  | b :: rest =>
    if maxBytes ≤ used then .endless
    else if 128 ≤ b.toNat then
      scanGroups (n + b.toNat % 128 * unit) (128 * unit) (used + 1) rest
    else .complete (n + b.toNat % 128 * unit) (used + 1)

/-- Reads the number at the front of some bytes. -/
def scan : List UInt8 → Scan
  | [] => .truncated 0
  | b :: rest =>
    -- the tag has room for five bits
    if b.toNat / 32 % 2 = 1 then scanGroups (b.toNat % 32) 32 1 rest
    else .complete (b.toNat % 32) 1

/-- Reads a number with its purpose. A malformed one leaves the cursor where it starts. -/
def read : Read (Purpose × Nat) := fun c =>
  match scan c.rest with
  | .complete n used =>
    .ok ((c.rest.head?.map Purpose.ofTag).getD .value, n) (c.advance used)
  | .truncated used => .error (.tooShort (c.offset + used + 1) c.size) c
  | .endless => .error (.badVarint c.offset) c

/-- Reads a number of 64 bits. A larger one is refused with the cursor behind it. -/
def readUnsigned : Read (Purpose × Nat) := do
  let start := (← get).offset
  let (purpose, n) ← read
  -- ten bytes have room for more than 64 bits
  if n < Width.w64.count then pure (purpose, n) else throw (.badVarint start)

/-- Reads an integer of 64 bits. A larger one is refused with the cursor behind it. -/
def readSigned : Read (Purpose × Int) := do
  let start := (← get).offset
  let (purpose, n) ← read
  let i := ofSignMagnitude n
  if -(Width.w64.half : Int) ≤ i ∧ i < Width.w64.half then pure (purpose, i)
  else throw (.badVarint start)

end EventReporter.Varint
