namespace EventReporter.LittleEndian

/-!
# Fixed-width numbers, least significant byte first

* `length_bytes` : a number takes as many bytes as it is given.
* `value_bytes` : reading the bytes of a number gives it back, less what did not fit.
* `take_bytes_append` : fields written one after the other are read one after the other.
-/

/-- The lowest `width` bytes of `n`. -/
def bytes : (width : Nat) → (n : Nat) → List UInt8
  | 0, _ => []
  | width + 1, n => UInt8.ofNat n :: bytes width (n / 256)

/-- How many numbers `width` bytes can tell apart. -/
def count : (width : Nat) → Nat
  | 0 => 1
  | width + 1 => 256 * count width

/-- The number that some bytes hold. -/
def value : List UInt8 → Nat
  | [] => 0
  | b :: rest => b.toNat + 256 * value rest

/-- A number takes as many bytes as its `width`, however large it is. -/
@[simp]
theorem length_bytes (width n : Nat) : (bytes width n).length = width := by
  induction width generalizing n with
  | zero => rfl
  | succ width ih => simp [bytes, ih]

/-- Reading with `value` what `bytes` has written gives the number, less what does not fit into
    its width. By induction on the width: the lowest byte is the remainder by 256. -/
theorem value_bytes (width n : Nat) : value (bytes width n) = n % count width := by
  induction width generalizing n with
  | zero => simp [bytes, value, count, Nat.mod_one]
  | succ width ih =>
    rw [bytes, value, ih, UInt8.toNat_ofNat']
    show n % 256 + 256 * (n / 256 % count width) = n % (256 * count width)
    rw [Nat.mod_mul]

/-- The number in the first `width` bytes, and the bytes after them. -/
def take (width : Nat) (bs : List UInt8) : Nat × List UInt8 :=
  (value (bs.take width), bs.drop width)

/-- `take` reads a field and leaves what follows it, so that a block is read field by field. -/
@[simp]
theorem take_bytes_append (width n : Nat) (rest : List UInt8) :
    take width (bytes width n ++ rest) = (n % count width, rest) := by
  simp [take, value_bytes]

/-- The bytes of an integer in two's complement. -/
def intBytes (width : Nat) (i : Int) : List UInt8 :=
  bytes width (i % (count width : Int)).toNat

/-- The integer that some bytes hold in two's complement. -/
def intValue (bs : List UInt8) : Int :=
  Int.bmod (value bs) (count bs.length)

end EventReporter.LittleEndian
