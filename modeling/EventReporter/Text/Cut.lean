import EventReporter.Text
namespace EventReporter.Text

/-!
# Cutting a text at a byte limit

A text is shortened to whole characters only, so what is left is again a text. The place at which
it is cut can be found from the front, by counting the characters that fit, or from behind: from
the limit one byte after the other is given up, until the cut falls on a boundary between two
characters. That search, and the reading of what is left, could fail, as far as their definitions
go.

* `cut_of_fits` : a text within the limit is left as it is.
* `utf8ByteSize_cut_le` : what is left keeps to the limit.
* `cutBack?`, `cutEach?` : the search from behind, for one text and for several.
-/

/-! ### From the front -/

/-- How many leading characters of `cs` fit into `room` bytes together, on top of `count`
    characters already taken. -/
def countFitting (room : Nat) (cs : List Char) (count : Nat) : Nat :=
  match cs with
  | [] => count
  | c :: rest =>
    if c.utf8Size ≤ room then countFitting (room - c.utf8Size) rest (count + 1) else count

/-- The longest part of `s` from its start that is made of whole characters and has at most
    `max` bytes. -/
def cut (max : Nat) (s : String) : String :=
  if s.utf8ByteSize ≤ max then s
  else String.ofList (s.toList.take (countFitting max s.toList 0))

/-- Whether `cut max` shortens `s`. -/
def exceeds (max : Nat) (s : String) : Bool :=
  max < s.utf8ByteSize

/-- A text within the limit is left as it is by `cut`. -/
theorem cut_of_fits {max : Nat} {s : String} (h : s.utf8ByteSize ≤ max) : cut max s = s :=
  if_pos h

/-! ### The size of what is left -/

/-- The bytes of some characters together. -/
def byteCount (cs : List Char) : Nat :=
  cs.foldr (fun c n => c.utf8Size + n) 0

/-- `byteCount` adds up the bytes of the characters. -/
theorem byteCount_cons (c : Char) (rest : List Char) :
    byteCount (c :: rest) = c.utf8Size + byteCount rest :=
  rfl

/-- The limit of a text counts the bytes of its characters together. -/
theorem utf8ByteSize_ofList (cs : List Char) :
    (String.ofList cs).utf8ByteSize = byteCount cs := by
  induction cs with
  | nil => rfl
  | cons c rest ih =>
    rw [← List.singleton_append, String.ofList_append, String.utf8ByteSize_append, ih]
    simp [byteCount]

/-- What `countFitting` starts with is added to its result. The lemmas about it take 0 to start
    with. -/
theorem countFitting_eq_add (room : Nat) (cs : List Char) (count : Nat) :
    countFitting room cs count = countFitting room cs 0 + count := by
  induction cs generalizing room count with
  | nil => simp [countFitting]
  | cons c rest ih =>
    simp only [countFitting]
    split
    · rw [ih _ (count + 1), ih _ (0 + 1)]; omega
    · omega

/-- The characters that `countFitting` counts fit together. By induction on the characters, each
    of which takes its bytes from the room. -/
theorem byteCount_take_countFitting_le (room : Nat) (cs : List Char) :
    byteCount (cs.take (countFitting room cs 0)) ≤ room := by
  induction cs generalizing room with
  | nil => simp [countFitting, byteCount]
  | cons c rest ih =>
    simp only [countFitting]
    split
    · -- the first character fits, and the others into what it leaves
      rw [countFitting_eq_add, List.take_succ_cons]
      have htail := ih (room - c.utf8Size)
      simp only [byteCount, List.foldr_cons] at htail ⊢
      omega
    · simp [byteCount]

/-- What `cut` leaves keeps to the limit. -/
theorem utf8ByteSize_cut_le (max : Nat) (s : String) : (cut max s).utf8ByteSize ≤ max := by
  unfold cut
  split
  · assumption
  · rw [utf8ByteSize_ofList]
    exact byteCount_take_countFitting_le max s.toList

/-! ### From behind -/

/-- Whether a byte is the first one of a character, as opposed to one of those that follow. -/
def startsChar (b : UInt8) : Bool :=
  decide (b < 0x80 ∨ 0xC0 ≤ b)

/-- Whether the first `n` bytes end between two characters. -/
def isBoundary (bytes : List UInt8) (n : Nat) : Bool :=
  n == 0 ||
    match bytes[n]? with
    | some b => startsChar b
    | none => n == bytes.length

/-- The last boundary up to `n`; `none` if the search would go below zero. -/
def lastBoundary? (bytes : List UInt8) : (n : Nat) → Option Nat
  | 0 => if isBoundary bytes 0 then some 0 else none
  | n + 1 => if isBoundary bytes (n + 1) then some (n + 1) else lastBoundary? bytes n

/-- Cuts a text to `max` bytes at the last boundary, and says whether it was longer. There is no
    result if there is no such boundary, or if what is left is no text. -/
def cutBack? (max : Nat) (s : String) : Option (String × Bool) :=
  if s.utf8ByteSize ≤ max then some (s, false)
  else do
    let stop ← lastBoundary? (utf8 s) max
    let t ← ofUtf8? ((utf8 s).take stop)
    pure (t, true)

/-- Cuts texts one after the other. The second result is whether one of them, or one of those
    before, was longer. -/
def cutEach? (max : Nat) : List String → (shorter : Bool) → Option (List String × Bool)
  | [], shorter => some ([], shorter)
  | s :: ss, shorter => do
    let (t, cut) ← cutBack? max s
    let (ts, shorter) ← cutEach? max ss (cut || shorter)
    pure (t :: ts, shorter)

end EventReporter.Text
