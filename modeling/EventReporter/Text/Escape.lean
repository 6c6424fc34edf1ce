namespace EventReporter.Text

/-!
# Escaped text

String values travel with their quotes, backslashes and control characters written as escape
sequences, so that a reader may put them between quotes as they are. Delete (U+007F) and all
text beyond ASCII are left alone. Each character is written as itself or as one escape sequence,
and that sequence is read as the character, whatever follows it.

* `escape_append` : escaping works character by character.
* `unescapeChars_escapeChars` : reading the escaped form gives the text back.
-/

/-! ### Writing -/

/-- A lower-case hexadecimal digit. -/
def hexDigit (n : Nat) : Char :=
  if n < 10 then Char.ofNat (48 + n) else Char.ofNat (87 + n)

/-- How one character is written. -/
def escapeChar (c : Char) : List Char :=
  match c with
  | '\\' => ['\\', '\\']
  | '"' => ['\\', '"']
  | '\n' => ['\\', 'n']
  | '\r' => ['\\', 'r']
  | '\t' => ['\\', 't']
  | '\x08' => ['\\', 'b']
  | '\x0c' => ['\\', 'f']
  | c =>
    if c.toNat < 0x20 then
      ['\\', 'u', '0', '0', hexDigit (c.toNat / 16), hexDigit (c.toNat % 16)]
    else [c]

/-- A text with every character written by `escapeChar`. -/
def escapeChars (cs : List Char) : List Char :=
  cs.flatMap escapeChar

/-- A string in its escaped form. -/
def escape (s : String) : String :=
  String.ofList (escapeChars s.toList)

/-- Characters are escaped one by one, by `escapeChar`. -/
theorem escapeChars_append (xs ys : List Char) :
    escapeChars (xs ++ ys) = escapeChars xs ++ escapeChars ys := by
  simp [escapeChars]

/-- A text that is put together is escaped part by part, by `escapeChars_append`. -/
theorem escape_append (s t : String) : escape (s ++ t) = escape s ++ escape t := by
  simp [escape, escapeChars_append]

/-! ### Reading -/

/-- The value of a hexadecimal digit of either case. -/
def hexValue? (c : Char) : Option Nat :=
  if '0' ≤ c ∧ c ≤ '9' then some (c.toNat - 48)
  else if 'a' ≤ c ∧ c ≤ 'f' then some (c.toNat - 87)
  else if 'A' ≤ c ∧ c ≤ 'F' then some (c.toNat - 55)
  else none

/-- The number that a run of hexadecimal digits denotes, continuing from `n`. -/
def hexNumber? (n : Nat) : List Char → Option Nat
  | [] => some n
  | c :: rest => (hexValue? c).bind fun d => hexNumber? (16 * n + d) rest

/-- The number in the four characters after a backslash and `u`: four hexadecimal digits, or a
    plus sign and three of them. -/
def fourDigits? : List Char → Option Nat
  | ['+', b, c, d] => hexNumber? 0 [b, c, d]
  | [a, b, c, d] => hexNumber? 0 [a, b, c, d]
  | _ => none

/-- The character with a code point, unless the number is a surrogate or too large. -/
def charOfCodePoint? (n : Nat) : Option Char :=
  if h : n.isValidChar then some (Char.ofNatAux n h) else none

/-- The escape sequence at the start of the text that follows a backslash: the character that it
    stands for, and its length without the backslash. -/
def sequence? : List Char → Option (Char × Nat)
  | '\\' :: _ => some ('\\', 1)
  | '"' :: _ => some ('"', 1)
  | 'n' :: _ => some ('\n', 1)
  | 'r' :: _ => some ('\r', 1)
  | 't' :: _ => some ('\t', 1)
  | 'b' :: _ => some ('\x08', 1)
  | 'f' :: _ => some ('\x0c', 1)
  | 'u' :: rest => ((fourDigits? (rest.take 4)).bind charOfCodePoint?).map (·, 5)
  | _ => none

/-- Reads from left to right, with what has been read so far in `done`, last character first.
    A backslash that starts no sequence stands for itself. -/
def unescapeFrom (done : List Char) : List Char → List Char
  | [] => done.reverse
  | c :: rest =>
    if c = '\\' then
      match sequence? rest with
      | some (x, n) => unescapeFrom (x :: done) (rest.drop n)
      | none => unescapeFrom (c :: done) rest
    else unescapeFrom (c :: done) rest
termination_by cs => cs.length
decreasing_by all_goals simp; try omega

/-- A text with its escape sequences replaced; anything else is kept as written. -/
def unescapeChars (cs : List Char) : List Char :=
  unescapeFrom [] cs

/-- The string that an escaped form stands for. -/
def unescape (s : String) : String :=
  String.ofList (unescapeChars s.toList)

/-! ### Hexadecimal digits -/

/-- `hexValue?` reads the digits that `hexDigit` writes. -/
theorem hexValue?_hexDigit {n : Nat} (h : n < 16) : hexValue? (hexDigit n) = some n := by
  have hall : ∀ k : Fin 16, hexValue? (hexDigit k) = some k.val := by decide
  exact hall ⟨n, h⟩

/-- Every character is found by its code point. -/
theorem charOfCodePoint?_toNat (c : Char) : charOfCodePoint? c.toNat = some c := by
  have hvalid : c.toNat.isValidChar := c.valid
  rw [charOfCodePoint?, dif_pos hvalid]
  rfl

/-! ### One character -/

/-- The sequence of a control character without a letter of its own is read by `sequence?` as that
    character, whatever follows: its two hexadecimal digits are `hexDigit`s. -/
theorem sequence?_control {c : Char} (h : c.toNat < 0x20) (rest : List Char) :
    sequence? ('u' :: '0' :: '0' :: hexDigit (c.toNat / 16) :: hexDigit (c.toNat % 16) :: rest)
      = some (c, 5) := by
  have hhigh := hexValue?_hexDigit (n := c.toNat / 16) (by omega)
  have hlow := hexValue?_hexDigit (n := c.toNat % 16) (by omega)
  have hzero : hexValue? '0' = some 0 := by decide
  have hdigits : fourDigits? ['0', '0', hexDigit (c.toNat / 16), hexDigit (c.toNat % 16)]
      = some c.toNat := by
    show hexNumber? 0 ['0', '0', hexDigit (c.toNat / 16), hexDigit (c.toNat % 16)] = _
    simp only [hexNumber?, hzero, hhigh, hlow, Option.bind_some, Option.some.injEq]
    omega
  simp only [sequence?, List.take_succ_cons, List.take_zero, hdigits, Option.bind_some,
    charOfCodePoint?_toNat, Option.map_some]

/-- A sequence that stands for `c` is read as `c`. -/
theorem unescapeFrom_sequence {done rest : List Char} {c : Char} {n : Nat} (body : List Char)
    (hseq : sequence? (body ++ rest) = some (c, n)) (hlen : body.length = n) :
    unescapeFrom done ('\\' :: (body ++ rest)) = unescapeFrom (c :: done) rest := by
  rw [unescapeFrom, if_pos rfl, hseq]
  simp only [← hlen, List.drop_left]

/-- What `escapeChar` writes for a character is read as that character: by `unescapeFrom_sequence`
    if it is a sequence, and as itself otherwise. -/
theorem unescapeFrom_escapeChar (done : List Char) (c : Char) (rest : List Char) :
    unescapeFrom done (escapeChar c ++ rest) = unescapeFrom (c :: done) rest := by
  unfold escapeChar
  split
  -- the last case has no letter: a control character, or one that is left alone
  case h_8 hplain _ _ _ _ _ _ =>
    split
    · next hcontrol =>
      exact unescapeFrom_sequence ['u', '0', '0', _, _] (sequence?_control hcontrol rest) rfl
    · rw [List.singleton_append, unescapeFrom, if_neg hplain]
  all_goals exact unescapeFrom_sequence [_] rfl rfl

/-! ### Whole texts -/

/-- What follows an escaped text is read as if the text had been read already. By induction on the
    text, with `unescapeFrom_escapeChar` for each character. -/
theorem unescapeFrom_escapeChars (done cs rest : List Char) :
    unescapeFrom done (escapeChars cs ++ rest) = unescapeFrom (cs.reverse ++ done) rest := by
  induction cs generalizing done with
  | nil => rfl
  | cons c cs ih =>
    have hcons : escapeChars (c :: cs) = escapeChar c ++ escapeChars cs := List.flatMap_cons
    rw [hcons, List.append_assoc, unescapeFrom_escapeChar, ih, List.reverse_cons,
      List.append_assoc, List.singleton_append]

/-- `unescapeFrom_escapeChars` for a text with nothing before it and nothing behind it. -/
theorem unescapeChars_escapeChars (cs : List Char) : unescapeChars (escapeChars cs) = cs := by
  have hall := unescapeFrom_escapeChars [] cs []
  rwa [List.append_nil, List.append_nil, unescapeFrom, List.reverse_reverse] at hall

end EventReporter.Text
