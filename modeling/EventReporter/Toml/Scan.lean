import EventReporter.Text.Escape
namespace EventReporter.Toml

/-!
# Scanning TOML text

The smallest pieces of the format: blanks, line ends, comments, keys and strings. A scanner takes
the text ahead and gives what it read with the text behind it, or nothing if the text does not
fit.

* `key`, `string` : dotted keys, and strings of all four kinds.
* `length_of_lineFeed?` : a line feed is read from the front, so that less is left behind it,
  on which the definitions that pass over lines rest.
-/

/-- A scanner of an `α`. -/
abbrev Scan (α : Type) := List Char → Option (α × List Char)

/-- A space or a tab. -/
def isBlank (c : Char) : Bool :=
  c == ' ' || c == '\t'

/-- A character that may stand in a comment. -/
def isCommentChar (c : Char) : Bool :=
  c == '\t' || (' ' ≤ c && c ≤ '~') || '\x80' ≤ c

/-- A character of a key without quotes. -/
def isBareChar (c : Char) : Bool :=
  c.isAlphanum || c == '_' || c == '-'

/-- The text after its leading blanks. -/
def skipBlanks (cs : List Char) : List Char :=
  cs.dropWhile isBlank

/-- Nothing is added by `skipBlanks`. -/
theorem length_skipBlanks_le (cs : List Char) : (skipBlanks cs).length ≤ cs.length :=
  (List.dropWhile_suffix _).length_le

/-- A line feed, or a carriage return and a line feed. -/
def lineFeed? : List Char → Option (List Char)
  | '\n' :: rest => some rest
  | '\r' :: '\n' :: rest => some rest
  | _ => none

/-- A line feed is taken off by `lineFeed?`, so there is less text behind it. -/
theorem length_of_lineFeed? {cs rest : List Char} (h : lineFeed? cs = some rest) :
    rest.length < cs.length := by
  unfold lineFeed? at h
  split at h
  · cases h; simp only [List.length_cons]; omega
  · cases h; simp only [List.length_cons]; omega
  · cases h

/-- The text after a comment, if there is one. -/
def skipComment : List Char → List Char
  | '#' :: rest => rest.dropWhile isCommentChar
  | cs => cs

/-- Nothing is added by `skipComment`. -/
theorem length_skipComment_le (cs : List Char) : (skipComment cs).length ≤ cs.length := by
  unfold skipComment
  split
  · exact Nat.le_succ_of_le (List.dropWhile_suffix _).length_le
  · exact Nat.le_refl _

/-- The text after the rest of a line: blanks, a comment, and a line feed or the end. -/
def lineEnd? (cs : List Char) : Option (List Char) :=
  match skipComment (skipBlanks cs) with
  | [] => some []
  | rest => lineFeed? rest

/-- The text after blanks, comments and line feeds. -/
def skipLines (cs : List Char) : List Char :=
  match h : lineFeed? (skipComment (skipBlanks cs)) with
  | some rest =>
    have _shorter := length_of_lineFeed? h
    skipLines rest
  | none => skipBlanks cs
termination_by cs.length
decreasing_by
  have hcomment := length_skipComment_le (skipBlanks cs)
  have hblanks := length_skipBlanks_le cs
  omega

/-! ### Strings -/

/-- A character that stands for itself between double quotes. -/
def isPlainBasic (c : Char) : Bool :=
  c != '"' && c != '\\' && isCommentChar c

/-- A character that may stand between single quotes. -/
def isPlainLiteral (c : Char) : Bool :=
  c != '\'' && isCommentChar c

/-- The character whose code point is given by the next `width` hexadecimal digits. -/
def codePoint? (width : Nat) (cs : List Char) : Option Char :=
  let digits := cs.take width
  if digits.length < width then none
  else (Text.hexNumber? 0 digits).bind Text.charOfCodePoint?

/-- The character that an escape sequence names, and the length of the sequence behind its
    backslash. -/
def sequence? : List Char → Option (Char × Nat)
  | 'b' :: _ => some ('\x08', 1)
  | 't' :: _ => some ('\t', 1)
  | 'n' :: _ => some ('\n', 1)
  | 'f' :: _ => some ('\x0c', 1)
  | 'r' :: _ => some ('\r', 1)
  | '"' :: _ => some ('"', 1)
  | '\\' :: _ => some ('\\', 1)
  | 'u' :: rest => (codePoint? 4 rest).map (·, 5)
  | 'U' :: rest => (codePoint? 8 rest).map (·, 9)
  | _ => none

/-- The rest of a string between double quotes, after the characters in `done`, last one
    first. -/
def basicFrom (done : List Char) : Scan String
  | [] => none
  | c :: rest =>
    if c = '"' then some (String.ofList done.reverse, rest)
    else if c = '\\' then
      match sequence? rest with
      | some (x, n) => basicFrom (x :: done) (rest.drop n)
      | none => none
    else if isPlainBasic c then basicFrom (c :: done) rest
    else none
termination_by cs => cs.length
decreasing_by all_goals simp; try omega

/-- A string between single quotes, after the first of them. -/
def literal : Scan String := fun cs =>
  let text := cs.takeWhile isPlainLiteral
  match cs.drop text.length with
  | '\'' :: rest => some (String.ofList text, rest)
  | _ => none

/-- The text after blanks and line feeds. -/
def skipGap (cs : List Char) : List Char :=
  match h : lineFeed? (skipBlanks cs) with
  | some rest =>
    have _shorter := length_of_lineFeed? h
    skipGap rest
  | none => skipBlanks cs
termination_by cs.length
decreasing_by
  have hblanks := length_skipBlanks_le cs
  omega

/-- Nothing is added by `skipGap`. By induction along the line feeds that it goes past. -/
theorem length_skipGap_le (cs : List Char) : (skipGap cs).length ≤ cs.length := by
  fun_induction skipGap cs with
  | case1 cs rest h ih =>
    have hfeed := length_of_lineFeed? h
    have hblanks := length_skipBlanks_le cs
    omega
  | case2 cs h => exact length_skipBlanks_le cs

/-- The end of a string over several lines at a run of its quotes: up to two more of them belong
    to the string. -/
def closeLong (quote : Char) (done : List Char) : Scan String := fun cs =>
  let run := (cs.takeWhile (· == quote)).length
  if 3 ≤ run ∧ run ≤ 5 then
    some (String.ofList (done.reverse ++ List.replicate (run - 3) quote), cs.drop run)
  else none

/-- The rest of a string over several lines; `basic` says whether backslashes count. -/
def longFrom (quote : Char) (basic : Bool) (done : List Char) : Scan String
  | [] => none
  | c :: rest =>
    if c = quote then
      -- less than three quotes are part of the text
      if ((c :: rest).takeWhile (· == quote)).length < 3 then
        longFrom quote basic (c :: done) rest
      else closeLong quote done (c :: rest)
    else if basic ∧ c = '\\' then
      -- a backslash at the end of a line takes the gap behind it along
      match h : lineFeed? (skipBlanks rest) with
      | some below =>
        have _shorter := length_of_lineFeed? h
        longFrom quote basic done (skipGap below)
      | none =>
        match sequence? rest with
        | some (x, n) => longFrom quote basic (x :: done) (rest.drop n)
        | none => none
    else match h : lineFeed? (c :: rest) with
      | some below =>
        have _shorter := length_of_lineFeed? h
        longFrom quote basic ('\n' :: done) below
      | none => if isCommentChar c then longFrom quote basic (c :: done) rest else none
termination_by cs => cs.length
decreasing_by
  · simp
  · have hgap := length_skipGap_le below
    have hblanks := length_skipBlanks_le rest
    simp only [List.length_cons]
    omega
  · simp only [List.length_drop, List.length_cons]; omega
  · assumption
  · simp

/-- The text of a string over several lines, after its opening quotes: a line feed right behind
    them does not count. -/
def longBody (cs : List Char) : List Char :=
  (lineFeed? cs).getD cs

/-- A string. -/
def string : Scan String
  | '"' :: '"' :: '"' :: rest => longFrom '"' true [] (longBody rest)
  | '\'' :: '\'' :: '\'' :: rest => longFrom '\'' false [] (longBody rest)
  | '"' :: rest => basicFrom [] rest
  | '\'' :: rest => literal rest
  | _ => none

/-! ### Keys -/

/-- A key without dots. -/
def simpleKey : Scan String
  | '"' :: rest => basicFrom [] rest
  | '\'' :: rest => literal rest
  | cs =>
    let text := cs.takeWhile isBareChar
    if text = [] then none else some (String.ofList text, cs.drop text.length)

/-- Most parts of a dotted key. -/
def maxKeyParts : Nat := 79

/-- The parts of a key with dots, at most `room` of them, with the blanks around them. -/
def keyParts : (room : Nat) → Scan (List String)
  | 0, _ => none
  | room + 1, cs => do
    let (part, rest) ← simpleKey (skipBlanks cs)
    -- blanks may stand on both sides of a dot
    match skipBlanks rest with
    | '.' :: rest =>
      let (parts, rest) ← keyParts room rest
      some (part :: parts, rest)
    | rest => some ([part], rest)

/-- A key with dots. -/
def key : Scan (List String) :=
  keyParts maxKeyParts

end EventReporter.Toml
