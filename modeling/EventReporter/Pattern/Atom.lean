import EventReporter.Text
import EventReporter.Text.Escape
namespace EventReporter.Pattern

/-!
# The atoms of a pattern

The smallest parts of a regular expression: characters, in plain or behind a backslash, and what
stands for one of several characters or for a place between two. Unicode has no tables here, so
that an atom for which one would be needed stands for nothing.

* `Mode` : the flags under which a pattern is read.
* `skip` : passes over what a verbose pattern does not count.
* `escape?` : what a backslash makes of the characters behind it.
-/

/-- How a part of a pattern is read. -/
structure Mode where
  /-- Blanks and comments are passed over. -/
  verbose : Bool
  /-- Upper and lower case are the same. -/
  caseless : Bool
  /-- Characters are those of Unicode, rather than bytes. -/
  unicode : Bool
deriving DecidableEq, Repr

namespace Mode

/-- How a pattern starts out. -/
def initial : Mode := ⟨false, false, true⟩

end Mode

/-! ### Blanks and comments -/

/-- The text behind its leading blanks and comments; `comment` tells that it starts in one. -/
def skipFrom (comment : Bool) : List Char → List Char
  | [] => []
  | c :: rest =>
    if comment then skipFrom (c != '\n') rest
    else if c = '#' then skipFrom true rest
    else if Text.isBlank c then skipFrom false rest
    else c :: rest

/-- The text behind what a mode passes over. -/
def skip (m : Mode) (cs : List Char) : List Char :=
  if m.verbose then skipFrom false cs else cs

/-- A glance at the next character that counts. It looks behind blanks and behind one number
    sign, but not for the end of a comment. -/
def glance (m : Mode) (cs : List Char) : Option Char :=
  if m.verbose then
    let behind := match cs.dropWhile Text.isBlank with
      | '#' :: rest => rest.dropWhile Text.isBlank
      | rest => rest
    behind.head?.or cs.head?
  else cs.head?

/-! ### Atoms -/

/-- An atom. -/
inductive Atom where
  /-- A character; `byte` tells that it was given by the number of a byte. -/
  | character (c : Char) (byte : Bool)
  /-- Any character but a line feed. -/
  | any
  /-- The start or the end of a line or of the text. -/
  | edge
  /-- An end of a word, or a place that is none. -/
  | boundary
  /-- A digit, a blank or a character of words, or one that is not. -/
  | category (negated : Bool)
deriving DecidableEq, Repr

/-- A number of `n` hexadecimal digits, continuing from `value`, and the rest. -/
def hexDigits? (m : Mode) : (n value : Nat) → List Char → Option (Nat × List Char)
  | 0, value, cs => some (value, cs)
  | n + 1, value, cs =>
    match skip m cs with
    | [] => none
    | c :: rest => (Text.hexValue? c).bind fun d => hexDigits? m n (16 * value + d) rest

/-- A character given by `n` hexadecimal digits, and the rest. -/
def codePoint? (m : Mode) (n : Nat) (cs : List Char) : Option (Char × List Char) := do
  let (value, rest) ← hexDigits? m n 0 cs
  let c ← Text.charOfCodePoint? value
  some (c, rest)

/-- The control character with a letter. -/
def control? (c : Char) : Option Char :=
  [('a', '\x07'), ('f', '\x0c'), ('t', '\t'), ('n', '\n'), ('r', '\r'), ('v', '\x0b')].lookup c

/-- Whether a character stands for itself behind a backslash: all of ASCII but letters and
    digits. -/
def standsForItself (c : Char) : Bool :=
  decide (c.toNat < 0x80) && ! c.isAlphanum

/-- What follows a backslash, and the rest. There are no references back, and no classes by
    property. -/
def escape? (m : Mode) : List Char → Option (Atom × List Char)
  | [] => none
  | c :: rest =>
    match c with
    | 'x' => (codePoint? m 2 rest).map fun (x, rest) => (.character x true, rest)
    | 'u' => (codePoint? m 4 rest).map fun (x, rest) => (.character x false, rest)
    | 'U' => (codePoint? m 8 rest).map fun (x, rest) => (.character x false, rest)
    | 'd' | 's' | 'w' => some (.category false, rest)
    | 'D' | 'S' | 'W' => some (.category true, rest)
    | 'A' | 'z' => some (.edge, rest)
    | 'b' | 'B' | '<' | '>' => some (.boundary, rest)
    | c =>
      if standsForItself c then some (.character c false, rest)
      else (control? c).map fun x => (.character x false, rest)

/-- The first atom, and the rest. -/
def atom? (m : Mode) : List Char → Option (Atom × List Char)
  | [] => none
  | '\\' :: rest => escape? m rest
  | '.' :: rest => some (.any, rest)
  | '^' :: rest => some (.edge, rest)
  | '$' :: rest => some (.edge, rest)
  | c :: rest => some (.character c false, rest)

/-- Whether an atom stands for something. What is read as bytes may not match a part of a
    character. -/
def Atom.isMeaningful (m : Mode) : Atom → Bool
  | character c byte =>
    if m.unicode then ! m.caseless else ! byte || decide (c.toNat < 0x80)
  | any => m.unicode
  | edge => true
  | boundary => ! m.unicode
  | category negated => ! m.unicode && ! negated

end EventReporter.Pattern
