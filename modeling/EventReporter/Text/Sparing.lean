import EventReporter.Text.Cut
import EventReporter.Text.Escape
namespace EventReporter.Text

/-!
# Escaping without needless work

Most texts hold nothing to escape, and most escaped texts hold no escape sequence. Such a text is
handed back as it is; only another one is gone through character by character, and a new text is
made of it. Whether there is anything to do is asked in one place, and what is done in another.
-/

/-- The answer to a text. -/
inductive Answer where
  /-- The text itself. -/
  | same (s : String)
  /-- A new text, made from it. -/
  | made (s : String)
deriving DecidableEq

/-- The text of an answer. -/
def Answer.text : Answer → String
  | same s => s
  | made s => s

namespace Sparing

/-! ### Writing -/

/-- Whether a character is a control character of ASCII. -/
def isControl (c : Char) : Bool :=
  c.toNat < 0x20 || c.toNat == 0x7f

/-- Whether a character may not stand for itself. -/
def needsEscape (c : Char) : Bool :=
  c == '\\' || c == '"' || (isControl c && c != '\x7f')

/-- The letter that stands for a character behind a backslash. -/
def letter? : Char → Option Char
  | '\\' => some '\\'
  | '"' => some '"'
  | '\n' => some 'n'
  | '\r' => some 'r'
  | '\t' => some 't'
  | '\x08' => some 'b'
  | '\x0c' => some 'f'
  | _ => none

/-- A number in base 16, with zeros in front if it has less than four digits. -/
def padded (n : Nat) : List Char :=
  (Nat.toDigits 16 n).leftpad 4 '0'

/-- How one character is written. -/
def written (c : Char) : List Char :=
  match letter? c with
  | some l => ['\\', l]
  | none => if needsEscape c then '\\' :: 'u' :: padded c.toNat else [c]

/-- A string in its escaped form. -/
def escape (s : String) : Answer :=
  if s.toList.any needsEscape then .made (String.ofList (s.toList.flatMap written)) else .same s

/-! ### Reading -/

/-- The character that a letter stands for behind a backslash. -/
def named? : Char → Option Char
  | '\\' => some '\\'
  | '"' => some '"'
  | 'n' => some '\n'
  | 'r' => some '\r'
  | 't' => some '\t'
  | 'b' => some '\x08'
  | 'f' => some '\x0c'
  | _ => none

/-- What stands behind a plus sign, if there is one. -/
def afterPlus : List Char → List Char
  | '+' :: rest => rest
  | cs => cs

/-- The number below 2 ^ 32 that a text states in base 16. A plus sign may stand in front of its
    digits, of which there is at least one. -/
def number? (cs : List Char) : Option Nat :=
  if afterPlus cs = [] then none
  else (hexNumber? 0 (afterPlus cs)).filter (· < UInt32.size)

/-- The character whose number stands in the next four characters, of one byte each. -/
def coded? (cs : List Char) : Option Char :=
  let four := cs.take 4
  ((number? four).bind charOfCodePoint?).filter fun _ => byteCount four = 4

/-- Reads from left to right. A backslash that starts no sequence, and the character behind it,
    stand for themselves. -/
def scan : List Char → List Char
  | [] => []
  | ['\\'] => ['\\']
  | '\\' :: c :: rest =>
    match named? c with
    | some x => x :: scan rest
    | none =>
      if c = 'u' then
        match coded? rest with
        | some x => x :: scan (rest.drop 4)
        | none => '\\' :: c :: scan rest
      else '\\' :: c :: scan rest
  | c :: rest => c :: scan rest
termination_by cs => cs.length
decreasing_by all_goals (simp only [List.length_cons, List.length_drop]; omega)

/-- The string that an escaped form stands for. -/
def unescape (s : String) : Answer :=
  if s.toList.contains '\\' then .made (String.ofList (scan s.toList)) else .same s

end Sparing

end EventReporter.Text
