import EventReporter.Pattern.Atom
namespace EventReporter.Pattern

/-!
# Sets of characters

A set stands between brackets: members in a row, which are characters, ranges, categories and
further sets, and operators between such rows. A bracket or a hyphen right behind the opening one
is a member. The parts of a pattern are nested, and how deep is limited: parts that stand in a
row are one level above the highest of them, if there is more than one.

* `Row.height` : the height of parts in a row.
* `set?` : the set behind an opening bracket, with its height.
-/

/-! ### Heights of rows -/

/-- Parts in a row. -/
structure Row where
  /-- How many there are. -/
  count : Nat
  /-- The height of the highest. -/
  highest : Nat
deriving DecidableEq, Repr

namespace Row

/-- No parts. -/
def empty : Row := ⟨0, 0⟩

/-- The row with one more part. -/
def add (r : Row) (height : Nat) : Row :=
  ⟨r.count + 1, max r.highest height⟩

/-- The height of the row. -/
def height (r : Row) : Nat :=
  if r.count ≤ 1 then r.highest else r.highest + 1

end Row

/-! ### Sets that are being read -/

/-- A set that is being read. -/
structure CharSet where
  /-- The height of what stands before the last operator. -/
  left : Option Nat
  /-- The members behind it. -/
  members : Row
deriving DecidableEq, Repr

namespace CharSet

/-- A set without members. -/
def empty : CharSet := ⟨none, .empty⟩

/-- The set with one more member. -/
def add (s : CharSet) (height : Nat) : CharSet :=
  { s with members := s.members.add height }

/-- The height of what stands between the brackets. An operator is above its two sides. -/
def inner (s : CharSet) : Nat :=
  match s.left with
  | none => s.members.height
  | some left => max left s.members.height + 1

/-- The height of the set. -/
def height (s : CharSet) : Nat :=
  s.inner + 1

/-- The set behind an operator. -/
def operator (s : CharSet) : CharSet := ⟨some s.inner, .empty⟩

end CharSet

/-! ### Members -/

/-- Whether a character may be a member. -/
def isMember (m : Mode) (c : Char) : Bool :=
  if m.unicode then ! m.caseless else decide (c.toNat < 0x80)

/-- Whether an atom may be a member. -/
def Atom.isMember (m : Mode) : Atom → Bool
  | character c _ => Pattern.isMember m c
  | category negated => ! m.unicode && ! negated
  | _ => false

/-- Whether two atoms are the ends of a range. -/
def isRange (m : Mode) : Atom → Atom → Bool
  | .character a _, .character b _ =>
    isMember m a && isMember m b && decide (a.toNat ≤ b.toNat)
  | _, _ => false

/-- The first atom of a set, where only the backslash is special, and the rest. -/
def memberAtom? (m : Mode) : List Char → Option (Atom × List Char)
  | [] => none
  | '\\' :: rest => escape? m rest
  | c :: rest => some (.character c false, rest)

/-- The text behind a member or a range at its start. A hyphen makes a range unless it is the last
    character of the set or the first half of an operator. -/
def member? (m : Mode) (cs : List Char) : Option (List Char) := do
  let (a, rest) ← memberAtom? m cs
  match skip m rest with
  | '-' :: beyond =>
    if glance m beyond = some ']' ∨ glance m beyond = some '-' then
      if a.isMember m then some ('-' :: beyond) else none
    else
      let (b, rest) ← memberAtom? m (skip m beyond)
      if isRange m a b then some rest else none
  | rest => if a.isMember m then some rest else none

/-- The names of the sets that ASCII has. -/
def asciiNames : List String :=
  ["alnum", "alpha", "ascii", "blank", "cntrl", "digit", "graph", "lower", "print", "punct",
    "space", "upper", "word", "xdigit"]

/-- A named set behind its opening bracket, if there is one: whether it is negated, and the
    rest. -/
def asciiSet? : List Char → Option (Bool × List Char)
  | ':' :: rest =>
    let negated := rest.head? == some '^'
    let rest := if negated then rest.drop 1 else rest
    let name := rest.takeWhile (· ≠ ':')
    match rest.drop name.length with
    | ':' :: ']' :: rest =>
      if asciiNames.contains (String.ofList name) then some (negated, rest) else none
    | _ => none
  | _ => none

/-- Whether a named set may be a member. -/
def isAsciiMember (m : Mode) (negated : Bool) : Bool :=
  if m.unicode then ! m.caseless else ! negated

/-! ### Sets -/

/-- The text behind the start of a set, which tells that the set is negated. A negated set of
    bytes would match parts of characters. -/
def openSet? (m : Mode) (cs : List Char) : Option (List Char) :=
  match skip m cs with
  | '^' :: rest => if m.unicode then some rest else none
  | rest => some rest

/-- Whether a character is half of an operator. -/
def isOperator (c : Char) : Bool :=
  c == '&' || c == '-' || c == '~'

/-- Reads the members of a set that stands inside of the sets `outer`, in at most `room` steps:
    the height of the outermost set, and the text behind it. At the `opening` of a set brackets
    and hyphens are members. -/
def setFrom (m : Mode) : (room : Nat) → (opening : Bool) → CharSet → (outer : List CharSet) →
    List Char → Option (Nat × List Char)
  | 0, _, _, _, _ => none
  | room + 1, opening, s, outer, cs =>
    match skip m cs with
    | [] => none
    | c :: rest =>
      if opening ∧ (c = '-' ∨ c = ']' ∧ s.members.count = 0) then
        if isMember m c then setFrom m room (c == '-') (s.add 0) outer rest else none
      else if c = '[' then
        match asciiSet? rest with
        | some (negated, rest) =>
          if isAsciiMember m negated then setFrom m room false (s.add 0) outer rest else none
        | none =>
          match openSet? m rest with
          | some rest => setFrom m room true .empty (s :: outer) rest
          | none => none
      else if c = ']' then
        match outer with
        | [] => some (s.height, rest)
        | o :: outer => setFrom m room false (o.add s.height) outer rest
      else if isOperator c ∧ rest.head? = some c then
        setFrom m room false s.operator outer (rest.drop 1)
      else
        match member? m (c :: rest) with
        | some rest => setFrom m room false (s.add 0) outer rest
        | none => none

/-- The set behind an opening bracket: its height, and the text behind it. -/
def set? (m : Mode) (cs : List Char) : Option (Nat × List Char) :=
  (openSet? m cs).bind fun rest => setFrom m (rest.length + 1) true .empty [] rest

end EventReporter.Pattern
