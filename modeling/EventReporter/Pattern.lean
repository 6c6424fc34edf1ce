import EventReporter.Pattern.CharSet
import EventReporter.Text.Alphanumeric
namespace EventReporter.Pattern

/-!
# Patterns

Regular expressions, as far as to tell which texts are one. A pattern is a choice between
branches, and a branch a row of items: atoms, sets, groups, and repetitions of these. A group may
have a name, and it may change how its inside is read, as may an item for the rest of its group.

* `itemsFrom` : reads items one after the other, with the open groups on a stack.
* `isPattern` : whether a text is a pattern.
-/

/-! ### Groups -/

/-- A group that is being read. -/
structure Group where
  /-- How it is read from here on. -/
  mode : Mode
  /-- The branches that are complete. -/
  branches : Row
  /-- The items of the branch that is being read. -/
  branch : Row
  /-- The height of the last item, if there is one that may be repeated. -/
  last : Option Nat
deriving DecidableEq, Repr

namespace Group

/-- A group without items. -/
def start (mode : Mode) : Group := ⟨mode, .empty, .empty, none⟩

/-- The group with one more item. -/
def add (g : Group) (height : Nat) : Group :=
  { g with branch := g.branch.add height, last := some height }

/-- The group with an item that changes how the rest of it is read. -/
def change (g : Group) (mode : Mode) : Group :=
  { g with mode, branch := g.branch.add 0, last := none }

/-- The group with another branch. -/
def next (g : Group) : Group :=
  { g with branches := g.branches.add g.branch.height, branch := .empty, last := none }

/-- The group with a repetition in place of its last item. -/
def repeatLast (g : Group) : Option Group :=
  g.last.map fun height =>
    { g with
      branch := { g.branch with highest := max g.branch.highest (height + 1) }
      last := some (height + 1) }

/-- The height of what the group holds. -/
def inner (g : Group) : Nat :=
  (g.branches.add g.branch.height).height

/-- The height of the group. -/
def height (g : Group) : Nat :=
  g.inner + 1

end Group

/-! ### The start of a group -/

/-- What an opening parenthesis opens. -/
inductive Opening where
  /-- A group, which may have a name. -/
  | group (mode : Mode) (name : Option (List Char))
  /-- An item that changes the mode. -/
  | change (mode : Mode)
deriving DecidableEq, Repr

/-- The letters of what can be changed, and the hyphen behind which it is switched off. -/
def flagLetters : List Char := ['i', 'm', 's', 'U', 'u', 'R', 'x', '-']

/-- Whether letters make sense as a change: known ones, each once, and a hyphen not at the end. -/
def areFlags (cs : List Char) : Bool :=
  cs.all flagLetters.contains && flagLetters.all (fun f => decide (cs.count f ≤ 1)) &&
    cs.getLast? != some '-'

/-- A mode after a change. -/
def Mode.change (m : Mode) (flags : List Char) : Mode :=
  let on := flags.takeWhile (· ≠ '-')
  let off := flags.drop on.length
  let switch (f : Char) (current : Bool) : Bool := on.contains f || current && ! off.contains f
  ⟨switch 'x' m.verbose, switch 'i' m.caseless, switch 'u' m.unicode⟩

/-- A character that may stand in the name of a group behind its first. -/
def isGroupChar (c : Char) : Bool :=
  c == '_' || c == '.' || c == '[' || c == ']' || Text.isAlphanumeric c

/-- A group with the name up to the next angle, and the rest. -/
def named? (m : Mode) (cs : List Char) : Option (Opening × List Char) :=
  let name := cs.takeWhile (· ≠ '>')
  match name, cs.drop name.length with
  | c :: more, _ :: rest =>
    if (c == '_' || Text.isAlphabetic c) && more.all isGroupChar then
      some (.group m (some name), rest)
    else none
  | _, _ => none

/-- A group with changes, or changes alone, and the rest. -/
def flagged? (m : Mode) (cs : List Char) : Option (Opening × List Char) :=
  let flags := cs.takeWhile fun c => c ≠ ':' ∧ c ≠ ')'
  if areFlags flags then
    match cs.drop flags.length with
    | ':' :: rest => some (.group (m.change flags) none, rest)
    | ')' :: rest => if flags = [] then none else some (.change (m.change flags), rest)
    | _ => none
  else none

/-- What an opening parenthesis in front of the text opens, and the rest. There is no looking
    ahead or back. -/
def opening? (m : Mode) (cs : List Char) : Option (Opening × List Char) :=
  match skip m cs with
  | '?' :: 'P' :: '<' :: rest => named? m rest
  | '?' :: '<' :: rest => named? m rest
  | '?' :: rest => flagged? m rest
  | rest => some (.group m none, rest)

/-! ### Items -/

/-- Whether a character repeats the item before it. -/
def isRepetition (c : Char) : Bool :=
  c == '?' || c == '*' || c == '+'

/-- An item that is an atom or a set: its height, and the rest. -/
def plain? (m : Mode) : List Char → Option (Nat × List Char)
  | '[' :: rest => set? m rest
  | cs =>
    match atom? m cs with
    | some (a, rest) => if a.isMeaningful m then some (0, rest) else none
    | none => none

/-- Reads the items of a group that stands inside of the groups `outer`, in at most `room` steps:
    the outermost group. `names` are those of the groups so far. -/
def itemsFrom : (room : Nat) → (names : List (List Char)) → Group → (outer : List Group) →
    List Char → Option Group
  | 0, _, _, _, _ => none
  | room + 1, names, g, outer, cs =>
    match skip g.mode cs with
    | [] => if outer.isEmpty then some g else none
    | c :: rest =>
      if c = '(' then
        match opening? g.mode rest with
        | some (.change m, rest) => itemsFrom room names (g.change m) outer rest
        | some (.group m none, rest) => itemsFrom room names (.start m) (g :: outer) rest
        | some (.group m (some name), rest) =>
          if names.contains name then none
          else itemsFrom room (name :: names) (.start m) (g :: outer) rest
        | none => none
      else if c = ')' then
        match outer with
        | [] => none
        | o :: outer => itemsFrom room names (o.add g.height) outer rest
      else if c = '|' then itemsFrom room names g.next outer rest
      else if isRepetition c then
        match g.repeatLast with
        | some g =>
          -- a question mark behind a repetition belongs to it
          itemsFrom room names g outer (if rest.head? = some '?' then rest.drop 1 else rest)
        | none => none
      -- a counted repetition has no end here, because its brace would end the pattern
      else if c = '\x7b' then none
      else
        match plain? g.mode (c :: rest) with
        | some (height, rest) => itemsFrom room names (g.add height) outer rest
        | none => none

/-- The greatest height of a pattern. -/
def maxHeight : Nat := 250

/-- Whether a text without closing braces behind opening ones is a pattern. -/
def isPattern (cs : List Char) : Bool :=
  match itemsFrom (cs.length + 1) [] (.start .initial) [] cs with
  | some g => decide (g.inner ≤ maxHeight)
  | none => false

end EventReporter.Pattern
