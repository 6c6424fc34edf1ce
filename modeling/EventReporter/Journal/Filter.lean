import EventReporter.Journal
import EventReporter.Pattern
import EventReporter.Text.Cut
namespace EventReporter

/-!
# Filters for diagnostics

A filter is a list of directives, separated by commas. A directive gives a level, for everything
or for the parts whose name starts as it says, and it may ask for entries with a certain field, or
for spans with a certain name or field. Its shape is read off the text between its blanks, but its
names are cut out of the text itself, at the same bytes: blanks in front move all names.

Of the directives that concern an entry the most specific decides; where two are about the same
entries, the later one holds.

* `Text.slice?` : a part of a text by its bytes, which may not split a character.
* `Journal.Directive.read` : reads a directive, character by character, by `Journal.Reading.step`.
* `Journal.directives?` : the directives that hold for the text of a filter.
* `Journal.shows` : whether they show an entry.
-/

/-! ### Parts of a text by byte -/

namespace Text

/-- The characters behind the first `n` bytes. -/
def dropBytes? : (n : Nat) → List Char → Option (List Char)
  | 0, cs => some cs
  | _ + 1, [] => none
  | n + 1, c :: rest =>
    if c.utf8Size ≤ n + 1 then dropBytes? (n + 1 - c.utf8Size) rest else none

/-- The characters in the first `n` bytes. -/
def takeBytes? : (n : Nat) → List Char → Option (List Char)
  | 0, _ => some []
  | _ + 1, [] => none
  | n + 1, c :: rest =>
    if c.utf8Size ≤ n + 1 then (takeBytes? (n + 1 - c.utf8Size) rest).map (c :: ·) else none

/-- The part from byte `start` to byte `stop`. -/
def slice? (cs : List Char) (start stop : Nat) : Option (List Char) :=
  (dropBytes? start cs).bind (takeBytes? (stop - start))

end Text

/-! ### Directives -/

namespace Journal

/-- How much is shown: entries with at most this verbosity. -/
abbrev Cap := Nat

/-- A directive. -/
structure Directive where
  /-- What the names of the parts that it concerns start with. -/
  target : Option String
  /-- The field that an entry has to have. -/
  field : Option String
  /-- How much is shown of them. -/
  cap : Cap
  /-- Whether it concerns entries at all, rather than the spans around them. -/
  static : Bool
deriving DecidableEq, Repr

/-- Why a text is no filter. -/
inductive FilterError where
  /-- A directive makes no sense. -/
  | malformed
  /-- A name would start or end inside of a character. -/
  | splitCharacter
deriving DecidableEq, Repr

/-! ### Levels -/

/-- A level by its number, from 0 for nothing to 5 for everything. -/
def capOfNumber? (cs : List Char) : Option Cap :=
  let ds := match cs with
    | '+' :: rest => rest
    | _ => cs
  if ds.isEmpty ∨ ¬ ds.all Char.isDigit then none
  else
    let n := ds.foldl (fun n c => 10 * n + (c.toNat - 48)) 0
    if n ≤ 5 then some n else none

/-- A level by its name, in letters of either case. No name at all is the most serious level. -/
def capOfName? (cs : List Char) : Option Cap :=
  [("", 1), ("error", 1), ("warn", 2), ("info", 3), ("debug", 4), ("trace", 5), ("off", 0)].lookup
    (String.ofList (cs.map Char.toLower))

/-- A level. -/
def cap? (cs : List Char) : Option Cap :=
  (capOfNumber? cs).or (capOfName? cs)

/-- Everything. -/
def fullCap : Cap := 5

/-- A level after an equals sign, where nothing means everything. -/
def capOr? (cs : List Char) : Option Cap :=
  if cs = [] then some fullCap else cap? cs

/-! ### Values of fields -/

/-- The exponent of a number, which may be missing. -/
def isExponent : List Char → Bool
  | [] => true
  | c :: rest =>
    let ds := match rest with
      | '+' :: ds | '-' :: ds => ds
      | _ => rest
    (c == 'e' || c == 'E') && ! ds.isEmpty && ds.all Char.isDigit

/-- A decimal number without a sign, with a digit on one side of its point at least. -/
def isDecimal (cs : List Char) : Bool :=
  let whole := cs.takeWhile Char.isDigit
  match cs.drop whole.length with
  | '.' :: rest =>
    let places := rest.takeWhile Char.isDigit
    ! (whole ++ places).isEmpty && isExponent (rest.drop places.length)
  | rest => ! whole.isEmpty && isExponent rest

/-- A number, as a value is compared with it. -/
def isNumber (cs : List Char) : Bool :=
  let body := match cs with
    | '+' :: rest | '-' :: rest => rest
    | _ => cs
  ["inf", "infinity", "nan"].contains (String.ofList (body.map Char.toLower)) || isDecimal body

/-- A value that a field may be asked for: a number or a pattern. -/
def isValue (cs : List Char) : Bool :=
  isNumber cs || Pattern.isPattern cs

/-- A field and its value, if there is one: the name, and whether a value is asked for. -/
def field? (cs : List Char) : Option (String × Bool) :=
  let name := cs.takeWhile (· ≠ '=')
  if cs = [] then none
  else
    match cs.drop name.length with
    | [] => some (String.ofList name, false)
    | _ :: rest =>
      -- a second equals sign ends the value
      if isValue (rest.takeWhile (· ≠ '=')) then some (String.ofList name, true) else none

/-! ### Reading -/

/-- What is being read of a directive, and the byte at which it starts. -/
inductive Stage where
  /-- Nothing yet. -/
  | start
  /-- A target, or a level alone. -/
  | word
  /-- The name of a span. -/
  | span (start : Nat)
  /-- A field. -/
  | field (start : Nat)
  /-- The end of a span whose field is complete. -/
  | braced
  /-- What follows a span. -/
  | closed
  /-- A level. -/
  | level (start : Nat)
deriving DecidableEq, Repr

/-- A directive that is being read. -/
structure Reading where
  /-- What comes next. -/
  stage : Stage
  /-- The target. -/
  target : Option String
  /-- Whether a span is named. -/
  named : Bool
  /-- The field, and whether a value is asked for. -/
  field : Option (String × Bool)
deriving DecidableEq, Repr

namespace Reading

/-- The start of a directive. -/
def initial : Reading := ⟨.start, none, false, none⟩

/-- The part of a text between two bytes. -/
def part (text : List Char) (start stop : Nat) : Except FilterError (List Char) :=
  match Text.slice? text start stop with
  | some cs => .ok cs
  | none => .error .splitCharacter

/-- A value that has to be there. -/
def require {α : Type} : Option α → Except FilterError α
  | some x => .ok x
  | none => .error .malformed

/-- A character that a directive may start with, other than a bracket. -/
def isStart (c : Char) : Bool :=
  Text.isAlphanumeric c || c == '-' || c == ':' || c == '_'

/-- Goes past the character `c` at byte `i`, with the names in `text`. -/
def step (text : List Char) (r : Reading) (i : Nat) (c : Char) : Except FilterError Reading :=
  match r.stage with
  | .start =>
    if c = '[' then .ok { r with stage := .span (i + 1) }
    else if isStart c then .ok { r with stage := .word }
    else .error .malformed
  | .word =>
    if c = '=' ∨ c = '[' then do
      let target := some (String.ofList (← part text 0 i))
      pure { r with target, stage := if c = '=' then .level (i + 1) else .span (i + 1) }
    else .ok r
  | .span start =>
    if c = ']' then do
      let _ ← part text start i
      pure { r with named := true, stage := .closed }
    else if c = '\x7b' then do
      pure { r with named := (← part text start i) ≠ [], stage := .field (i + 1) }
    else .ok r
  | .field start =>
    if c = '\x7d' then do
      let field ← require (field? (← part text start i))
      pure { r with field := some field, stage := .braced }
    else .ok r
  | .braced => if c = ']' then .ok { r with stage := .closed } else .error .malformed
  | .closed => if c = '=' then .ok { r with stage := .level (i + 1) } else .error .malformed
  | .level _ => .ok r

/-- The directive with a level. Those that name a span or ask for a value are about spans only. -/
def directive (r : Reading) (cap : Cap) : Directive :=
  ⟨r.target, r.field.map (·.1), cap, ! r.named && r.field.all fun f => ! f.2⟩

/-- The directive at the end of its text. -/
def finish (text : List Char) (r : Reading) : Except FilterError Directive :=
  match r.stage with
  | .word =>
    match cap? text with
    | some cap => .ok (r.directive cap)
    | none => .ok ({ r with target := some (String.ofList text) }.directive fullCap)
  | .closed => .ok (r.directive fullCap)
  | .level start => do
    let cap ← require (capOr? (← part text start (Text.byteCount text)))
    pure (r.directive cap)
  | _ => .error .malformed

/-- Goes past some characters, the first of them at byte `i`. -/
def run (text : List Char) (r : Reading) (i : Nat) : List Char → Except FilterError Reading
  | [] => .ok r
  | c :: rest => do
    let r ← r.step text i c
    run text r (i + c.utf8Size) rest

end Reading

namespace Directive

/-- Reads a directive. -/
def read (text : List Char) : Except FilterError Directive := do
  let r ← Reading.initial.run text 0 (Text.trim text)
  r.finish text

end Directive

end Journal

/-! ### Filters -/

namespace Journal

/-! ### Reading -/

/-- The directives of a filter, or the first thing that is wrong with it. -/
def readFilter (text : String) : Except FilterError (List Directive) :=
  ((text.toList.splitOn ',').filter (· ≠ [])).mapM Directive.read

/-- What holds in place of a filter that makes no sense: warnings and errors. -/
def fallback : List Directive :=
  [⟨none, none, Level.warn.verbosity, true⟩]

/-- The directives that hold for the text of a filter. There are none to hold, not even others in
    their place, for a text that would split a character. -/
def directives? (text : String) : Option (List Directive) :=
  match readFilter text with
  | .ok ds => some ds
  | .error .malformed => some fallback
  | .error .splitCharacter => none

/-! ### Deciding -/

namespace Directive

/-- Whether a directive concerns an entry. -/
def concerns (d : Directive) (e : Entry) : Bool :=
  d.static && (d.target.all fun t => t.toList.isPrefixOf e.target.toList) &&
    d.field.all fun f => f == "message" || e.fields.any (·.1 == f)

/-- How specific the target of a directive is: none at all least, then by length. -/
def reach (d : Directive) : Nat :=
  (d.target.map fun t => t.utf8ByteSize + 1).getD 0

/-- Whether a text comes before another one, by code points, or is the same. -/
def notAfter : List Char → List Char → Bool
  | [], _ => true
  | _ :: _, [] => false
  | a :: as, b :: bs => if a = b then notAfter as bs else decide (a.toNat < b.toNat)

/-- Whether a directive decides before another one that comes earlier in the filter and concerns
    the same entry: a longer target counts first, then a field; of two fields the one that comes
    later among texts. -/
def outranks (d e : Directive) : Bool :=
  if d.reach = e.reach then
    match d.field, e.field with
    | some f, some g => notAfter g.toList f.toList
    | none, some _ => false
    | _, none => true
  else decide (e.reach < d.reach)

end Directive

/-- The directive that decides about an entry. -/
def deciding? (ds : List Directive) (e : Entry) : Option Directive :=
  (ds.filter (·.concerns e)).foldl
    (fun best d =>
      match best with
      | none => some d
      | some b => if d.outranks b then some d else some b) none

/-- Whether an entry is shown. -/
def shows (ds : List Directive) (e : Entry) : Bool :=
  match deciding? ds e with
  | some d => e.level.verbosity ≤ d.cap
  | none => false

end Journal

end EventReporter
