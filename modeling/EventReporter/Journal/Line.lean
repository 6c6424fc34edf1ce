import EventReporter.Journal.Filter
import EventReporter.Settings
namespace EventReporter.Journal

/-!
# Diagnostics as lines

The two ways to write an entry, and the two places to write it to. Only the first of several
attempts to set up diagnostics takes effect.

* `Sink.setUp` : the first set-up is the one that counts.
* `Sink.lines` : what is written to a place, which is nothing if another one was set up.
-/

/-- A text with control characters that terminals act on written out. -/
def escapeControl (cs : List Char) : List Char :=
  cs.flatMap fun c =>
    if c = '\x1b' then ['\\', 'x', '1', 'b']
    else if c = '\x07' then ['\\', 'x', '0', '7']
    else if c = '\x08' then ['\\', 'x', '0', '8']
    else if c = '\x0c' then ['\\', 'x', '0', 'c']
    else if c = '\x7f' then ['\\', 'x', '7', 'f']
    else if '\x80' ≤ c ∧ c ≤ '\u009f' then
      ['\\', 'u', '\x7b'] ++ Nat.toDigits 16 c.toNat ++ ['\x7d']
    else [c]

/-- A field as text. -/
def Field.show : Field → String
  | .quoted s => "\"" ++ s ++ "\""
  | f => f.render

/-- An entry as a line: its level, padded to five characters, the part that speaks, the message
    and the fields. -/
def Entry.console (e : Entry) : String :=
  let pad := String.ofList (List.replicate (5 - e.level.name.length) ' ')
  let message := String.ofList (escapeControl e.message.toList)
  let fields := e.fields.map fun (name, f) => " " ++ name ++ "=" ++ f.show
  pad ++ e.level.name ++ " " ++ e.target ++ ": " ++ message ++ String.join fields

/-- An entry as an object: what it says, its level and the part that speaks. -/
structure Object where
  /-- The message and the fields. -/
  fields : List (String × Field)
  /-- The level. -/
  level : String
  /-- The part that speaks. -/
  target : String
deriving DecidableEq, Repr

/-- An entry as an object. -/
def Entry.object (e : Entry) : Object :=
  ⟨("message", .text e.message) :: e.fields, e.level.name, e.target⟩

/-- A written entry. -/
inductive Line where
  | text (s : String)
  | object (o : Object)
deriving DecidableEq, Repr

/-- An entry in a format. As text it may take several lines, because a line feed stays as it is. -/
def Entry.lines (format : LogFormat) (e : Entry) : List Line :=
  match format with
  | .console => (e.console.toList.splitOn '\n').map fun cs => .text (String.ofList cs)
  | .json => [.object e.object]

/-! ### Where they go -/

/-- A way for entries to leave: what is shown of them, how it is written, and where. -/
structure Sink where
  /-- What is shown. -/
  filter : List Directive
  /-- How it is written. -/
  format : LogFormat
  /-- Where it is written. -/
  output : LogOutput
deriving DecidableEq, Repr

namespace Sink

/-- The way that some settings lay down, unless their filter splits a character. -/
def ofSettings? (s : LogSettings) : Option Sink :=
  (directives? s.directives).map fun filter => ⟨filter, s.format, s.output⟩

/-- The lines that some entries leave at an output. -/
def lines (k : Sink) (entries : List Entry) (output : LogOutput) : List Line :=
  if k.output = output then (entries.filter (shows k.filter)).flatMap (Entry.lines k.format)
  else []

/-- Sets a way up, unless there is one: whether it was set up now, and the one that holds. -/
def setUp (current : Option Sink) (s : LogSettings) : Option (Bool × Sink) :=
  (ofSettings? s).map fun k => (current.isNone, current.getD k)

end Sink

end EventReporter.Journal
