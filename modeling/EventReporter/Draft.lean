import EventReporter.Journal
import EventReporter.Record.Builder
import EventReporter.Status
import EventReporter.Text
namespace EventReporter

/-!
# Drafts

A draft is a record under construction that takes parameters of any kind: it drops those that
cannot go into a record, shortens those that are too long, and remembers the first thing that
was lost.

* `addAll_append` : parameters are taken one after the other.
-/

/-- A record under construction, and what it has lost. -/
structure Draft where
  /-- The record. -/
  builder : Record.Builder
  /-- Success, or the first warning. -/
  code : Int
  /-- What was said on the way, oldest first. -/
  notes : Array Journal.Entry

namespace Draft

/-- A draft that has lost nothing. -/
def new (b : Record.Builder) : Draft :=
  ⟨b, Status.success, #[]⟩

/-- An entry about a parameter. -/
def entry (message : String) (fields : List (String × Journal.Field)) : Journal.Entry where
  level := .debug
  target := Journal.source "writer"
  message := message
  fields := fields

/-- Records a loss. -/
def warn (d : Draft) (code : Int) (e : Journal.Entry) : Draft :=
  { d with code := Status.fold d.code code, notes := d.notes.push e }

/-- Records a loss if there was one. -/
def warnIf (d : Draft) (lost : Bool) (code : Int) (e : Journal.Entry) : Draft :=
  if lost then d.warn code e else d

/-- The value that stands for an array without elements, whatever their type. -/
def emptyArray : Value := .array .bool []

/-- Adds a value under a key that is a name and for which there is room. -/
def addValue (d : Draft) (key : String) (value : Value) : Draft :=
  let (value, stringsCut) := value.cutStrings Limits.stringBytes
  let d := d.warnIf stringsCut Status.stringTooLong
    (entry "string value truncated" [("key", .text key), ("max", .number Limits.stringBytes)])
  let (value, arrayCut) := value.cutArray Limits.elements
  let d := d.warnIf arrayCut Status.arrayTooLong
    (entry "array truncated" [("key", .text key), ("max", .number Limits.elements)])
  let value := if value.arraySize? = some 0 then emptyArray else value
  match d.builder.add ⟨key, value⟩ with
  | .ok builder => { d with builder }
  | .error e =>
    d.warn Status.paramUnencodable
      (entry "parameter could not be encoded, dropped" [("error", .text e.message)])

/-- Adds a parameter. -/
def add (d : Draft) (p : Param) : Draft :=
  if ¬ Text.isName Limits.keyBytes p.key then
    d.warn Status.keyInvalid (entry "invalid parameter key, dropped" [("key", .text p.key)])
  else if Limits.params ≤ d.builder.entries.length ∧ (d.builder.get? p.key).isNone then
    d.warn Status.tooManyParams
      (entry "too many parameters, dropped" [("key", .text p.key), ("max", .number Limits.params)])
  else d.addValue p.key p.value

/-- Adds parameters in order. -/
def addAll (d : Draft) (ps : List Param) : Draft :=
  ps.foldl add d

/-- A list of parameters that goes on is added to what `addAll` has made of its first part. -/
theorem addAll_append (d : Draft) (ps qs : List Param) :
    d.addAll (ps ++ qs) = (d.addAll ps).addAll qs := by
  simp [addAll]

end Draft

end EventReporter
