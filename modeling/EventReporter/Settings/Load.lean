import EventReporter.Settings
import EventReporter.Toml.Document
namespace EventReporter

/-!
# Settings from a document

Settings are read from a TOML document with a table for each part. What is missing has its usual
value, and keys that mean nothing are passed over. A part may also be given as a list of its
values in order.

* `Settings.ofText` : the settings of a document, checked by `Settings.check`.
* `Settings.ofFile` : the same for a file that may not be readable.
-/

open Toml (Node Entries)

namespace Toml.Node

/-- A truth value. -/
def bool? : Node → Option Bool
  | boolean b => some b
  | _ => none

/-- A natural number of 32 bits. -/
def word? : Node → Option UInt32
  | integer i => if 0 ≤ i ∧ i < UInt32.size then some (UInt32.ofNat i.toNat) else none
  | _ => none

/-- A natural number. -/
def nat? : Node → Option Nat
  | integer i => i.toNat?
  | _ => none

/-- A text. -/
def text? : Node → Option String
  | string s => some s
  | _ => none

/-- A list of texts. -/
def texts? : Node → Option (List String)
  | array items => items.mapM text?
  | _ => none

/-- Whether a value is a list or a table with nothing in it. -/
def isHollow : Node → Bool
  | array items => items.isEmpty
  | table _ entries => entries.isEmpty
  | tables items => items.isEmpty
  | _ => false

/-- One of some choices: its name, or a table with nothing but its name as the key of something
    empty. -/
def choice? {α : Type} (choices : List α) (key : α → String) : Node → Option α
  | string s => choices.find? fun c => key c == s
  | table _ [(k, n)] => if n.isHollow then choices.find? (fun c => key c == k) else none
  | _ => none

/-- The fields of a part: by name in a table, or in order in a list. A date has no fields. -/
def fields? (names : List String) : Node → Option Entries
  | table _ entries => some entries
  | array items => some (names.zip items)
  | tables items => some (names.zip (items.map (table .header)))
  | dateTime => some []
  | _ => none

end Toml.Node

/-- A field of a part, or its usual value if it is missing. -/
def fieldOr {α : Type} (fields : Entries) (name : String) (read : Node → Option α) (usual : α) :
    Option α :=
  match fields.get? name with
  | some n => read n
  | none => some usual

namespace RateSettings

/-- Reads how writes are throttled. -/
def ofNode? (n : Node) : Option RateSettings := do
  let fields ← n.fields? ["enabled", "period", "threshold", "cache_capacity"]
  let usual : RateSettings := {}
  let enabled ← fieldOr fields "enabled" Toml.Node.bool? usual.enabled
  let period ← fieldOr fields "period" Toml.Node.word? usual.period
  let threshold ← fieldOr fields "threshold" Toml.Node.word? usual.threshold
  let capacity ← fieldOr fields "cache_capacity" Toml.Node.nat? usual.capacity
  some { enabled, period, threshold, capacity }

end RateSettings

namespace TransportSettings

/-- Reads where records go. -/
def ofNode? (n : Node) : Option TransportSettings := do
  let fields ← n.fields?
    ["socket_path", "priority_socket_path", "retry_times", "retry_queue_size", "max_data_size"]
  let usual : TransportSettings := {}
  let normalPath ← fieldOr fields "socket_path" Toml.Node.text? usual.normalPath
  let urgentPath ← fieldOr fields "priority_socket_path" Toml.Node.text? usual.urgentPath
  let attempts ← fieldOr fields "retry_times" Toml.Node.word? usual.attempts
  let queueSize ← fieldOr fields "retry_queue_size" Toml.Node.nat? usual.queueSize
  let maxSize ← fieldOr fields "max_data_size" Toml.Node.nat? usual.maxSize
  some { normalPath, urgentPath, attempts, queueSize, maxSize }

end TransportSettings

namespace LogSettings

/-- Reads which diagnostics are written. -/
def ofNode? (n : Node) : Option LogSettings := do
  let fields ← n.fields? ["level", "format", "output", "filter"]
  let usual : LogSettings := {}
  let level ← fieldOr fields "level" (Toml.Node.choice? Level.all Level.key) usual.level
  let format ← fieldOr fields "format" (Toml.Node.choice? LogFormat.all LogFormat.key) usual.format
  let output ← fieldOr fields "output" (Toml.Node.choice? LogOutput.all LogOutput.key) usual.output
  let filter ← fieldOr fields "filter" (fun n => n.text?.map some) usual.filter
  some { level, format, output, filter }

end LogSettings

namespace Settings

/-- Reads all settings from the top table of a document. -/
def ofEntries? (top : Entries) : Option Settings := do
  let usual : Settings := {}
  let maskedDomains ← fieldOr top "masked_domains" Toml.Node.texts? usual.maskedDomains
  let rate ← fieldOr top "rate_limit" RateSettings.ofNode? usual.rate
  let transport ← fieldOr top "transport" TransportSettings.ofNode? usual.transport
  let log ← fieldOr top "log" LogSettings.ofNode? usual.log
  some { maskedDomains, rate, transport, log }

/-- The settings in the text of a document. -/
def ofText (text : String) : Except SettingsError Settings :=
  match (Toml.parse? text.toList).bind ofEntries? with
  | some s => s.check
  | none => .error .unparsable

end Settings

/-! ### Files -/

/-- What there is at a path. -/
inductive FileState where
  /-- Nothing. -/
  | missing
  /-- A directory. -/
  | directory
  /-- A file with these bytes. -/
  | file (bytes : List UInt8)
deriving DecidableEq, Repr

namespace FileState

/-- The longest name of a file, in bytes. -/
def nameBytes : Nat := 255

/-- What is wrong with a path at which there is nothing. -/
def absence (path : String) : Fault :=
  let steps := (path.toList.splitOn '/').map String.ofList
  if steps.any (fun s => nameBytes < s.utf8ByteSize) then .nameTooLong
  else if path ≠ "" ∧ steps.all (fun s => s == "" || s == "." || s == "..") then .isDirectory
  else .notFound

/-- The text of the file at a path, or the reason why there is none. -/
def text (path : String) (state : FileState) : Except String String :=
  if path.toList.contains '\x00' then .error "file name contained an unexpected NUL byte"
  else match state with
    | missing => .error (absence path).message
    | directory => .error Fault.isDirectory.message
    | file bytes =>
      match Text.ofUtf8? bytes with
      | some s => .ok s
      | none => .error "stream did not contain valid UTF-8"

end FileState

/-- The settings in the file at a path. -/
def Settings.ofFile (path : String) (state : FileState) : Except SettingsError Settings :=
  match state.text path with
  | .ok text => ofText text
  | .error reason => .error (.unreadable path reason)

end EventReporter
