import EventReporter.Journal
import EventReporter.Record
namespace EventReporter

/-!
# Routes

Most events go to the normal socket. Those that report hangs, blocks and faults of a few domains
go to the socket that the collector serves first.

* `Route.ofEvent` : the route of an event, by the table of urgent domains.
* `Route.ofRecord` : the same, read off the bytes of a record.
-/

/-- The socket that an event goes to. -/
inductive Route where
  /-- The socket for the bulk of events. -/
  | normal
  /-- The socket that is served first. -/
  | urgent
deriving DecidableEq, Repr

/-- Which events of a domain are urgent. -/
inductive Urgency where
  /-- Those with a listed name. -/
  | events (names : List String)
  /-- All faults. -/
  | faults
deriving DecidableEq, Repr

namespace Urgency

/-- Whether an event is urgent by this rule. -/
def covers : Urgency → String → EventType → Bool
  | events names, name, _ => names.contains name
  | faults, _, type => type == .fault

/-- The rules of the domains that have urgent events. -/
def table : List (String × Urgency) :=
  [("AAFWK", .events
      ["APP_INPUT_BLOCK", "BUSSINESS_THREAD_BLOCK_3S", "BUSSINESS_THREAD_BLOCK_6S",
        "LIFECYCLE_HALF_TIMEOUT", "LIFECYCLE_TIMEOUT", "THREAD_BLOCK_3S", "THREAD_BLOCK_6S"]),
    ("ACE", .events ["UI_BLOCK_3S", "UI_BLOCK_6S", "UI_BLOCK_RECOVERED"]),
    ("FRAMEWORK", .events
      ["IPC_FULL", "IPC_FULL_WARNING", "SERVICE_BLOCK", "SERVICE_TIMEOUT", "SERVICE_WARNING"]),
    ("RELIABILITY", .faults),
    ("GRAPHIC", .events ["NO_DRAW"]),
    ("MULTIMODALINPUT", .events ["TARGET_POINTER_EVENT_FAILURE"]),
    ("POWER", .events ["SCREEN_ON_TIMEOUT"]),
    ("WINDOWMANAGER", .events ["NO_FOCUS_WINDOW"]),
    ("SCHEDULE_EXT", .events ["SYSTEM_LOAD_LEVEL_CHANGED"])]

end Urgency

namespace Route

/-- The route of an event. -/
def ofEvent (domain name : String) (type : EventType) : Route :=
  match Urgency.table.lookup domain with
  | some rule => if rule.covers name type then urgent else normal
  | none => normal

/-- The route of a record, by its header. A record without a readable header counts as normal. -/
def ofRecord (record : List UInt8) : Except WireError Route := do
  let h ← Record.peekHeader record
  pure (ofEvent h.domain h.name h.type)

/-- What is said about a record without a readable header. -/
def unreadableEntry (e : WireError) (size : Nat) : Journal.Entry where
  level := .warn
  target := Journal.source "router"
  message := "record header unreadable, routing to normal socket"
  fields := [("error", .text e.message), ("len", .number size)]

/-- The route that a record takes. -/
def choose {σ : Type} (record : List UInt8) : Action σ Route :=
  match ofRecord record with
  | .ok route => pure route
  | .error e => do
    note (unreadableEntry e record.length)
    pure normal

end Route

end EventReporter
