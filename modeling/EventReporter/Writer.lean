import EventReporter.Draft
import EventReporter.Limiter
import EventReporter.Transport
namespace EventReporter

/-!
# Writing events

A write checks its domain against the masked ones, asks the limiter, checks the two names, lays
out the record and sends it. The answer is a status code; `tryWrite` keeps the reason of a
failure. What a write reads off the machine comes with it as `Surroundings`; one writer for a
whole process is not modelled.

* `tryWrite_of_masked` : a write for a masked domain touches nothing.
-/

/-- Why an event was not sent. -/
inductive WriteError where
  /-- The domain is masked. -/
  | masked (domain : String)
  /-- The call site writes too often. -/
  | tooFrequent (domain name : String)
  /-- The domain is no name. -/
  | badDomain (domain : String)
  /-- The event name is no name. -/
  | badName (name : String)
  /-- No event type has this number. -/
  | badType (code : Int)
  /-- The record could not be laid out. -/
  | unencodable (cause : WireError)
  /-- The record could not be sent. -/
  | unsent (cause : SendError)
deriving DecidableEq, Repr

namespace WriteError

/-- The wording of an error. -/
def message : WriteError → String
  | masked domain => s!"domain '{domain}' is masked"
  | tooFrequent domain name => s!"write frequency too high for {domain}/{name}"
  | badDomain domain => s!"invalid domain '{domain}'"
  | badName name => s!"invalid event name '{name}'"
  | badType code => s!"invalid event type {code}"
  | unencodable cause => s!"failed to encode record: {cause.message}"
  | unsent cause => cause.message

/-- The status code of an error. -/
def code : WriteError → Int
  | masked _ => Status.domainMasked
  | tooFrequent .. => Status.tooFrequent
  | badDomain _ => Status.domainInvalid
  | badName _ => Status.nameInvalid
  | badType _ => Status.typeInvalid
  | unencodable cause => if cause.isOverflow then Status.overSize else Status.unencodable
  | unsent cause => cause.code

/-- Whether the event was dropped because somebody asked for that. -/
def isExpected : WriteError → Bool
  | masked _ | tooFrequent .. => true
  | _ => false

end WriteError

/-- What surrounds a write: the clock, the writer's identity, and the trace in force. -/
structure Surroundings where
  /-- The time at which the limiter is asked, in milliseconds since the epoch. -/
  now : UInt64
  /-- The time in the record, in milliseconds since the epoch. -/
  timestamp : UInt64
  /-- The offset from UTC, `+HHMM` or `-HHMM`. -/
  timeZone : String
  /-- The user. -/
  uid : UInt32
  /-- The process. -/
  pid : UInt32
  /-- The thread. -/
  tid : UInt32
  /-- The trace in force. -/
  trace : Option Trace

/-- An event that is to be written. -/
structure Event where
  /-- The domain. -/
  domain : String
  /-- The name. -/
  name : String
  /-- The category. -/
  type : EventType
  /-- The parameters, in order. -/
  params : List Param

/-- The writer of a program's events. -/
structure Writer where
  /-- The limiter. -/
  limiter : Limiter
  /-- The sender. -/
  transport : Transport (List UInt8)
  /-- The masked domains. -/
  masked : List String

namespace Writer

variable {σ : Type}

/-- Whether events of a domain are dropped. -/
def isMasked (w : Writer) (domain : String) : Bool :=
  w.masked.contains domain

/-- An empty record for an event, with its surroundings. -/
def blank (s : Surroundings) (e : Event) (limit : Nat) : Record.Builder :=
  let b := Record.Builder.new e.domain e.name e.type limit
  let header := { b.header with
    timestamp := s.timestamp
    timeZone := UInt8.ofNat (TimeZone.index s.timeZone)
    uid := s.uid
    pid := s.pid
    tid := s.tid }
  match s.trace with
  | some t => { b with header }.setTrace t
  | none => { b with header }

/-- What is said about an event that was sent. -/
def sentEntry (e : Event) (size params : Nat) : Journal.Entry where
  level := .debug
  target := Journal.source "writer"
  message := "event sent"
  fields :=
    [("domain", .text e.domain), ("event", .text e.name), ("size", .number size),
      ("params", .number params)]

/-- Lays out an admitted event and sends it. -/
def deliver (net : Network σ) (w : Writer) (s : Surroundings) (e : Event) :
    Action σ (Writer × Except WriteError Int) := do
  let draft := (Draft.new (blank s e w.transport.maxSize)).addAll e.params
  -- what was left out is said even if the record cannot be laid out
  draft.notes.forM note
  match draft.builder.build with
  | .error cause => pure (w, .error (.unencodable cause))
  | .ok record =>
    let sending ← w.transport.send net id record
    let w := { w with transport := sending.transport }
    match sending.result with
    | .error cause => pure (w, .error (.unsent cause))
    | .ok () =>
      note (sentEntry e record.length draft.builder.entries.length)
      pure (w, .ok draft.code)

/-- Writes an event: success or the first warning, or the reason why it was not sent. -/
def tryWrite (net : Network σ) (w : Writer) (s : Surroundings) (quota : Option Quota)
    (site : CallSite) (e : Event) : Action σ (Writer × Except WriteError Int) :=
  if w.isMasked e.domain then pure (w, .error (.masked e.domain))
  else do
    let (limiter, admission) ← w.limiter.ask quota e.domain e.name site s.now
    let w := { w with limiter }
    -- the limiter counts a write before its names are looked at
    if admission = .suppressed then pure (w, .error (.tooFrequent e.domain e.name))
    else if ¬ Text.isName Limits.domainBytes e.domain then pure (w, .error (.badDomain e.domain))
    else if ¬ Text.isName Limits.eventNameBytes e.name then pure (w, .error (.badName e.name))
    else deliver net w s e

/-- What is said about the outcome of a write. -/
def outcomeEntry? (e : Event) : Except WriteError Int → Option Journal.Entry
  | .ok code =>
    if Status.isWarning code then
      some ⟨.warn, Journal.source "writer", "event written with degraded parameters",
        [("domain", .text e.domain), ("event", .text e.name), ("code", .number code),
          ("reason", .quoted (Status.explain code))]⟩
    else none
  | .error err =>
    let fields :=
      [("domain", .text e.domain), ("event", .text e.name), ("code", .number err.code)]
    if err.isExpected then
      some ⟨.debug, Journal.source "writer", s!"event dropped: {err.message}", fields⟩
    else some ⟨.error, Journal.source "writer", s!"event write failed: {err.message}", fields⟩

/-- The status code of an outcome. -/
def outcomeCode : Except WriteError Int → Int
  | .ok code => code
  | .error err => err.code

/-- Writes an event: its status code. -/
def write (net : Network σ) (w : Writer) (s : Surroundings) (quota : Option Quota)
    (site : CallSite) (e : Event) : Action σ (Writer × Int) := do
  let (w, outcome) ← tryWrite net w s quota site e
  match outcomeEntry? e outcome with
  | some entry => note entry
  | none => pure ()
  pure (w, outcomeCode outcome)

/-- An event of a masked domain is stopped by `tryWrite` before anything else is done: the writer
    and the scene stay as they are. -/
theorem tryWrite_of_masked (net : Network σ) {w : Writer} (s : Surroundings)
    (quota : Option Quota) (site : CallSite) {e : Event} (h : w.isMasked e.domain) :
    tryWrite net w s quota site e = pure (w, .error (.masked e.domain)) := by
  simp [tryWrite, h]

end Writer

end EventReporter
