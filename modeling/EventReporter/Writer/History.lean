import EventReporter.Ambient
import EventReporter.Limiter.History
import EventReporter.Settings
import EventReporter.Transport.History
namespace EventReporter

/-!
# Histories of a writer

The events that a writer is asked to write, one after the other, and the states that it can be in
after whatever was done to it and its parts.

* `Writer.serveAll_append` : histories that go on.
-/

/-- An event to be written, with all that bears on it. -/
structure Request where
  /-- What surrounds the write. -/
  surroundings : Surroundings
  /-- The ambient trace at that time. -/
  ambient : Ambient
  /-- It is the trace in force. -/
  inForce : surroundings.trace = ambient.current?
  /-- A quota of its own. -/
  quota : Option Quota
  /-- Where it is written. -/
  site : CallSite
  /-- The event. -/
  event : Event

namespace Request

/-- The record of an event, under construction, with all of its parameters. -/
def draft (q : Request) (maxSize : Nat) : Draft :=
  (Draft.new (Writer.blank q.surroundings q.event maxSize)).addAll q.event.params

/-- The record of an event. -/
def record (q : Request) (maxSize : Nat) : Except WireError (List UInt8) :=
  (q.draft maxSize).builder.build

/-- The route of an event. -/
def route (q : Request) : Route :=
  .ofEvent q.event.domain q.event.name q.event.type

end Request

namespace Writer

variable {σ : Type}

/-- Writes the event of a request: its status code. -/
def serve (net : Network σ) (w : Writer) (q : Request) : Action σ (Writer × Int) :=
  w.write net q.surroundings q.quota q.site q.event

/-- The limiter after a request, and its verdict. -/
def verdict (w : Writer) (q : Request) : Limiter × Admission :=
  w.limiter.check q.quota q.event.name q.site q.surroundings.now

/-- The event of a request gets as far as its record: its domain is not masked, the limiter admits
    it, and both of its names are names. -/
structure Admits (w : Writer) (q : Request) : Prop where
  unmasked : w.isMasked q.event.domain = false
  admitted : (w.verdict q).2 = .admitted
  domain : Text.isName Limits.domainBytes q.event.domain = true
  name : Text.isName Limits.eventNameBytes q.event.name = true

/-- A request that was served. -/
structure Turn where
  /-- The request. -/
  request : Request
  /-- The writer that served it, as it was before. -/
  before : Writer
  /-- The status code. -/
  code : Int

/-- Serves requests in order. -/
def serveAll (net : Network σ) (w : Writer) : List Request → Action σ (Writer × List Turn)
  | [] => pure (w, [])
  | q :: qs => do
    let (next, code) ← w.serve net q
    let (last, turns) ← serveAll net next qs
    pure (last, ⟨q, w, code⟩ :: turns)

/-- The states of a writer with some settings, after whatever was done to it: it may have been
    asked to write events, and its limiter, its sender and its outbox may have been used by
    others. -/
inductive Reachable (settings : Settings) : Writer → Prop where
  /-- Nothing was done. -/
  | new : Reachable settings settings.writer
  /-- It was asked to write an event. -/
  | serve {σ : Type} {w : Writer} (h : Reachable settings w) (net : Network σ) (q : Request)
    (s : Scene σ) : Reachable settings ((w.serve net q).run s).1.1
  /-- Its limiter was asked about a write, or cleared. -/
  | limiter {w : Writer} (h : Reachable settings w) (op : Limiter.Op) :
    Reachable settings { w with limiter := w.limiter.apply op }
  /-- Its sender was handed a record. -/
  | send {σ : Type} {w : Writer} (h : Reachable settings w) (net : Network σ)
    (record : List UInt8) (s : Scene σ) :
    Reachable settings
      { w with transport := ((w.transport.send net id record).run s).1.transport }
  /-- A record joined its outbox. -/
  | push {w : Writer} (h : Reachable settings w) (record : List UInt8) :
    Reachable settings
      { w with transport := { w.transport with outbox := (w.transport.outbox.push record).1 } }
  /-- A record was taken from its outbox. -/
  | pop {w : Writer} (h : Reachable settings w) {record : List UInt8}
    {outbox : Outbox (List UInt8)} (hpop : w.transport.outbox.pop? = some (record, outbox)) :
    Reachable settings { w with transport := { w.transport with outbox } }
  /-- A record was put back into its outbox. -/
  | putBack {w : Writer} (h : Reachable settings w) (record : List UInt8) :
    Reachable settings
      { w with transport := { w.transport with outbox := (w.transport.outbox.putBack record).1 } }

/-- What became of the first requests does not depend on those that follow. -/
theorem serveAll_append (net : Network σ) (w : Writer) (qs rs : List Request) :
    serveAll net w (qs ++ rs) = (do
      let (next, turns) ← serveAll net w qs
      let (last, turns') ← serveAll net next rs
      pure (last, turns ++ turns')) := by
  induction qs generalizing w with
  | nil => simp [serveAll]
  | cons q qs ih => simp [serveAll, ih]

end Writer

end EventReporter
