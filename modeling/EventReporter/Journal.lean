namespace EventReporter

/-!
# Diagnostics

What the library has to say about its own work: entries with a level, the part that speaks, a
message and named fields. The outside of the library, together with the entries so far, is the
scene in which actions take place.

* `run_bind` : actions that follow one another pass on the scene.
-/

/-- How serious a diagnostic entry is. -/
inductive Level where
  | trace
  | debug
  | info
  | warn
  | error
deriving DecidableEq, Repr

namespace Level

/-- The name of a level. -/
def name : Level → String
  | trace => "TRACE"
  | debug => "DEBUG"
  | info => "INFO"
  | warn => "WARN"
  | error => "ERROR"

/-- The number of a level, from 1 for the most serious to 5. -/
def verbosity : Level → Nat
  | error => 1
  | warn => 2
  | info => 3
  | debug => 4
  | trace => 5

end Level

namespace Journal

/-- The value of a field. -/
inductive Field where
  /-- A number. -/
  | number (i : Int)
  /-- A text that is shown as it is. -/
  | text (s : String)
  /-- A text that is shown between quotes. -/
  | quoted (s : String)
deriving DecidableEq, Repr

/-- The text of a field's value. -/
def Field.render : Field → String
  | number i => toString i
  | text s | quoted s => s

/-- The full name of a part of the library in diagnostics. -/
def source (part : String) : String :=
  "sysevent_client::" ++ part

/-- A diagnostic entry. -/
structure Entry where
  /-- How serious it is. -/
  level : Level
  /-- The full name of the part that speaks. -/
  target : String
  /-- What it says. -/
  message : String
  /-- Named details, in order. -/
  fields : List (String × Field)
deriving DecidableEq, Repr

end Journal

/-- The outside world in state `world`, and what has been said so far. -/
structure Scene (σ : Type) where
  /-- The state of the outside. -/
  world : σ
  /-- The entries so far, oldest first. -/
  journal : Array Journal.Entry

/-- Something that happens in a scene. -/
abbrev Action (σ α : Type) := StateM (Scene σ) α

/-- Says something. -/
def note {σ : Type} (e : Journal.Entry) : Action σ Unit :=
  modify fun s => { s with journal := s.journal.push e }

/-- Deals with the outside. -/
def outside {σ α : Type} (f : σ → α × σ) : Action σ α := fun s =>
  let (x, world) := f s.world
  (x, { s with world })

/-- Actions that follow one another pass on the scene. Proofs take a sequence of actions apart by
    this. -/
theorem run_bind {σ α β : Type} (act : Action σ α) (next : α → Action σ β) (s : Scene σ) :
    (act >>= next).run s = (next (act.run s).1).run (act.run s).2 :=
  rfl

/-- `outside` changes the world and adds no entry. -/
theorem run_outside {σ α : Type} (f : σ → α × σ) (s : Scene σ) :
    (outside f).run s = ((f s.world).1, { s with world := (f s.world).2 }) :=
  rfl

end EventReporter
