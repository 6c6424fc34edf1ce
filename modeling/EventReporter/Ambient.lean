import EventReporter.Trace
namespace EventReporter

/-!
# The ambient trace

Events that are written while a trace is in force belong to it. A trace can be set and cleared,
or put in force for a scope, at whose end the trace from before the scope is in force again. What
a program does to it is a list of operations; scopes are ended in the reverse order of their
opening. The state is that of one thread; other threads share nothing with it.

* `Ambient.enter`, `Ambient.leave` : a scope, which keeps the trace from before it.
* `Ambient.current?_eq_none_iff` : no trace is in force exactly when the stored one has
  identifier 0.
* `Ambient.depth?_append`, `Ambient.Nest.after_append` : programs that go on.
-/

/-! ### Traces and scopes -/

/-- The trace that is in force. -/
structure Ambient where
  /-- The trace, which may be none. -/
  stored : Trace
deriving DecidableEq, Repr

/-- What a scope remembers: the trace from before it. -/
structure Scope where
  /-- That trace. -/
  previous : Trace
deriving DecidableEq, Repr

namespace Ambient

/-- No trace in force. -/
def none : Ambient := ⟨.none⟩

/-- Puts a trace in force. -/
def set (_ : Ambient) (t : Trace) : Ambient := ⟨t⟩

/-- Takes the trace out of force. -/
def clear (a : Ambient) : Ambient := a.set .none

/-- The trace in force. -/
def current? (a : Ambient) : Option Trace :=
  if a.stored.isValid then some a.stored else .none

/-- Puts a trace in force for a scope. -/
def enter (a : Ambient) (t : Trace) : Scope × Ambient :=
  (⟨a.stored⟩, a.set t)

/-- Ends a scope. -/
def leave (a : Ambient) (s : Scope) : Ambient :=
  a.set s.previous

/-- `current?` shows no trace exactly if the stored one has identifier 0, in whatever other fields
    it differs from `Trace.none`. -/
theorem current?_eq_none_iff (a : Ambient) : a.current? = .none ↔ a.stored.id = 0 := by
  simp [current?, Trace.isValid]

end Ambient

/-! ### Programs with scopes -/

namespace Ambient

/-- What a program can do to the ambient trace. -/
inductive Op where
  /-- A trace is put in force. -/
  | set (t : Trace)
  /-- The trace is taken out of force. -/
  | clear
  /-- A scope is opened, and a trace put in force for it. -/
  | enter (t : Trace)
  /-- The scope that was opened last is ended. -/
  | leave
deriving DecidableEq, Repr

/-! ### What a program says -/

/-- How many scopes are open after an operation, if `opened` are before it. There has to be one that
    can be ended. -/
def Op.depth? (opened : Nat) : Op → Option Nat
  | set _ | clear => some opened
  | enter _ => some (opened + 1)
  | leave => if opened = 0 then .none else some (opened - 1)

/-- How many scopes are open after a program, if `opened` are before it and it ends none when none
    is open. -/
def depth? (opened : Nat) (ops : List Op) : Option Nat :=
  ops.foldlM Op.depth? opened

/-- Whether a program ends the scopes that it opens, and no others. -/
def WellNested (ops : List Op) : Prop :=
  depth? 0 ops = some 0

instance (ops : List Op) : Decidable (WellNested ops) :=
  inferInstanceAs (Decidable (depth? 0 ops = some 0))

/-- The trace that was put in force last, looked for among some operations from the last one back.
    What happened in scopes that have ended does not count. There are `ended` of them whose
    beginning is still to come. -/
def lastSet : (ended : Nat) → List Op → Trace
  | _, [] => .none
  | n, .leave :: ops => lastSet (n + 1) ops
  | n + 1, .enter _ :: ops => lastSet n ops
  | n + 1, .set _ :: ops => lastSet (n + 1) ops
  | n + 1, .clear :: ops => lastSet (n + 1) ops
  | 0, .enter t :: _ => t
  | 0, .set t :: _ => t
  | 0, .clear :: _ => .none

/-- The trace that a program leaves in force, read off its text. -/
def inForce (ops : List Op) : Trace :=
  lastSet 0 ops.reverse

/-- The scopes that are open after a program are those with which the rest of it starts. -/
theorem depth?_append (opened : Nat) (ops ops' : List Op) :
    depth? opened (ops ++ ops') = (depth? opened ops).bind (depth? · ops') :=
  List.foldlM_append

/-! ### What a program does -/

/-- The ambient trace, and the open scopes, the one that was opened last first. -/
structure Nest where
  /-- The ambient trace. -/
  ambient : Ambient
  /-- The open scopes. -/
  scopes : List Scope
deriving DecidableEq, Repr

namespace Nest

/-- No trace in force, and no scope open. -/
def fresh : Nest :=
  ⟨.none, []⟩

/-- What an operation does. Where no scope is open, none is ended. -/
def apply (s : Nest) : Op → Nest
  | .set t => { s with ambient := s.ambient.set t }
  | .clear => { s with ambient := s.ambient.clear }
  | .enter t => ⟨(s.ambient.enter t).2, (s.ambient.enter t).1 :: s.scopes⟩
  | .leave =>
    match s.scopes with
    | [] => s
    | scope :: scopes => ⟨s.ambient.leave scope, scopes⟩

/-- What a program does. -/
def after (s : Nest) (ops : List Op) : Nest :=
  ops.foldl apply s

/-- `leave` ends the scope that was opened last. -/
theorem apply_leave_of_cons {s : Nest} {scope : Scope} {scopes : List Scope}
    (h : s.scopes = scope :: scopes) : s.apply .leave = ⟨s.ambient.leave scope, scopes⟩ := by
  rw [apply, h]

/-- A program that goes on starts from where `after` has left the nest. -/
theorem after_append (s : Nest) (ops ops' : List Op) :
    s.after (ops ++ ops') = (s.after ops).after ops' :=
  List.foldl_append

end Nest

end Ambient

end EventReporter
