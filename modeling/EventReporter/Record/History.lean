import EventReporter.Record.Builder
namespace EventReporter.Record

/-!
# Histories of records under construction

What happens to a record between its start and its layout is a list of changes, made one after
the other.

* `apply_of_add`, `apply_of_refused` : a parameter that is taken, and one that is not.
* `applyAll_append`, `taken_append` : a history goes on from where another one ends.
-/

/-- A change to a record under construction. -/
inductive Change where
  /-- The time of the event, in milliseconds since the epoch. -/
  | timestamp (ms : UInt64)
  /-- The time zone, by its offset from UTC. -/
  | timeZone (offset : String)
  /-- The time zone, by its index. -/
  | timeZoneIndex (index : UInt8)
  /-- The user. -/
  | uid (n : UInt32)
  /-- The process. -/
  | pid (n : UInt32)
  /-- The thread. -/
  | tid (n : UInt32)
  /-- The identifier of the event. -/
  | id (n : UInt64)
  /-- A trace is attached. -/
  | trace (t : Trace)
  /-- A parameter is added, if there is room for it. -/
  | append (p : Param)

namespace Builder

/-- Makes a change. -/
def apply (b : Builder) : Change → Builder
  | .timestamp ms => { b with header := { b.header with timestamp := ms } }
  | .timeZone offset =>
    { b with header := { b.header with timeZone := UInt8.ofNat (TimeZone.index offset) } }
  | .timeZoneIndex index => { b with header := { b.header with timeZone := index } }
  | .uid n => { b with header := { b.header with uid := n } }
  | .pid n => { b with header := { b.header with pid := n } }
  | .tid n => { b with header := { b.header with tid := n } }
  | .id n => { b with header := { b.header with id := n } }
  | .trace t => b.setTrace t
  | .append p =>
    match b.add p with
    | .ok added => added
    | .error _ => b

/-- Makes changes in order. -/
def applyAll (b : Builder) (changes : List Change) : Builder :=
  changes.foldl apply b

/-- The parameter that a builder takes when a change is made. -/
def taken? (b : Builder) : Change → Option Param
  | .append p => if (b.add p).isOk then some p else none
  | _ => none

/-- The parameters that a builder takes in the course of some changes, in order. -/
def taken (b : Builder) : List Change → List Param
  | [] => []
  | change :: changes => (b.taken? change).toList ++ taken (b.apply change) changes

/-- A parameter that `add` accepts is appended, and counts among those that were `taken`. -/
theorem apply_of_add {b b' : Builder} {p : Param} (h : b.add p = .ok b') :
    b.apply (.append p) = b' ∧ b.taken? (.append p) = some p := by
  rw [apply, taken?, h]
  exact ⟨rfl, rfl⟩

/-- A parameter that `add` refuses changes nothing, and is not one of those `taken`. -/
theorem apply_of_refused {b : Builder} {p : Param} {e : WireError} (h : b.add p = .error e) :
    b.apply (.append p) = b ∧ b.taken? (.append p) = none := by
  rw [apply, taken?, h]
  exact ⟨rfl, rfl⟩

/-- A history that goes on starts from where `applyAll` has left the record. -/
theorem applyAll_append (b : Builder) (before after : List Change) :
    b.applyAll (before ++ after) = (b.applyAll before).applyAll after :=
  List.foldl_append

/-- The parameters `taken` in a history that goes on are those of its first part, and those that
    are taken from where this one has left the record. By induction on the first part. -/
theorem taken_append (b : Builder) (before after : List Change) :
    b.taken (before ++ after) = b.taken before ++ (b.applyAll before).taken after := by
  induction before generalizing b with
  | nil => rfl
  | cons change before ih =>
    show (b.taken? change).toList ++ (b.apply change).taken (before ++ after) = _
    rw [ih, ← List.append_assoc]
    rfl

end Builder

end EventReporter.Record
