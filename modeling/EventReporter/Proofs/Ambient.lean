import EventReporter.Ambient
import Mathlib.Data.List.Induction
namespace EventReporter.Ambient

/-!
# Scopes nest

When a scope ends, everything is as it was before the scope was opened: the trace in force, and the
scopes around it. So the trace that a program leaves in force is the one that it put in force last,
not counting what happened in scopes that have ended.

* `Nest.above_after` : a program that ends only scopes of its own leaves the others as they are.
* `Nest.level_after` : which trace is in force after a program, and after the end of any number of
  the scopes that it left open.
* `Nest.scopes_nest` : both laws, for every program.
-/

/-- `current?` answers the stored trace, if its identifier is not 0. -/
theorem current?_eq_some_iff {a : Ambient} {t : Trace} :
    a.current? = some t ↔ a.stored = t ∧ t.id ≠ 0 := by
  unfold current? Trace.isValid
  split
  · next hvalid =>
    simp only [bne_iff_ne, ne_eq] at hvalid
    simp only [Option.some.injEq]
    exact ⟨fun h => ⟨h, h ▸ hvalid⟩, And.left⟩
  · next hnone =>
    simp only [bne_iff_ne, ne_eq, Decidable.not_not] at hnone
    exact iff_of_false nofun fun h => h.2 (h.1 ▸ hnone)

namespace Nest

variable {s : Nest} {ops : List Op} {op : Op} {base : List Scope} {n m : Nat}

/-! ### Scopes that stay open -/

/-- That `n` scopes are open inside of those in `base`. -/
def Above (base : List Scope) (n : Nat) (s : Nest) : Prop :=
  ∃ inner, s.scopes = inner ++ base ∧ inner.length = n

/-- One operation keeps the scopes of `base` as they are, below as many others as `depth?`
    counts. -/
theorem above_apply (h : Above base n s) (hop : op.depth? n = some m) :
    Above base m (s.apply op) := by
  obtain ⟨inner, hscopes, rfl⟩ := h
  cases op with
  | set t | clear =>
    cases hop
    exact ⟨inner, hscopes, rfl⟩
  | enter t =>
    cases hop
    -- the new scope is one more of those above `base`
    exact ⟨⟨s.ambient.stored⟩ :: inner, congrArg _ hscopes, rfl⟩
  | leave =>
    -- `depth?` answers only if one of the scopes above `base` is there to end
    cases inner with
    | nil => cases hop
    | cons scope inner =>
      cases hop
      exact ⟨inner, congrArg Nest.scopes (apply_leave_of_cons hscopes), rfl⟩

/-- A program that ends no more scopes than it opens, and than are open inside of those in `base`,
    leaves these as they are: by induction on the operations, with `above_apply` for each. -/
theorem above_after (h : Above base n s) (hops : depth? n ops = some m) :
    Above base m (s.after ops) := by
  induction ops generalizing s n with
  | nil =>
    cases hops
    exact h
  | cons op ops ih =>
    rw [depth?, List.foldlM_cons] at hops
    obtain ⟨k, hop, hrest⟩ := Option.bind_eq_some_iff.mp hops
    exact ih (above_apply h hop) hrest

/-- `depth?` counts the scopes that are open after a program: `above_after` with no scope
    below. -/
theorem length_scopes_after (hops : depth? 0 ops = some n) :
    (fresh.after ops).scopes.length = n := by
  have hfresh : Above [] 0 fresh := ⟨[], rfl, rfl⟩
  obtain ⟨inner, hscopes, hinner⟩ := above_after hfresh hops
  rw [hscopes, List.append_nil, hinner]

/-- Until a scope is ended, it remembers the trace from before it, by `above_after` with this
    scope among those below. -/
theorem scopes_after_enter (s : Nest) (t : Trace) (hops : WellNested ops) :
    (s.after (.enter t :: ops)).scopes = ⟨s.ambient.stored⟩ :: s.scopes := by
  have hopened : Above (⟨s.ambient.stored⟩ :: s.scopes) 0 (s.apply (.enter t)) := ⟨[], rfl, rfl⟩
  obtain ⟨inner, hscopes, hinner⟩ := above_after hopened hops
  rwa [List.eq_nil_of_length_eq_zero hinner] at hscopes

/-- A scope that has ended leaves everything as it was: by `scopes_after_enter` it is this scope
    that `leave` finds. -/
theorem after_scope (s : Nest) (t : Trace) (hops : WellNested ops) :
    s.after (.enter t :: ops ++ [.leave]) = s := by
  rw [after_append]
  exact apply_leave_of_cons (scopes_after_enter s t hops)

/-! ### The trace that is in force -/

/-- The trace that is in force when `n` of the open scopes have ended. -/
def level (s : Nest) : Nat → Trace
  | 0 => s.ambient.stored
  | n + 1 => s.scopes[n]?.elim .none Scope.previous

/-- `leave` moves every level one down, for it takes the innermost scope away. -/
theorem level_leave {scope : Scope} {scopes : List Scope} (h : s.scopes = scope :: scopes)
    (n : Nat) : (s.apply .leave).level n = s.level (n + 1) := by
  rw [apply_leave_of_cons h]
  cases n with
  | zero => rw [level, level, h]; rfl
  | succ n => rw [level, level, h]; rfl

/-- After a program that ends only scopes of its own, and when `n` of the scopes that it left open
    have ended, the trace is in force that `lastSet` reads off the program. -/
theorem level_after (hops : depth? 0 ops = some m) (n : Nat) :
    (fresh.after ops).level n = lastSet n ops.reverse := by
  -- on the program from its end, with the scopes that are still open
  induction ops using List.reverseRecOn generalizing m n with
  | nil => cases n <;> rfl
  | append_singleton ops op ih =>
    rw [depth?_append] at hops
    obtain ⟨opened, hbefore, hop⟩ := Option.bind_eq_some_iff.mp hops
    rw [after_append, List.reverse_append]
    show ((fresh.after ops).apply op).level n = lastSet n (op :: ops.reverse)
    cases op with
    | set t | clear =>
      cases n with
      | zero => rfl
      | succ n => exact ih hbefore (n + 1)
    | enter t =>
      cases n with
      | zero => rfl
      | succ n =>
        have hbelow := ih hbefore n
        cases n <;> exact hbelow
    | leave =>
      have hlength := length_scopes_after hbefore
      cases hscopes : (fresh.after ops).scopes with
      | nil =>
        -- there is a scope to end
        rw [hscopes] at hlength
        cases hlength
        cases hop
      | cons scope scopes =>
        rw [level_leave hscopes]
        exact ih hbefore (n + 1)

/-! ### The laws -/

/-- After any program that ends only scopes of its own, as many scopes are open as it opened and
    did not end, and the trace is stored that it put in force last, not counting what happened in
    scopes that have ended. A trace is in force exactly if the stored one has an identifier other
    than 0, and then it is that one. A scope that is opened at any moment remembers the trace from
    before it during any well-nested program, whatever traces are set, cleared and scoped in there,
    and when it is ended, everything is as it was before it: the trace, and the scopes that were
    open. -/
theorem scopes_nest :
    (∀ (ops : List Op) (opened : Nat), depth? 0 ops = some opened →
      let s := fresh.after ops
      s.scopes.length = opened ∧ s.ambient.stored = inForce ops ∧
        (s.ambient.current? = .none ↔ s.ambient.stored.id = 0) ∧
        ∀ t, s.ambient.current? = some t ↔ s.ambient.stored = t ∧ t.id ≠ 0) ∧
      ∀ (before inside : List Op) (t : Trace), WellNested inside →
        let s := fresh.after before
        (fresh.after (before ++ .enter t :: inside)).scopes = ⟨s.ambient.stored⟩ :: s.scopes ∧
          fresh.after (before ++ .enter t :: inside ++ [.leave]) = s := by
  constructor
  · intro ops opened hops s
    exact ⟨length_scopes_after hops, level_after hops 0, current?_eq_none_iff _,
      fun _ => current?_eq_some_iff⟩
  · intro before inside t hinside s
    constructor
    · rw [after_append]
      exact scopes_after_enter s t hinside
    · rw [List.append_assoc, after_append]
      exact after_scope s t hinside

/-- A trace is set, and then cleared in a scope with another one. -/
def sampleInside : List Op :=
  [.set ⟨0, 3, 0, 0⟩, .enter ⟨1, 4, 5, 6⟩, .clear, .leave]

/-- Two scopes are open around a program that sets, clears and scopes traces of its own. Inside of
    the second one, of which the identifier is 0, no trace is in force until the program sets one;
    after it the trace from before is in force again. -/
theorem scopes_nest_sampleInside :
    let before : List Op := [.enter ⟨0, 9, 0, 0⟩, .set ⟨1, 7, 1, 0⟩]
    let unseen : Trace := ⟨0, 0, 5, 6⟩
    depth? 0 (before ++ .enter unseen :: sampleInside) = some 2 ∧
      WellNested sampleInside ∧
      (fresh.after (before ++ [.enter unseen])).ambient.current? = .none ∧
      (fresh.after (before ++ .enter unseen :: sampleInside)).ambient.current?
        = some ⟨0, 3, 0, 0⟩ ∧
      fresh.after (before ++ .enter unseen :: sampleInside ++ [.leave]) = fresh.after before ∧
      (fresh.after before).ambient.current? = some ⟨1, 7, 1, 0⟩ := by
  intro before unseen
  obtain ⟨hforce, hrestore⟩ := scopes_nest
  have hopen : depth? 0 (before ++ [.enter unseen]) = some 2 := by decide
  have hdeep : depth? 0 (before ++ .enter unseen :: sampleInside) = some 2 := by decide
  have hbefore : depth? 0 before = some 1 := by decide
  have hinside : WellNested sampleInside := by decide
  obtain ⟨-, -, hnone, -⟩ := hforce _ _ hopen
  obtain ⟨-, -, -, hinner⟩ := hforce _ _ hdeep
  obtain ⟨-, -, -, houter⟩ := hforce _ _ hbefore
  exact ⟨hdeep, hinside, hnone.mpr rfl, (hinner _).mpr ⟨rfl, by decide⟩,
    (hrestore before sampleInside unseen hinside).2, (houter _).mpr ⟨rfl, by decide⟩⟩

end Nest

end EventReporter.Ambient
