import EventReporter.Limiter.RecencyMap
namespace EventReporter.RecencyMap

/-!
# Histories of a recency map

What becomes of a map on which look-ups and insertions are made, and which is cleared now and then,
and which of its keys were used how recently.

* `after_concat`, `uses_concat`, `lastInserted?_concat` : histories that go on.
* `after_induction` : what every operation preserves.
-/

/-- What can be done with a map. -/
inductive Op (κ ν : Type) where
  /-- A key is looked up. -/
  | get (k : κ)
  /-- A key gets a value. -/
  | insert (k : κ) (v : ν)
  /-- All entries are dropped. -/
  | clear
deriving DecidableEq, Repr

variable {κ ν : Type} [DecidableEq κ]

/-- The map after an operation. -/
def apply (m : RecencyMap κ ν) : Op κ ν → RecencyMap κ ν
  | .get k => (m.get k).2
  | .insert k v => m.insert k v
  | .clear => m.clear

/-- The map after some operations. -/
def after (m : RecencyMap κ ν) (ops : List (Op κ ν)) : RecencyMap κ ν :=
  ops.foldl apply m

/-- The keys in `used`, with the one that an operation on the map uses. A look-up that finds nothing
    uses none, and clearing starts anew. -/
def use (m : RecencyMap κ ν) (used : List κ) : Op κ ν → List κ
  | .get k => if m.contains k then used ++ [k] else used
  | .insert k _ => used ++ [k]
  | .clear => []

/-- A map with its used keys, after an operation. -/
def track (s : RecencyMap κ ν × List κ) (op : Op κ ν) : RecencyMap κ ν × List κ :=
  (s.1.apply op, s.1.use s.2 op)

/-- The keys that were used since the map was cleared for the last time, in order, once for each
    use. -/
def uses (m : RecencyMap κ ν) (ops : List (Op κ ν)) : List κ :=
  (ops.foldl track (m, [])).2

/-- The value that a key got last. -/
def lastInserted? (k : κ) (ops : List (Op κ ν)) : Option ν :=
  ops.foldl (fun last op => match op with
    | .insert k' v => if k' = k then some v else last
    | _ => last) none

/-- The last operation of a history is applied to what the others leave. -/
theorem after_concat (m : RecencyMap κ ν) (ops : List (Op κ ν)) (op : Op κ ν) :
    m.after (ops ++ [op]) = (m.after ops).apply op := by
  simp [after]

/-- What holds at first, and stays so with every operation, holds in the end
    (`List.foldlRecOn`). -/
theorem after_induction {P : RecencyMap κ ν → Prop} {m : RecencyMap κ ν} (hstart : P m)
    (happly : ∀ m op, P m → P (m.apply op)) (ops : List (Op κ ν)) : P (m.after ops) :=
  List.foldlRecOn ops apply hstart fun m hm op _ => happly m op hm

/-- Keeping track of the used keys does not change what becomes of the map. By induction on the
    operations. -/
theorem track_fst (m : RecencyMap κ ν) (used : List κ) (ops : List (Op κ ν)) :
    (ops.foldl track (m, used)).1 = m.after ops := by
  induction ops generalizing m used with
  | nil => rfl
  | cons op ops ih => exact ih _ _

/-- The last operation of a history adds to the keys that were used before, or starts them
    anew. -/
theorem uses_concat (m : RecencyMap κ ν) (ops : List (Op κ ν)) (op : Op κ ν) :
    m.uses (ops ++ [op]) = (m.after ops).use (m.uses ops) op := by
  rw [uses, List.foldl_append, ← track_fst m []]
  rfl

/-- Only an insertion of the key itself changes what it got last. -/
theorem lastInserted?_concat (k : κ) (ops : List (Op κ ν)) (op : Op κ ν) :
    lastInserted? k (ops ++ [op]) = match op with
      | .insert k' v => if k' = k then some v else lastInserted? k ops
      | _ => lastInserted? k ops := by
  simp [lastInserted?]

end EventReporter.RecencyMap
