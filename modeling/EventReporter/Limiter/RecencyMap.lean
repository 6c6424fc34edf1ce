namespace EventReporter

/-!
# Maps that forget what was not used for longest

A map of bounded size. Each look-up that finds something and each insertion stamps the entry with
the next reading of the map's own clock; when a new key finds the map full, the entry with the
oldest stamp goes.

* `find?_insert_self` : what was inserted is found.
-/

/-- A value under its key, with the time of its last use. -/
structure Stamped (κ ν : Type) where
  /-- The key. -/
  key : κ
  /-- The value. -/
  value : ν
  /-- When it was used last. -/
  stamp : Nat
deriving DecidableEq, Repr

/-- A bounded map from `κ` to `ν`. -/
structure RecencyMap (κ ν : Type) where
  /-- The entries, in no particular order. -/
  entries : List (Stamped κ ν)
  /-- The reading of the clock, which is the newest stamp. -/
  clock : Nat
  /-- The most entries. -/
  capacity : Nat
deriving DecidableEq, Repr

namespace RecencyMap

variable {κ ν : Type} [DecidableEq κ]

/-- A map without entries. It has room for one at least. -/
def new (capacity : Nat) : RecencyMap κ ν :=
  ⟨[], 0, max capacity 1⟩

/-- The number of entries. -/
def size (m : RecencyMap κ ν) : Nat :=
  m.entries.length

/-- The value of a key, which is not a use of it. -/
def find? (m : RecencyMap κ ν) (k : κ) : Option ν :=
  (m.entries.find? (·.key == k)).map (·.value)

/-- Whether a key has a value. -/
def contains (m : RecencyMap κ ν) (k : κ) : Bool :=
  m.entries.any (·.key == k)

/-- The entries with one more, in place of any with its key. -/
def put (entries : List (Stamped κ ν)) (e : Stamped κ ν) : List (Stamped κ ν) :=
  -- a key that is there keeps its place
  if entries.any (·.key == e.key) then entries.map fun x => if x.key = e.key then e else x
  else e :: entries

/-- Looks a key up, which is a use of it. -/
def get (m : RecencyMap κ ν) (k : κ) : Option ν × RecencyMap κ ν :=
  match m.find? k with
  | some v =>
    let now := m.clock + 1
    (some v, { m with entries := put m.entries ⟨k, v, now⟩, clock := now })
  | none => (none, m)

/-- The entry with the oldest stamp. -/
def oldest? : List (Stamped κ ν) → Option (Stamped κ ν)
  | [] => none
  | e :: rest =>
    match oldest? rest with
    | some o => if o.stamp < e.stamp then some o else some e
    | none => some e

/-- The entries without the oldest one. -/
def evictOldest (entries : List (Stamped κ ν)) : List (Stamped κ ν) :=
  match oldest? entries with
  | some o => entries.eraseP (·.key == o.key)
  | none => entries

/-- The entries among which a key finds room. -/
def makeRoom (m : RecencyMap κ ν) (k : κ) : List (Stamped κ ν) :=
  -- a key that is there needs no room
  if m.capacity ≤ m.size ∧ ¬ m.contains k then evictOldest m.entries else m.entries

/-- Gives a key a value. -/
def insert (m : RecencyMap κ ν) (k : κ) (v : ν) : RecencyMap κ ν :=
  let now := m.clock + 1
  { m with entries := put (m.makeRoom k) ⟨k, v, now⟩, clock := now }

/-- Drops all entries and starts the clock again. -/
def clear (m : RecencyMap κ ν) : RecencyMap κ ν :=
  { m with entries := [], clock := 0 }

/-- An entry that is `put` among others is the one with its key. By induction on the entries up to
    the one that it replaces, if there is one. -/
theorem find?_put_self (entries : List (Stamped κ ν)) (e : Stamped κ ν) :
    (put entries e).find? (·.key == e.key) = some e := by
  unfold put
  split
  · next h =>
    induction entries with
    | nil => simp at h
    | cons x rest ih =>
      by_cases hx : x.key = e.key
      · -- the key is new, and the entry goes to the end
        simp [hx]
      · simpa [hx] using ih (by simpa [hx] using h)
  · simp

/-- What `insert` puts into a map is found there, whether or not something had to go for it. -/
theorem find?_insert_self (m : RecencyMap κ ν) (k : κ) (v : ν) :
    (m.insert k v).find? k = some v := by
  simp only [insert, find?]
  have := find?_put_self (m.makeRoom k) ⟨k, v, m.clock + 1⟩
  simp only at this
  rw [this]
  rfl

end RecencyMap

end EventReporter
