import EventReporter.Journal
import EventReporter.Limiter.RecencyMap
import EventReporter.Text
namespace EventReporter

/-!
# Throttling of call sites

Writes are throttled by event name and call site together. The key of such a pair is a 64-bit
FNV-1a hash of both, joined by underscores; of a long text only the first 256 bytes count.

A window counts the writes of one key from the second in which it was opened. It is over after its
period; a clock that has gone back ends it as well. Within a window as many writes are admitted as
the threshold says, and the one that opens it in any case. The time comes with each write: a
limiter has no clock of its own.

A limiter keeps one window for each key, and forgets the least recently used ones beyond its
capacity. A limiter that is switched off admits every write and keeps no account.

* `CallSite.key` : the key of an event at a call site.
* `Window.advance` : a window after one more write, and the verdict on that write.
* `Limiter.check_of_disabled` : a limiter that is switched off is left as it is.
-/

/-! ### Keys of call sites -/

/-- The place in the program that writes an event. -/
structure CallSite where
  /-- The function. -/
  func : String
  /-- The line. -/
  line : UInt32
deriving DecidableEq, Repr

/-- The FNV-1a hash of some bytes. -/
def fnv1a (bytes : List UInt8) : UInt64 :=
  bytes.foldl (fun h b => (h ^^^ b.toUInt64) * 0x100000001B3) 0xCBF29CE484222325

namespace CallSite

/-- Bytes of a text that its hash depends on. -/
def hashedBytes : Nat := 256

/-- The text that stands for an event at a call site. -/
def keyText (site : CallSite) (event : String) : String :=
  s!"{event}_{site.func}_{site.line.toNat}"

/-- The bytes that are hashed. -/
def keyBytes (site : CallSite) (event : String) : List UInt8 :=
  (Text.utf8 (site.keyText event)).take hashedBytes

/-- The key of an event at a call site. -/
def key (site : CallSite) (event : String) : UInt64 :=
  fnv1a (site.keyBytes event)

end CallSite

/-! ### Windows -/

/-- Length of a window, and how many writes it admits. -/
structure Quota where
  /-- The length in seconds. -/
  period : UInt32
  /-- The number of writes admitted. -/
  threshold : UInt32
deriving DecidableEq, Repr

/-- The verdict on a write. -/
inductive Admission where
  | admitted
  | suppressed
deriving DecidableEq, Repr

/-- A running window. -/
structure Window where
  /-- When it was opened, in milliseconds since the epoch. -/
  start : UInt64
  /-- The writes so far, the admitted and the suppressed ones. -/
  count : Nat
deriving DecidableEq, Repr

namespace Window

/-- The greatest count that a window holds on to, and the greatest threshold. -/
def maxCount : Nat := UInt32.size - 1

/-- The latest second there is. -/
def maxSecond : Nat := UInt64.size - 1

/-- The second of a time in milliseconds. -/
def second (ms : UInt64) : Nat :=
  ms.toNat / 1000

/-- Whether a window is over at `now`. -/
def isOver (w : Window) (quota : Quota) (now : UInt64) : Bool :=
  decide (min (second w.start + quota.period.toNat) maxSecond ≤ second now) ||
    decide (second now < second w.start)

/-- The window with one more write. -/
def tick (w : Window) : Window :=
  { w with count := min (w.count + 1) maxCount }

/-- The window after a write at `now`, and the verdict on that write. -/
def advance (current : Option Window) (quota : Quota) (now : UInt64) : Window × Admission :=
  match current with
  | none => (⟨now, 1⟩, .admitted)
  | some w =>
    if w.isOver quota now then (⟨now, 1⟩, .admitted)
    else
      -- the write counts even if it is suppressed
      (w.tick, if w.tick.count ≤ quota.threshold.toNat then .admitted else .suppressed)

end Window

/-! ### Limiters -/

/-- Windows and counters of all call sites. -/
structure Limiter where
  /-- The windows. -/
  windows : RecencyMap UInt64 Window
  /-- What holds for writes without a quota of their own. -/
  quota : Quota
  /-- Whether writes are throttled at all. -/
  enabled : Bool
  /-- Writes admitted so far. -/
  admitted : Nat
  /-- Writes suppressed so far. -/
  suppressed : Nat

namespace Limiter

/-- The usual quota: 100 writes in 5 seconds. -/
def defaultQuota : Quota := ⟨5, 100⟩

/-- How many call sites usually have a window at a time. -/
def defaultCapacity : Nat := 100

/-- A limiter without windows. -/
def new (quota : Quota) (capacity : Nat) (enabled : Bool) : Limiter :=
  ⟨.new capacity, quota, enabled, 0, 0⟩

/-- How many call sites have a window. -/
def tracked (l : Limiter) : Nat :=
  l.windows.size

/-- Forgets all windows. The counters stay. -/
def clear (l : Limiter) : Limiter :=
  { l with windows := l.windows.clear }

/-- The limiter after a write at `now`, and the verdict on that write. -/
def check (l : Limiter) (quota : Option Quota) (event : String) (site : CallSite) (now : UInt64) :
    Limiter × Admission :=
  if l.enabled then
    let key := site.key event
    -- the key is used twice, by the look-up and by the insertion
    let (current, windows) := l.windows.get key
    let (window, admission) := Window.advance current (quota.getD l.quota) now
    let l := { l with windows := windows.insert key window }
    match admission with
    | .admitted => ({ l with admitted := l.admitted + 1 }, .admitted)
    | .suppressed => ({ l with suppressed := l.suppressed + 1 }, .suppressed)
  else (l, .admitted)

/-- What is said about a suppressed write. -/
def suppressedEntry (quota : Quota) (domain event : String) (site : CallSite) : Journal.Entry where
  level := .debug
  target := Journal.source "controller"
  message := "write suppressed, frequency too high"
  fields :=
    [("domain", .text domain), ("event", .text event), ("func", .text site.func),
      ("line", .number site.line.toNat), ("threshold", .number quota.threshold.toNat),
      ("period", .number quota.period.toNat)]

/-- `check`, with a diagnostic entry for a suppressed write. -/
def ask {σ : Type} (l : Limiter) (quota : Option Quota) (domain event : String)
    (site : CallSite) (now : UInt64) : Action σ (Limiter × Admission) := do
  let (l', admission) := l.check quota event site now
  if admission = .suppressed then
    note (suppressedEntry (quota.getD l.quota) domain event site)
  pure (l', admission)

/-- A limiter that is switched off admits every write in `check`, and keeps no account of it. -/
theorem check_of_disabled {l : Limiter} (h : l.enabled = false) (quota : Option Quota)
    (event : String) (site : CallSite) (now : UInt64) :
    l.check quota event site now = (l, .admitted) := by
  simp [check, h]

end Limiter

end EventReporter
