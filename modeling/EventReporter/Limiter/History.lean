import EventReporter.Limiter
namespace EventReporter.Limiter

/-!
# Histories of a limiter

What becomes of a limiter that is asked about writes, and cleared now and then, and what it says to
the writes.

* `after_append` : histories that go on.
* `after_induction` : what every operation preserves.
-/

/-- What can happen to a limiter. -/
inductive Op where
  /-- It is asked about a write at `now`. -/
  | check (quota : Option Quota) (event : String) (site : CallSite) (now : UInt64)
  /-- It forgets all windows. -/
  | clear

/-- The key of the write that a limiter is asked about. -/
def Op.key? : Op → Option UInt64
  | check _ event site _ => some (site.key event)
  | clear => none

/-- Whether an operation may matter to a key: it asks about that key, or about none. -/
def Op.concerns (k : UInt64) (op : Op) : Bool :=
  op.key?.all (· == k)

/-- The keys that some operations ask about, in order. -/
def keysOf (ops : List Op) : List UInt64 :=
  ops.filterMap Op.key?

/-- What happens after the windows were forgotten for the last time, or since the beginning. -/
def sinceClear (ops : List Op) : List Op :=
  (ops.reverse.takeWhile (·.key?.isSome)).reverse

/-- A write that a limiter was asked about. -/
structure Call where
  /-- Its key. -/
  key : UInt64
  /-- The quota that held for it. -/
  quota : Quota
  /-- When it was made. -/
  now : UInt64
  /-- The verdict. -/
  admission : Admission
deriving DecidableEq, Repr

/-- The limiter after an operation. -/
def apply (l : Limiter) : Op → Limiter
  | .check quota event site now => (l.check quota event site now).1
  | .clear => l.clear

/-- The write that an operation asks about, with the verdict. -/
def call? (l : Limiter) : Op → Option Call
  | .check quota event site now =>
    some ⟨site.key event, quota.getD l.quota, now, (l.check quota event site now).2⟩
  | .clear => none

/-- The limiter after some operations. -/
def after (l : Limiter) (ops : List Op) : Limiter :=
  ops.foldl apply l

/-- The writes that a limiter was asked about, in order. -/
def calls (l : Limiter) : List Op → List Call
  | [] => []
  | op :: ops => (l.call? op).toList ++ calls (l.apply op) ops

/-- The writes with a key that a limiter was asked about. -/
def callsOf (l : Limiter) (k : UInt64) (ops : List Op) : List Call :=
  (l.calls ops).filter (·.key == k)

/-- Whenever the limiter has been asked about a key, and will be asked again, it has a window for
    it: it does not forget the key in between. -/
def Keeps (l : Limiter) (k : UInt64) (ops : List Op) : Prop :=
  ∀ n < ops.length, (∃ op ∈ ops.take n, op.key? = some k) →
    (∃ op ∈ ops.drop n, op.key? = some k) → ((l.after (ops.take n)).windows.find? k).isSome

/-- A limiter that throttles, after whatever has happened to it. -/
def Reachable (l : Limiter) : Prop :=
  ∃ quota capacity past, l = (new quota capacity true).after past

/-- A history that goes on starts from where `after` has left the limiter. -/
theorem after_append (l : Limiter) (ops ops' : List Op) :
    l.after (ops ++ ops') = (l.after ops).after ops' :=
  List.foldl_append

/-- What holds at first, and stays so with every operation, holds in the end
    (`List.foldlRecOn`). -/
theorem after_induction {P : Limiter → Prop} {l : Limiter} (hstart : P l)
    (happly : ∀ l op, P l → P (l.apply op)) (ops : List Op) : P (l.after ops) :=
  List.foldlRecOn ops apply hstart fun l hl op _ => happly l op hl

end EventReporter.Limiter
