import EventReporter.Cursor
import EventReporter.Width
namespace EventReporter.Read

/-!
# Reading back what was written

A reader yields `x` on some bytes if it reads `x` off them wherever they stand, and stops right
behind them. Readers that are made of parts yield on the bytes of the parts, one after the other. A
reader refuses bytes if it fails on them wherever they stand, and stops right behind them as well.

* `Yields.bind`, `yields_many` : sequences and repetitions.
* `yields_byte`, `yields_bytes` : the bytes themselves.
* `Yields.bind_refuses` : bytes that are refused behind others that are read.
-/

variable {α β : Type}

/-- `r` reads `x` off the bytes `bs`, whatever stands before and behind them, as long as every
    position up to the end has a 64-bit offset. -/
def Yields (r : Read α) (bs : List UInt8) (x : α) : Prop :=
  ∀ (c : Cursor) (rest : List UInt8), c.rest = bs ++ rest →
    c.offset + c.rest.length < Width.w64.count → r c = .ok x (c.advance bs.length)

/-- `r` fails with `e` on the bytes `bs`, and stops behind them, whatever stands before and behind
    them, as long as every position up to the end has a 64-bit offset. -/
def Refuses (r : Read α) (bs : List UInt8) (e : WireError) : Prop :=
  ∀ (c : Cursor) (rest : List UInt8), c.rest = bs ++ rest →
    c.offset + c.rest.length < Width.w64.count → r c = .error e (c.advance bs.length)

/-! ### Moving on -/

/-- Behind the bytes in front, `rest` is what follows them. -/
theorem rest_advance {c : Cursor} {bs rest : List UInt8} (hc : c.rest = bs ++ rest) :
    (c.advance bs.length).rest = rest := by
  rw [Cursor.advance, hc, List.drop_left]

/-- `advance` leaves the end of the bytes where it is. -/
theorem end_advance {c : Cursor} {bs rest : List UInt8} (hc : c.rest = bs ++ rest) :
    (c.advance bs.length).offset + (c.advance bs.length).rest.length
      = c.offset + c.rest.length := by
  rw [rest_advance hc, hc, List.length_append]
  simp only [Cursor.advance]
  omega

/-- What comes after a reader that `Yields` goes on with what was read, behind it. The lemmas on
    `>>=` below all start here. -/
theorem Yields.run_bind {r : Read α} {f : α → Read β} {bs rest : List UInt8} {x : α}
    (hr : Yields r bs x) {c : Cursor} (hc : c.rest = bs ++ rest)
    (hsize : c.offset + c.rest.length < Width.w64.count) :
    (r >>= f) c = f x (c.advance bs.length) := by
  show EStateM.bind r f c = _
  rw [EStateM.bind, hr c rest hc hsize]

/-! ### Sequences -/

/-- `pure` reads nothing. -/
theorem yields_pure (x : α) : Yields (pure x) [] x := by
  intro c rest _ _
  rw [List.length_nil, Cursor.advance_zero]
  rfl

/-- A reader that goes on with what the first one has read: both parts of the bytes, one behind
    the other. -/
theorem Yields.bind {r : Read α} {f : α → Read β} {bs bs' : List UInt8} {x : α} {y : β}
    (hr : Yields r bs x) (hf : Yields (f x) bs' y) : Yields (r >>= f) (bs ++ bs') y := by
  intro c rest hc hsize
  rw [List.append_assoc] at hc
  -- the second reader starts further on, but the data it has to keep to is the same
  have hend := end_advance hc
  rw [hr.run_bind hc hsize, hf _ rest (rest_advance hc) (hend ▸ hsize), Cursor.advance_advance,
    List.length_append]

/-- A reader that only changes the form of what was read: `Yields.bind`, with nothing more to
    read. -/
theorem Yields.map {r : Read α} {f : α → Read β} {bs : List UInt8} {x : α} {y : β}
    (hr : Yields r bs x) (hf : f x = pure y) : Yields (r >>= f) bs y := by
  have hf' : Yields (f x) [] y := by
    rw [hf]
    exact yields_pure y
  have h := hr.bind hf'
  rwa [List.append_nil] at h

/-- A reader that `Refuses` what follows does so behind one that yields, after the bytes of
    both. -/
theorem Yields.bind_refuses {r : Read α} {f : α → Read β} {bs bs' : List UInt8} {x : α}
    {e : WireError} (hr : Yields r bs x) (hf : Refuses (f x) bs' e) :
    Refuses (r >>= f) (bs ++ bs') e := by
  intro c rest hc hsize
  rw [List.append_assoc] at hc
  have hend := end_advance hc
  rw [hr.run_bind hc hsize, hf _ rest (rest_advance hc) (hend ▸ hsize), Cursor.advance_advance,
    List.length_append]

/-- A reader that does not accept what was read: it has gone over the bytes of the first one all
    the same. -/
theorem Yields.bind_throw {r : Read α} {f : α → Read β} {bs : List UInt8} {x : α} {e : WireError}
    (hr : Yields r bs x) (hf : f x = throw e) : Refuses (r >>= f) bs e := by
  intro c rest hc hsize
  rw [hr.run_bind hc hsize, hf]
  rfl

/-- What would come after a reader that `Refuses` is not reached. -/
theorem Refuses.bind {r : Read α} {bs : List UInt8} {e : WireError} (h : Refuses r bs e)
    (f : α → Read β) : Refuses (r >>= f) bs e := by
  intro c rest hc hsize
  show EStateM.bind r f c = _
  rw [EStateM.bind, h c rest hc hsize]

/-- To look at the position first, with `get`, changes nothing. -/
theorem yields_get_bind {f : Cursor → Read α} {bs : List UInt8} {x : α}
    (h : ∀ c, Yields (f c) bs x) : Yields (get >>= f) bs x :=
  fun c rest hc hsize => h c c rest hc hsize

/-! ### Bytes -/

/-- `byte` reads the next byte. -/
theorem yields_byte (b : UInt8) : Yields byte [b] b := by
  intro c rest hc _
  simp only [List.singleton_append] at hc
  rw [byte, hc]
  rfl

/-- `bytes` reads as many bytes as it is asked for. -/
theorem yields_bytes {bs : List UInt8} {n : Nat} (h : bs.length = n) :
    Yields (bytes n) bs bs := by
  intro c rest hc _
  have hle : n ≤ c.rest.length := by
    rw [hc, List.length_append]
    omega
  rw [bytes_eq_of_le hle, hc, h, ← h, List.take_left]

/-! ### Repetitions -/

/-- By induction on the items: `manyFrom` has them in `done`, the last one first, until it turns
    them round. -/
theorem yields_manyFrom {item : Read β} {enc : α → List UInt8} {dec : α → β} {xs : List α}
    (h : ∀ x ∈ xs, Yields item (enc x) (dec x)) (done : List β) :
    Yields (manyFrom item done xs.length) (xs.flatMap enc) (done.reverse ++ xs.map dec) := by
  induction xs generalizing done with
  | nil => simpa [manyFrom] using yields_pure done.reverse
  | cons x xs ih =>
    have hx := h x List.mem_cons_self
    have hxs := ih (fun y hy => h y (List.mem_cons_of_mem x hy)) (dec x :: done)
    -- the item just read comes last in `done.reverse`
    rw [List.reverse_cons, List.append_assoc, List.singleton_append] at hxs
    exact hx.bind hxs

/-- Items that are written one after the other are read one after the other: `yields_manyFrom`
    with none read so far. -/
theorem yields_many {item : Read β} {enc : α → List UInt8} {dec : α → β} {xs : List α}
    (h : ∀ x ∈ xs, Yields item (enc x) (dec x)) :
    Yields (many item xs.length) (xs.flatMap enc) (xs.map dec) :=
  yields_manyFrom h []

/-! ### Offsets -/

/-- `ofBytes` starts at its offset. -/
theorem rest_ofBytes (before bs after : List UInt8) :
    (Cursor.ofBytes (before ++ bs ++ after) before.length).rest = bs ++ after := by
  simp [Cursor.ofBytes]

/-- `ofBytes` has the end of the data for its end. -/
theorem end_ofBytes (before bs after : List UInt8) :
    (Cursor.ofBytes (before ++ bs ++ after) before.length).offset +
        (Cursor.ofBytes (before ++ bs ++ after) before.length).rest.length
      = (before ++ bs ++ after).length := by
  rw [rest_ofBytes]
  simp only [Cursor.ofBytes, List.length_append]
  omega

/-- At the given offset of some data, `runAt` answers what is read, and the offset behind it. -/
theorem Yields.runAt {r : Read α} {bs : List UInt8} {x : α} (h : Yields r bs x)
    (before after : List UInt8) (hsize : (before ++ bs ++ after).length < Width.w64.count) :
    runAt r (before ++ bs ++ after) before.length = (.ok x, before.length + bs.length) := by
  rw [← end_ofBytes] at hsize
  rw [Read.runAt, h _ after (rest_ofBytes before bs after) hsize]
  rfl

/-- At the given offset of some data, `runAt` answers why nothing is read, and the offset behind
    what was refused. -/
theorem Refuses.runAt {r : Read α} {bs : List UInt8} {e : WireError} (h : Refuses r bs e)
    (before after : List UInt8) (hsize : (before ++ bs ++ after).length < Width.w64.count) :
    runAt r (before ++ bs ++ after) before.length = (.error e, before.length + bs.length) := by
  rw [← end_ofBytes] at hsize
  rw [Read.runAt, h _ after (rest_ofBytes before bs after) hsize]
  rfl

end EventReporter.Read
