import EventReporter.Cursor
namespace EventReporter

/-!
# Readers and the end of the bytes

A reader is local if it moves only over bytes that are there, and if bytes behind the last one can
change what it does only where it misses some. Readers that are made of local ones are local, and
take as many bytes as these take together.

* `Read.Local.bind`, `Read.local_many` : sequences and repetitions.
* `Read.Local.runAt_bounds` : where a local reader stops.
* `Read.Local.runAt_append` : what it does when more bytes follow.
* `Read.Local.runAt_take` : what it does when the bytes end before the place where it stopped.
-/

/-- Actions one after the other, the second where the first has stopped. Stated with a `match` so
    that the outcome of `x` can be rewritten. -/
theorem bind_apply {ε σ α β : Type} (x : EStateM ε σ α) (f : α → EStateM ε σ β) (s : σ) :
    (x >>= f) s = match x s with
      | .ok a s' => f a s'
      | .error e s' => .error e s' :=
  EStateM.run_bind x f

/-! ### Cursors -/

namespace Cursor

/-- The same place, with more bytes behind the last one. -/
def extend (c : Cursor) (more : List UInt8) : Cursor :=
  ⟨c.size + more.length, c.offset, c.rest ++ more⟩

/-- The bytes ahead end where all bytes end. -/
def Sound (c : Cursor) : Prop :=
  c.offset + c.rest.length = c.size

/-- `c'` stands further on than `c`, by at least `least` bytes, all of which are there. -/
def Ahead (least : Nat) (c c' : Cursor) : Prop :=
  ∃ n, least ≤ n ∧ n ≤ c.rest.length ∧ c' = c.advance n

variable {c c' c'' : Cursor} {m n : Nat}

@[simp]
theorem offset_extend (c : Cursor) (more : List UInt8) : (c.extend more).offset = c.offset := rfl

/-- `advance` and `extend` commute, if the bytes to go over are there without the new ones. -/
theorem advance_extend (h : n ≤ c.rest.length) (more : List UInt8) :
    (c.extend more).advance n = (c.advance n).extend more := by
  simp [extend, advance, List.drop_append_of_le_length h]

/-- Bytes that are there are not changed by what follows them, as `extend` adds it. -/
theorem take_rest_extend (h : n ≤ c.rest.length) (more : List UInt8) :
    (c.extend more).rest.take n = c.rest.take n :=
  List.take_append_of_le_length h

/-- `advance` goes `Ahead` by what it is told. -/
theorem ahead_advance (h : n ≤ c.rest.length) : c.Ahead n (c.advance n) :=
  ⟨n, Nat.le_refl n, h, rfl⟩

/-- A cursor is no step `Ahead` of itself. -/
theorem ahead_refl (c : Cursor) : c.Ahead 0 c :=
  ⟨0, Nat.le_refl 0, Nat.zero_le _, c.advance_zero.symm⟩

/-- A cursor that is `Ahead` by `n` bytes is `Ahead` by fewer. -/
theorem Ahead.mono (h : c.Ahead n c') (hle : m ≤ n) : c.Ahead m c' := by
  obtain ⟨k, hk, hrest, heq⟩ := h
  exact ⟨k, Nat.le_trans hle hk, hrest, heq⟩

/-- Two ways ahead make one, of both lengths. -/
theorem Ahead.trans (h : c.Ahead m c') (h' : c'.Ahead n c'') : c.Ahead (m + n) c'' := by
  obtain ⟨k, hk, hrest, rfl⟩ := h
  obtain ⟨l, hl, hrest', rfl⟩ := h'
  simp only [advance, List.length_drop] at hrest'
  exact ⟨k + l, Nat.add_le_add hk hl, by omega, advance_advance c k l⟩

/-- `size`, that of all the data, is the same further on. -/
theorem Ahead.size_eq (h : c.Ahead n c') : c'.size = c.size := by
  obtain ⟨k, -, -, rfl⟩ := h
  rfl

/-- `Sound` cursors stay so: `Ahead` never goes beyond the end. -/
theorem Ahead.sound (h : c.Ahead n c') (hc : c.Sound) : c'.Sound := by
  obtain ⟨k, -, hrest, rfl⟩ := h
  simp only [Sound, advance, List.length_drop] at hc ⊢
  omega

/-- The offset grows by `n` at least. -/
theorem Ahead.le_offset (h : c.Ahead n c') : c.offset + n ≤ c'.offset := by
  obtain ⟨k, hk, -, rfl⟩ := h
  exact Nat.add_le_add_left hk c.offset

/-- A `Sound` cursor is not beyond the end. -/
theorem Sound.offset_le (h : c.Sound) : c.offset ≤ c.size :=
  Nat.le.intro h

variable {data : List UInt8} {offset : Nat}

/-- `ofBytes` is `Sound` if its offset is in the data. -/
theorem sound_ofBytes (h : offset ≤ data.length) : (ofBytes data offset).Sound := by
  simp only [Sound, ofBytes, List.length_drop]
  omega

/-- A place further on in some bytes is the one that `ofBytes` gives for its offset. -/
theorem Ahead.eq_ofBytes (h : (ofBytes data offset).Ahead n c) : c = ofBytes data c.offset := by
  obtain ⟨k, -, -, rfl⟩ := h
  rw [advance_ofBytes]
  rfl

/-- To `extend` a cursor on some data is to put more behind that data. -/
theorem extend_ofBytes (h : offset ≤ data.length) (more : List UInt8) :
    (ofBytes data offset).extend more = ofBytes (data ++ more) offset := by
  simp [extend, ofBytes, List.drop_append_of_le_length h]

end Cursor

namespace Read

variable {α β : Type} {r : Read α} {f : α → Read β} {m n : Nat}

/-- The error says that bytes are missing from those of `c`, and that at least one is. -/
def Misses (c : Cursor) (e : WireError) : Prop :=
  ∃ expected, c.size < expected ∧ e = .tooShort expected c.size

/-- A reader that moves only over bytes that are there, over `least` of them at least when it
    succeeds, and that more bytes behind the last one change only where it misses some. -/
structure Local (least : Nat) (r : Read α) : Prop where
  /-- It would have read the same from more bytes. -/
  ok : ∀ {c c' : Cursor} {x : α}, r c = .ok x c' →
    c.Ahead least c' ∧ ∀ more, r (c.extend more) = .ok x (c'.extend more)
  /-- It would have failed in the same way, or says that bytes are missing. -/
  error : ∀ {c c' : Cursor} {e : WireError}, c.Sound → r c = .error e c' →
    c.Ahead 0 c' ∧ (Misses c e ∨ ∀ more, r (c.extend more) = .error e (c'.extend more))

/-! ### Sequences -/

/-- A reader that takes `n` bytes takes fewer also. -/
theorem Local.mono (h : Local n r) (hle : m ≤ n) : Local m r where
  ok hr := ⟨(h.ok hr).1.mono hle, (h.ok hr).2⟩
  error hc hr := h.error hc hr

/-- `pure` is `Local`: it stays where it is, and nothing matters to it. -/
theorem local_pure (x : α) : Local 0 (pure x : Read α) where
  ok hr := by
    cases hr
    exact ⟨Cursor.ahead_refl _, fun _ => rfl⟩
  error _ hr := by cases hr

/-- `throw` is `Local`: it stays where it is, whatever follows. -/
theorem local_throw (n : Nat) (e : WireError) : Local n (throw e : Read α) where
  ok hr := by cases hr
  error _ hr := by
    cases hr
    exact ⟨Cursor.ahead_refl _, .inr fun _ => rfl⟩

/-- What a reader does next may depend on where it is, which `get` tells, but on nothing else of
    the cursor. -/
theorem local_get_bind {f : Cursor → Read α} (hoffset : ∀ c c', c.offset = c'.offset → f c = f c')
    (h : ∀ c, Local n (f c)) : Local n (get >>= f) where
  ok {c c' x} hr := by
    obtain ⟨hahead, hmore⟩ := (h c).ok hr
    refine ⟨hahead, fun more => ?_⟩
    show f (c.extend more) (c.extend more) = _
    -- `f` answers alike for both cursors, as they have one offset
    rw [hoffset _ c (c.offset_extend more)]
    exact hmore more
  error {c c' e} hc hr := by
    obtain ⟨hahead, hmore⟩ := (h c).error hc hr
    refine ⟨hahead, hmore.imp_right fun hmore more => ?_⟩
    show f (c.extend more) (c.extend more) = _
    rw [hoffset _ c (c.offset_extend more)]
    exact hmore more

/-- `Local` readers one after the other are `Local`, and take the bytes of both. This is the step
    of every reader that is put together from others. -/
theorem Local.bind (hr : Local m r) (hf : ∀ x, Local n (f x)) : Local (m + n) (r >>= f) where
  ok {c c' y} h := by
    rw [bind_apply] at h
    -- the second reader runs only where the first one has succeeded
    cases hrc : r c with
    | error e d => rw [hrc] at h; cases h
    | ok x d =>
      rw [hrc] at h
      obtain ⟨hahead, hmore⟩ := hr.ok hrc
      obtain ⟨hahead', hmore'⟩ := (hf x).ok h
      refine ⟨hahead.trans hahead', fun more => ?_⟩
      rw [bind_apply, hmore]
      exact hmore' more
  error {c c' e} hc h := by
    rw [bind_apply] at h
    cases hrc : r c with
    | error e' d =>
      rw [hrc] at h
      cases h
      obtain ⟨hahead, hmore⟩ := hr.error hc hrc
      refine ⟨hahead, hmore.imp_right fun hmore more => ?_⟩
      rw [bind_apply, hmore]
    | ok x d =>
      rw [hrc] at h
      obtain ⟨hahead, hmore⟩ := hr.ok hrc
      obtain ⟨hahead', hmore'⟩ := (hf x).error (hahead.sound hc) h
      -- both stand ahead of `c`, and the second one has failed, as it would in front of more
      -- bytes
      refine ⟨(hahead.trans hahead').mono (Nat.zero_le _), hmore'.imp ?_ ?_⟩
      · rintro ⟨expected, hlt, rfl⟩
        rw [hahead.size_eq] at hlt ⊢
        exact ⟨expected, hlt, rfl⟩
      · intro hmore' more
        rw [bind_apply, hmore]
        exact hmore' more

/-- A reader that goes on with one that need not take any bytes: `Local.bind` with `n + 0`. -/
theorem Local.map (hr : Local n r) (hf : ∀ x, Local 0 (f x)) : Local n (r >>= f) :=
  hr.bind hf

/-! ### Bytes -/

/-- A reader of the next `n` bytes, which may reject them, is `Local`: it is too short by its own
    account, or does not look at what comes behind these bytes. -/
theorem local_of_bytes (accept : List UInt8 → Except WireError α)
    (hr : ∀ c, r c = if (c.rest.take n).length = n then
        (match accept (c.rest.take n) with
          | .ok x => .ok x (c.advance n)
          | .error e => .error e c)
      else .error (.tooShort (c.offset + n) c.size) c) : Local n r := by
  constructor
  · intro c c' x h
    rw [hr] at h
    split at h
    · next hlen =>
      have hle : n ≤ c.rest.length := by
        rw [List.length_take] at hlen
        omega
      cases hx : accept (c.rest.take n) with
      | error e => rw [hx] at h; cases h
      | ok y =>
        rw [hx] at h
        cases h
        refine ⟨Cursor.ahead_advance hle, fun more => ?_⟩
        rw [hr, Cursor.take_rest_extend hle, if_pos hlen, hx, Cursor.advance_extend hle]
    · cases h
  · intro c c' e hc h
    rw [hr] at h
    split at h
    · next hlen =>
      have hle : n ≤ c.rest.length := by
        rw [List.length_take] at hlen
        omega
      cases hx : accept (c.rest.take n) with
      | ok y => rw [hx] at h; cases h
      | error e =>
        rw [hx] at h
        cases h
        -- rejected bytes are rejected again, for they are the same ones
        refine ⟨Cursor.ahead_refl c, .inr fun more => ?_⟩
        rw [hr, Cursor.take_rest_extend hle, if_pos hlen, hx]
    · next hlen =>
      cases h
      have hlt : c.rest.length < n := by
        simp only [List.length_take] at hlen
        omega
      -- fewer than `n` bytes are left, so the place it asks for is beyond the end
      refine ⟨Cursor.ahead_refl c, .inl ⟨c.offset + n, ?_, rfl⟩⟩
      simp only [Cursor.Sound] at hc
      omega

/-- `bytes` accepts every `n` bytes. -/
theorem local_bytes (n : Nat) : Local n (bytes n) :=
  local_of_bytes .ok fun _ => rfl

/-- `byte` reads as `local_of_bytes` has it, with one byte that is always accepted. -/
theorem local_byte : Local 1 byte :=
  -- there is a first byte among one byte
  local_of_bytes (fun bs => bs.head?.elim (.error (.tooShort 0 0)) .ok) fun c => by
    unfold byte
    cases c.rest <;> rfl

/-! ### Repetitions -/

/-- `manyFrom` takes as many bytes as `count` items do: by induction on `count`, with
    `Local.bind`. -/
theorem local_manyFrom {item : Read α} (h : Local n item) (done : List α) (count : Nat) :
    Local (count * n) (manyFrom item done count) := by
  induction count generalizing done with
  | zero =>
    rw [Nat.zero_mul]
    exact local_pure done.reverse
  | succ count ih =>
    rw [Nat.succ_mul, Nat.add_comm]
    exact h.bind fun x => ih (x :: done)

/-- `many` starts with no item read, so this is `local_manyFrom`. -/
theorem local_many {item : Read α} (h : Local n item) (count : Nat) :
    Local (count * n) (many item count) :=
  local_manyFrom h [] count

/-! ### Offsets -/

/-- The verdict is that bytes are missing. -/
def IsShort (verdict : Except WireError α) : Prop :=
  ∃ expected actual, verdict = .error (.tooShort expected actual)

variable {data : List UInt8} {offset : Nat}

/-- A reader stops no earlier than it starts, and no later than the bytes end: `Ahead` has both
    bounds, whether the reader succeeds or not. -/
theorem Local.runAt_bounds (h : Local n r) (hle : offset ≤ data.length) :
    offset ≤ (r.runAt data offset).2 ∧ (r.runAt data offset).2 ≤ data.length ∧
      ∀ x, (r.runAt data offset).1 = .ok x → offset + n ≤ (r.runAt data offset).2 := by
  have hsound := Cursor.sound_ofBytes hle
  unfold runAt
  cases hr : r (Cursor.ofBytes data offset) with
  | ok x c =>
    have hahead := (h.ok hr).1
    have hend := (hahead.sound hsound).offset_le
    rw [hahead.size_eq] at hend
    exact ⟨(hahead.mono (Nat.zero_le n)).le_offset, hend, fun _ _ => hahead.le_offset⟩
  | error e c =>
    have hahead := (h.error hsound hr).1
    have hend := (hahead.sound hsound).offset_le
    rw [hahead.size_eq] at hend
    exact ⟨hahead.le_offset, hend, fun _ hx => nomatch hx⟩

/-- Either the bytes end too early for a reader, and it says so with `tooShort`, or what follows
    them does not matter to it. -/
theorem Local.runAt_short_or (h : Local n r) (hle : offset ≤ data.length) :
    (∃ expected, data.length < expected ∧
        (r.runAt data offset).1 = .error (.tooShort expected data.length)) ∨
      ∀ more, r.runAt (data ++ more) offset = r.runAt data offset := by
  unfold runAt
  cases hr : r (Cursor.ofBytes data offset) with
  | ok x c =>
    refine .inr fun more => ?_
    rw [← Cursor.extend_ofBytes hle, (h.ok hr).2 more]
    rfl
  | error e c =>
    rcases (h.error (Cursor.sound_ofBytes hle) hr).2 with ⟨expected, hlt, rfl⟩ | hmore
    · exact .inl ⟨expected, hlt, rfl⟩
    · refine .inr fun more => ?_
      rw [← Cursor.extend_ofBytes hle, hmore more]
      rfl

/-- Only the verdict `IsShort` can change when more bytes follow. -/
theorem Local.runAt_append (h : Local n r) (hle : offset ≤ data.length)
    (hlong : ¬ IsShort (r.runAt data offset).1) (more : List UInt8) :
    r.runAt (data ++ more) offset = r.runAt data offset := by
  rcases h.runAt_short_or hle with ⟨expected, -, hshort⟩ | hmore
  · exact absurd ⟨expected, _, hshort⟩ hlong
  · exact hmore more

/-- Bytes that end before the place where a reader stops, whatever its verdict, are too short for
    it, and it says so: by `runAt_short_or`, as with the bytes behind them it would go on. -/
theorem Local.runAt_take (h : Local n r) {k : Nat} (hle : offset ≤ k)
    (hk : k < (r.runAt data offset).2) (hdata : offset ≤ data.length) :
    ∃ expected, k < expected ∧
      (r.runAt (data.take k) offset).1 = .error (.tooShort expected k) := by
  have hlen : (data.take k).length = k := by
    have := (h.runAt_bounds hdata).2.1
    rw [List.length_take]
    omega
  have hle' : offset ≤ (data.take k).length := by omega
  rcases h.runAt_short_or hle' with hshort | hmore
  · rwa [hlen] at hshort
  · -- otherwise the reader would have stopped among the first bytes of all of them
    have hsame := hmore (data.drop k)
    have hend := (h.runAt_bounds hle').2.1
    rw [List.take_append_drop] at hsame
    rw [hsame] at hk
    omega

end Read

end EventReporter
