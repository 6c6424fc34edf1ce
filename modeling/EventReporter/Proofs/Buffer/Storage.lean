import EventReporter.Buffer.Storage
import EventReporter.Proofs.Buffer.History
namespace EventReporter.Storage

/-!
# Buffers have room for their bytes

A block is never smaller than its bytes, and smaller than half of all addresses, so that twice its
size is a machine number. A larger block is no smaller than the bytes that are there, and has room
for those that are added. So a storage does what its buffer does, unless memory runs out.

* `Sound` : the invariant.
* `Sound.append_of_fits`, `Sound.update_of_fits` : operations that happen in full.
* `Sound.perform`, `Sound.run` : one turn, and any number of them.
* `bounded_list` : the laws of a bounded list, for every history.
-/

variable {s s' : Storage} {bs : List UInt8} {n offset spare : Nat}

/-! ### What is done after something else -/

section Bind

variable {α β : Type} {m : Work α} {x : α} {e : WireError} {halted : Halt}

/-- A machine number that exists is handed on. -/
theorem liftM_ok_bind (x : α) (f : α → Work β) :
    (liftM (Except.ok x : Except Halt α) : Work α) >>= f = f x :=
  rfl

/-- After something that is done, `Work` goes on with its result, from where it has ended. -/
theorem bind_of_ok (h : m s = .ok (.ok x, s')) (f : α → Work β) : (m >>= f) s = f x s' := by
  show (m s).bind _ = _
  rw [h]
  rfl

/-- After a refusal nothing more is done, and what has been done stays. -/
theorem bind_of_refused (h : m s = .ok (.error e, s')) (f : α → Work β) :
    (m >>= f) s = .ok (.error e, s') := by
  show (m s).bind _ = _
  rw [h]
  rfl

/-- After a halt there is nothing to go on from. -/
theorem bind_of_halted (h : m s = .error halted) (f : α → Work β) :
    (m >>= f) s = .error halted := by
  show (m s).bind _ = _
  rw [h]
  rfl

end Bind

/-! ### Numbers and blocks -/

/-- `sum` has a result that is a machine number. -/
theorem sum_of_lt {a b : Nat} (h : a + b < Width.w64.count) : sum a b = .ok (a + b) := by
  rw [sum, Guarded.sum?_of_lt h]
  rfl

/-- `product` has a result that is a machine number. -/
theorem product_of_lt {a b : Nat} (h : a * b < Width.w64.count) : product a b = .ok (a * b) :=
  if_pos h

/-- `difference` has a result if it is not negative. -/
theorem difference_of_le {a b : Nat} (h : b ≤ a) : difference a b = .ok (a - b) :=
  if_pos h

/-- `block` finds room for less bytes than half of all addresses. -/
theorem block_of_lt (h : n + spare < Width.w64.half) : block n spare = .ok (n + spare) :=
  if_pos h

/-- `block` finds none of half of all addresses or more: this is how memory runs out. -/
theorem block_of_ge (h : Width.w64.half ≤ n + spare) :
    block n spare = .error (.exhausted (n + spare)) :=
  if_neg (Nat.not_lt_of_le h)

/-! ### Storages with enough room -/

/-- A storage has room for its bytes, and it is one that a machine can have. -/
structure Sound (s : Storage) : Prop where
  size_le_limit : s.buffer.size ≤ s.buffer.limit
  size_le_capacity : s.buffer.size ≤ s.capacity
  capacity_lt : s.capacity < Width.w64.half
  limit_lt : s.buffer.limit < Width.w64.count

/-- The size of the block in which `n` more bytes are added. -/
def grown (s : Storage) (n spare : Nat) : Nat :=
  if s.capacity < s.buffer.size + n then
    target s.buffer.limit (s.capacity * 2) (s.buffer.size + n) + spare
  else s.capacity

/-- The size of a larger block, `target`, is as many bytes as are needed, if these keep to the
    limit. -/
theorem le_target {limit needed : Nat} (doubled : Nat) (h : needed ≤ limit) :
    needed ≤ target limit doubled needed :=
  Nat.le_min.mpr ⟨Nat.le_max_right _ _, h⟩

/-- `target` is never more than the limit. -/
theorem target_le (limit doubled needed : Nat) : target limit doubled needed ≤ limit :=
  Nat.min_le_right _ _

/-- There is room for `n` more bytes in the block that is `grown` for them. -/
theorem le_grown (hfits : s.buffer.size + n ≤ s.buffer.limit) (spare : Nat) :
    s.buffer.size + n ≤ s.grown n spare := by
  rw [grown]
  split
  · exact Nat.le_add_right_of_le (le_target _ hfits)
  · next hroom => exact Nat.le_of_not_lt hroom

/-- Memory runs out only if a limit or what is given on top of it is too large for it. -/
theorem Sound.grown_le (h : s.Sound) (hlarge : Width.w64.half ≤ s.grown n spare) :
    s.grown n spare ≤ s.buffer.limit + spare := by
  have hcapacity := h.capacity_lt
  rw [grown] at hlarge ⊢
  split at hlarge
  · next hgrows =>
    rw [if_pos hgrows]
    exact Nat.add_le_add_right (target_le ..) spare
  · omega

/-- What `reserve` does where there is not enough room: it asks for a `block` of all bytes
    together. -/
theorem reserve_of_lt (hgrows : s.capacity < s.buffer.size + n) (spare : Nat) :
    reserve n spare s =
      (block (s.buffer.size + n) spare).map fun capacity => (.ok (), { s with capacity }) := by
  show (if s.capacity < s.buffer.size + n then _ else _ : Work Unit) s = _
  rw [if_pos hgrows]
  cases block (s.buffer.size + n) spare <;> rfl

/-- What `extend` does where there is enough: it springs no trap. -/
theorem extend_of_le (h : s.buffer.size + bs.length ≤ s.capacity) :
    extend bs s = .ok (.ok (), { s with buffer := s.buffer.extended bs }) := by
  show (if s.buffer.size + bs.length ≤ s.capacity then _ else _ : Work Unit) s = _
  rw [if_pos h]
  rfl

/-- Bytes are added in a larger block, unless there is none of that size (`reserve_of_lt`,
    `extend_of_le`). -/
theorem reserve_extend {size : Nat} (hgrows : s.capacity < s.buffer.size + bs.length)
    (hsize : s.buffer.size + bs.length ≤ size) (spare : Nat) :
    (reserve (size - s.buffer.size) spare >>= fun _ => extend bs) s =
      if size + spare < Width.w64.half then .ok (.ok (), ⟨s.buffer.extended bs, size + spare⟩)
      else .error (.exhausted (size + spare)) := by
  have hmore : s.buffer.size + (size - s.buffer.size) = size := by omega
  have hreserve := reserve_of_lt (s := s) (n := size - s.buffer.size) (by omega) spare
  rw [hmore] at hreserve
  split
  · next hlt =>
    rw [block_of_lt hlt] at hreserve
    rw [bind_of_ok hreserve]
    exact extend_of_le (Nat.le_add_right_of_le hsize)
  · next hlarge =>
    rw [block_of_ge (Nat.le_of_not_lt hlarge)] at hreserve
    exact bind_of_halted hreserve _

/-! ### Operations -/

/-- `append` refuses bytes that do not keep to the limit, and leaves the storage as it is. -/
theorem append_of_overflow (h : s.buffer.remaining < bs.length) (spare : Nat) :
    append bs spare s = .ok (.error (.overflow bs.length s.buffer.remaining), s) := by
  show (if s.buffer.remaining < bs.length then _ else _ : Work Unit) s = _
  rw [if_pos h]
  rfl

/-- Bytes that fit are added by `append` in a block with room for them, `grown` if necessary,
    unless there is none of its size. None of the machine numbers on the way is missing. -/
theorem Sound.append_of_fits (h : s.Sound)
    (hfits : s.buffer.size + bs.length ≤ s.buffer.limit) (spare : Nat) :
    append bs spare s =
      if s.grown bs.length spare < Width.w64.half then
        .ok (.ok (), ⟨s.buffer.extended bs, s.grown bs.length spare⟩)
      else .error (.exhausted (s.grown bs.length spare)) := by
  have hroom : ¬ s.buffer.remaining < bs.length := by
    rw [Buffer.remaining]
    omega
  have hneeded := sum_of_lt (Nat.lt_of_le_of_lt hfits h.limit_lt)
  show (if s.buffer.remaining < bs.length then _ else _ : Work Unit) s = _
  rw [if_neg hroom, hneeded, liftM_ok_bind, grown]
  show (if s.capacity < s.buffer.size + bs.length then _ else _ : Work Unit) s = _
  split
  · next hgrows =>
    -- a block is smaller than half of all addresses, so that it can be doubled
    have hcapacity := h.capacity_lt
    have hdoubled : product s.capacity 2 = .ok (s.capacity * 2) := by
      refine product_of_lt ?_
      rw [Width.count_eq_half_add_half]
      omega
    have htarget := le_target (s.capacity * 2) hfits
    have hmore := difference_of_le (Nat.le_of_add_right_le htarget)
    rw [hdoubled, liftM_ok_bind, hmore, liftM_ok_bind]
    exact reserve_extend hgrows htarget spare
  · next hkept =>
    -- there is enough room already, in a block that exists
    rw [if_pos h.capacity_lt]
    exact extend_of_le (Nat.le_of_not_lt hkept)

/-- `update` refuses to write over bytes that are not there, also where the sum of the offset and
    their number is no machine number. -/
theorem update_of_overrun (h : s.buffer.size < offset + bs.length) :
    update offset bs s
      = .ok (.error (.updateOutOfRange offset bs.length s.buffer.size), s) := by
  -- either there is no such number, or it is too large
  have hnone : (Guarded.sum? .w64 offset bs.length).filter (· ≤ s.buffer.size) = none := by
    rw [Guarded.sum?]
    split
    · exact Option.filter_some_neg (by simpa using h)
    · rfl
  show (orRefuse ((Guarded.sum? .w64 offset bs.length).filter (· ≤ s.buffer.size)) _ >>= _ :
    Work Unit) s = _
  rw [hnone]
  rfl

/-- Bytes are written over others by `update`, if there are as many, as `Buffer.overwrite` does
    it. -/
theorem Sound.update_of_fits (h : s.Sound) (hfits : offset + bs.length ≤ s.buffer.size) :
    update offset bs s =
      .ok (.ok (), { s with
        buffer := s.buffer.withBytes (Buffer.overwrite s.buffer.toList offset bs) }) := by
  have hlimit := h.size_le_limit
  have hmachine := h.limit_lt
  have hstop : (Guarded.sum? .w64 offset bs.length).filter (· ≤ s.buffer.size)
      = some (offset + bs.length) := by
    rw [Guarded.sum?_of_lt (by omega)]
    exact Option.filter_some_pos (by simpa using hfits)
  have hplace : offset ≤ offset + bs.length ∧ offset + bs.length ≤ s.buffer.size ∧
      offset + bs.length = offset + bs.length :=
    ⟨Nat.le_add_right _ _, hfits, rfl⟩
  have hlength : offset + bs.length ≤ s.buffer.toList.length := s.buffer.length_toList ▸ hfits
  show (orRefuse ((Guarded.sum? .w64 offset bs.length).filter (· ≤ s.buffer.size)) _ >>= _ :
    Work Unit) s = _
  rw [hstop, ← Buffer.take_append_drop_eq_overwrite hlength]
  show (if _ then _ else _ : Work Unit) s = _
  rw [if_pos hplace]
  rfl

/-! ### One turn -/

/-- How a turn ends that is to leave a given answer and a given buffer: with these, and in a sound
    storage that is the old one after a refusal, or because memory runs out. -/
inductive Ends (s : Storage) (spare : Nat) (expected : Buffer.Answer × Buffer) :
    Except Halt (Buffer.Answer × Storage) → Prop
  /-- It is done. -/
  | done {capacity : Nat} (hsound : Sound ⟨expected.2, capacity⟩)
    (hkept : ∀ e, expected.1 = .error e → capacity = s.capacity) :
    Ends s spare expected (.ok (expected.1, ⟨expected.2, capacity⟩))
  /-- There is no block that is large enough. -/
  | exhausted {n : Nat} (hlarge : Width.w64.half ≤ n) (hle : n ≤ s.buffer.limit + spare) :
    Ends s spare expected (.error (.exhausted n))

/-- The storage after `Sound.append_of_fits` is sound: its block is `grown` for the bytes. -/
theorem Sound.extended (h : s.Sound) (hfits : s.buffer.size + bs.length ≤ s.buffer.limit)
    (hblock : s.grown bs.length spare < Width.w64.half) :
    Sound ⟨s.buffer.extended bs, s.grown bs.length spare⟩ where
  size_le_limit := by rwa [Buffer.size_extended, Buffer.limit_extended]
  size_le_capacity := by
    rw [Buffer.size_extended]
    exact le_grown hfits spare
  capacity_lt := hblock
  limit_lt := h.limit_lt

/-- No more bytes than before, for which there is still room. -/
theorem Sound.withBytes {bytes : List UInt8} {capacity : Nat} (h : s.Sound)
    (hsize : bytes.length ≤ s.buffer.size) (hroom : bytes.length ≤ capacity)
    (hcapacity : capacity ≤ s.capacity) : Sound ⟨s.buffer.withBytes bytes, capacity⟩ where
  size_le_limit := Nat.le_trans hsize h.size_le_limit
  size_le_capacity := hroom
  capacity_lt := Nat.lt_of_le_of_lt hcapacity h.capacity_lt
  limit_lt := h.limit_lt

/-- Adding bytes ends as it does for the buffer: refused, or done in a sound storage, unless
    memory runs out. -/
theorem Sound.ends_append (h : s.Sound) (bs : List UInt8) (spare : Nat) :
    Ends s spare (s.buffer.goesOn (s.buffer.append bs))
      ((append bs spare >>= fun _ => pure []) s) := by
  have hsize := h.size_le_limit
  have hremaining : s.buffer.remaining = s.buffer.limit - s.buffer.size := rfl
  rcases Nat.lt_or_ge s.buffer.remaining bs.length with hover | hfits
  · rw [bind_of_refused (append_of_overflow hover spare), Buffer.append_of_overflow hover]
    exact .done h fun _ _ => rfl
  · have hwithin : s.buffer.size + bs.length ≤ s.buffer.limit := by omega
    have happend := h.append_of_fits hwithin spare
    rw [Buffer.append_of_fits hfits]
    split at happend
    · next hblock =>
      rw [bind_of_ok happend]
      exact .done (h.extended hwithin hblock) nofun
    · next hnone =>
      rw [bind_of_halted happend]
      have hlarge := Nat.le_of_not_lt hnone
      -- the block would be too large, by its limit or by what is given on top
      exact .exhausted hlarge (h.grown_le hlarge)

/-- Writing over bytes ends as it does for the buffer, and the block is neither larger nor
    smaller. -/
theorem Sound.ends_update (h : s.Sound) (offset : Nat) (bs : List UInt8) (spare : Nat) :
    Ends s spare (s.buffer.goesOn (s.buffer.update offset bs))
      ((update offset bs >>= fun _ => pure []) s) := by
  rcases Nat.lt_or_ge s.buffer.size (offset + bs.length) with hover | hfits
  · rw [bind_of_refused (update_of_overrun hover), Buffer.update_of_overrun hover]
    exact .done h fun _ _ => rfl
  · rw [bind_of_ok (h.update_of_fits hfits), Buffer.update_of_fits hfits]
    have hlength : (Buffer.overwrite s.buffer.toList offset bs).length = s.buffer.size := by
      rw [Buffer.length_overwrite, Buffer.length_toList]
    exact .done (h.withBytes (by omega) (hlength ▸ h.size_le_capacity) (Nat.le_refl _)) nofun

/-- A turn does to the buffer what its operation does, unless memory runs out. One case for each
    operation. -/
theorem Sound.perform (h : s.Sound) (t : Turn) :
    Ends s t.spare (s.buffer.step t.op) (perform t s) := by
  obtain ⟨op, spare⟩ := t
  cases op with
  | append bs => exact h.ends_append bs spare
  | appendByte x => exact h.ends_append [x] spare
  | update offset bs => exact h.ends_update offset bs spare
  | reset =>
    exact .done (h.withBytes (Nat.zero_le _) (Nat.zero_le _) (Nat.le_refl _)) nofun
  | take =>
    show Ends s spare _ ((liftM (difference s.capacity s.buffer.size) >>= _ : Work _) s)
    rw [difference_of_le h.size_le_capacity, liftM_ok_bind]
    exact .done (h.withBytes (Nat.zero_le _) (Nat.zero_le _) (Nat.sub_le _ _)) nofun
  | copy => exact .done h nofun

/-- A refusal leaves a storage as it was: its buffer by `Buffer.step_of_refused`, and its block by
    `Sound.perform`. -/
theorem Sound.eq_of_refused (h : s.Sound) {t : Turn} {e : WireError}
    (hrefused : Storage.perform t s = .ok (.error e, s')) : s' = s := by
  have hends := h.perform t
  rw [hrefused] at hends
  -- the answer is that of the buffer, which was refused as well
  generalize hanswer : (Except.error e : Buffer.Answer) = answer at hends
  cases hends with
  | done hsound hkept =>
    rw [hkept e hanswer.symm, Buffer.step_of_refused hanswer.symm]

/-! ### Any number of turns -/

/-- The buffer of a sound storage holds its own bytes, below its own limit. -/
theorem Sound.holds (h : s.Sound) : s.buffer.Holds s.buffer.limit s.buffer.toList :=
  ⟨rfl, rfl, by rw [Buffer.length_toList]; exact h.size_le_limit⟩

/-- Turns do to the buffer what their operations do, unless memory runs out. By induction on the
    turns, for every sound storage, with `Sound.perform` for each. -/
theorem Sound.run (h : s.Sound) (turns : List Turn) :
    let expected := s.buffer.run (turns.map Turn.op)
    (∃ capacity, Storage.run s turns = .ok (expected.1, ⟨expected.2, capacity⟩) ∧
        Sound ⟨expected.2, capacity⟩) ∨
      ∃ n, Storage.run s turns = .error (.exhausted n) ∧ Width.w64.half ≤ n ∧
        ∃ extra ∈ turns.map Turn.spare, n ≤ s.buffer.limit + extra := by
  -- on the turns, for every sound storage
  induction turns generalizing s with
  | nil => exact .inl ⟨s.capacity, rfl, h⟩
  | cons t turns ih =>
    have hlimit := (h.holds.step t.op).2.limit_eq
    have hends := h.perform t
    show (∃ capacity, (Storage.perform t s).bind _ = _ ∧ _) ∨
      ∃ n, (Storage.perform t s).bind _ = _ ∧ _
    generalize Storage.perform t s = result at hends
    cases hends with
    | @done capacity hsound hkept =>
      -- the first turn is done, and the others go on from a sound storage
      rcases ih hsound with ⟨after, hrun, hend⟩ | ⟨n, hrun, hlarge, extra, hmem, hle⟩
      · refine .inl ⟨after, ?_, hend⟩
        show (Storage.run ⟨(s.buffer.step t.op).2, capacity⟩ turns).bind _ = _
        rw [hrun]
        rfl
      · refine .inr ⟨n, ?_, hlarge, extra, List.mem_cons_of_mem _ hmem, hlimit ▸ hle⟩
        show (Storage.run ⟨(s.buffer.step t.op).2, capacity⟩ turns).bind _ = _
        rw [hrun]
        rfl
    | exhausted hlarge hle =>
      exact .inr ⟨_, rfl, hlarge, t.spare, List.mem_cons_self, hle⟩

/-- A fresh storage is sound, if there is a block for it. -/
theorem sound_fresh {limit capacity : Nat} (hlimit : limit < Width.w64.count)
    (hcapacity : capacity < Width.w64.half) : Sound ⟨.empty limit, capacity⟩ where
  size_le_limit := Nat.zero_le _
  size_le_capacity := Nat.zero_le _
  capacity_lt := hcapacity
  limit_lt := hlimit

/-- `Sound.run` from a fresh storage, for which memory may run out as well. -/
theorem runFresh_cases {limit : Nat} (hlimit : limit < Width.w64.count) (spare : Nat)
    (turns : List Turn) :
    let expected := (Buffer.empty limit).run (turns.map Turn.op)
    (∃ capacity, runFresh limit spare turns = .ok (expected.1, ⟨expected.2, capacity⟩) ∧
        Sound ⟨expected.2, capacity⟩) ∨
      ∃ n, runFresh limit spare turns = .error (.exhausted n) ∧ Width.w64.half ≤ n ∧
        ∃ extra ∈ spare :: turns.map Turn.spare, n ≤ limit + extra := by
  intro expected
  rcases Nat.lt_or_ge (min freshBytes limit + spare) Width.w64.half with hlt | hlarge
  · have hfresh : fresh limit spare = .ok ⟨.empty limit, min freshBytes limit + spare⟩ := by
      rw [fresh, block_of_lt hlt]
      rfl
    rw [runFresh, hfresh]
    rcases (sound_fresh hlimit hlt).run turns with hdone | ⟨n, hrun, hn, extra, hmem, hle⟩
    · exact .inl hdone
    · exact .inr ⟨n, hrun, hn, extra, List.mem_cons_of_mem _ hmem, hle⟩
  · -- there is no block to begin with
    have hnone : fresh limit spare = .error (.exhausted (min freshBytes limit + spare)) := by
      rw [fresh, block_of_ge hlarge]
      rfl
    rw [runFresh, hnone]
    exact .inr ⟨_, rfl, hlarge, spare, List.mem_cons_self,
      Nat.add_le_add_right (Nat.min_le_right _ _) spare⟩

/-! ### The laws -/

/-- Whatever is done with a fresh buffer, its operations end as they do on a plain list, and it has
    the bytes of that list, which are never more than the limit. Bytes are added exactly if they fit
    below the limit, and written over others exactly if there are as many; what is refused changes
    nothing, and what is written leaves all other bytes as they were. In memory the same happens,
    with numbers and sizes of the machine: no number is missing, no block is too small for the bytes
    in it, the size of a larger one is never below what is there and makes room for what is added,
    and a refusal leaves the block as it was. Memory may only run out if the limit, with what is
    given on top of a block, is as much as half of all addresses. -/
theorem bounded_list (limit : Width.w64.Unsigned) (spare : Nat) (turns : List Turn) :
    let ops := turns.map Turn.op
    let answers := (Buffer.listRun limit ops).1
    let bytes := (Buffer.listRun limit ops).2
    let b := ((Buffer.empty limit).run ops).2
    (((Buffer.empty limit).run ops).1 = answers ∧ b.toList = bytes ∧ b.size = bytes.length ∧
        bytes.length ≤ limit ∧ b.remaining = limit - bytes.length) ∧
      (∀ bs, (b.append bs).isOk = true ↔ bytes.length + bs.length ≤ limit) ∧
      (∀ offset bs, (b.update offset bs).isOk = true ↔ offset + bs.length ≤ bytes.length) ∧
      (∀ op e, (b.step op).1 = .error e → (b.step op).2 = b) ∧
      (∀ offset bs b', b.update offset bs = .ok b' →
        b'.size = b.size ∧
          ∀ i, b'.toList[i]?
            = if offset ≤ i ∧ i < offset + bs.length then bs[i - offset]? else bytes[i]?) ∧
      ((∃ s, runFresh limit spare turns = .ok (answers, s) ∧ s.buffer = b ∧
          bytes.length ≤ s.capacity ∧
          (∀ n, bytes.length + n ≤ limit →
            let size := target limit (s.capacity * 2) (bytes.length + n)
            s.capacity * 2 < Width.w64.count ∧ bytes.length ≤ size ∧
              n ≤ size - bytes.length ∧ size ≤ limit) ∧
          ∀ t e s', perform t s = .ok (.error e, s') → s' = s) ∨
        ∃ n, runFresh limit spare turns = .error (.exhausted n) ∧ Width.w64.half ≤ n ∧
          ∃ extra ∈ spare :: turns.map Turn.spare, n ≤ limit + extra) := by
  intro ops answers bytes b
  obtain ⟨hanswers, hholds⟩ := (Buffer.holds_empty limit).run ops
  refine ⟨⟨hanswers, hholds.toList_eq, hholds.size_eq, hholds.length_le, hholds.remaining_eq⟩,
    fun bs => hholds.append_isOk_iff, fun offset bs => hholds.update_isOk_iff,
    fun op e => Buffer.step_of_refused, fun offset bs b' hupdate => ?_, ?_⟩
  · obtain ⟨hsize, hbytes⟩ := Buffer.getElem?_update hupdate
    rw [hholds.toList_eq] at hbytes
    exact ⟨hsize, hbytes⟩
  · rcases runFresh_cases limit.isLt spare turns with ⟨capacity, hrun, hsound⟩ | hexhausted
    · rw [hanswers] at hrun
      have hheld := hsound.size_le_capacity
      rw [hholds.size_eq] at hheld
      refine .inl ⟨_, hrun, rfl, hheld, fun n hfits => ?_, fun t e s' => hsound.eq_of_refused⟩
      -- twice the size of a block is a machine number, and a larger one has room for more
      have hneeded := le_target (capacity * 2) hfits
      have hlt := hsound.capacity_lt
      have hcount := Width.w64.count_eq_half_add_half
      exact ⟨by omega, Nat.le_of_add_right_le hneeded, Nat.le_sub_of_add_le' hneeded, target_le ..⟩
    · exact .inr hexhausted

/-- Bytes are added to a buffer for six bytes, until it is emptied, and then again. -/
def sampleTurns : List Turn :=
  [⟨.append [1, 2, 3, 4], 0⟩, ⟨.update 1 [9, 8], 0⟩, ⟨.append [5, 6, 7], 0⟩,
    ⟨.update (Width.w64.count - 1) [7], 0⟩, ⟨.take, 0⟩, ⟨.append [5, 6, 7], 1⟩, ⟨.appendByte 8, 0⟩,
    ⟨.append [10], 2⟩, ⟨.append [], 0⟩, ⟨.copy, 0⟩]

/-- The storage after that: the block is full, but not the buffer. -/
def sampleStorage : Storage :=
  ⟨⟨#[5, 6, 7, 8, 10], 6⟩, 5⟩

/-- `bounded_list` for these turns. They are answered as on a list, and so are one more byte, two
    more bytes, for which there is no room, and two bytes in place of others. -/
theorem bounded_list_sampleTurns :
    runFresh 6 0 sampleTurns
        = .ok ([.ok [], .ok [], .error (.overflow 3 2),
          .error (.updateOutOfRange 18446744073709551615 1 4), .ok [1, 9, 8, 4], .ok [], .ok [],
          .ok [], .ok [], .ok [5, 6, 7, 8, 10]], sampleStorage) ∧
      (sampleStorage.buffer.append [11]).isOk = true ∧
      ¬ (sampleStorage.buffer.append [11, 12]).isOk = true ∧
      (∃ e, (sampleStorage.buffer.step (.append [11, 12])).1 = .error e ∧
        (sampleStorage.buffer.step (.append [11, 12])).2 = sampleStorage.buffer) ∧
      (∃ b', sampleStorage.buffer.update 3 [0, 1] = .ok b' ∧ b'.size = 5 ∧
        b'.toList[2]? = some 7 ∧ b'.toList[4]? = some 1) ∧
      1 ≤ target 6 (sampleStorage.capacity * 2) 6 - 5 ∧
      ∃ e s', perform ⟨.append [11, 12], 0⟩ sampleStorage = .ok (.error e, s') ∧
        s' = sampleStorage := by
  obtain ⟨-, happend, -, hstep, hupdate, hmemory⟩ := bounded_list ⟨6, by decide⟩ 0 sampleTurns
  rcases hmemory with ⟨s, hrun, hbuffer, hroom, hgrowth, hrefused⟩ | ⟨n, hrun, -⟩
  · obtain rfl : s = sampleStorage := congrArg Prod.snd (Except.ok.inj hrun).symm
    rw [← hbuffer] at happend hstep hupdate
    have hfits : (sampleStorage.buffer.append [11]).isOk = true := (happend [11]).mpr (by decide)
    have hover : ¬ (sampleStorage.buffer.append [11, 12]).isOk = true :=
      fun h => absurd ((happend [11, 12]).mp h) (by decide)
    obtain ⟨hsize, hbytes⟩ := hupdate 3 [0, 1] _ rfl
    have hmore := (hgrowth 1 (by decide)).2.2.1
    have hkept := hrefused ⟨.append [11, 12], 0⟩ (.overflow 2 1) _ rfl
    exact ⟨hrun, hfits, hover, ⟨_, rfl, hstep _ _ rfl⟩, ⟨_, rfl, hsize, hbytes 2, hbytes 4⟩, hmore,
      _, _, rfl, hkept⟩
  · cases hrun

end EventReporter.Storage
