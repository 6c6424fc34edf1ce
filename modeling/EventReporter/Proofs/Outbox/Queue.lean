import EventReporter.Library
import EventReporter.Outbox.History
import EventReporter.Proofs.Outbox
namespace EventReporter.Outbox

/-!
# Outboxes are queues

Whatever is done with an outbox, each record that was put into it waits, or was taken, or had to
make room. As long as none is put back, records leave it in the order in which they came, so that
those that wait are the last ones that came. A record that is put back is the first one again,
however many have come in the meantime.

* `push_eq`, `putBack_eq` : which records there is room for.
* `step_perm`, `append_given_of_step` : what an operation does with the records.
* `perm_departures`, `append_given` : what a history does with them.
* `first_in_first_out` : the laws of the queue, for every history.
-/

variable {α : Type} {q : Outbox α}

/-! ### Which records there is room for -/

/-- What `push` does as an equation on lists: of the records that wait and one that joins, the
    last ones stay. -/
theorem push_eq (h : q.size ≤ q.capacity) (x : α) :
    (q.push x).1 =
        { q with
          records := (q.records ++ [x]).drop (q.size + 1 - q.capacity)
          evicted := q.evicted + (q.size + 1 - q.capacity) } ∧
      (q.push x).2.toList = (q.records ++ [x]).take (q.size + 1 - q.capacity) := by
  unfold push
  split
  · next hzero =>
    -- nothing waits where there is no room
    have hsize : q.size = 0 := by omega
    have hnil : q.records = [] := List.eq_nil_of_length_eq_zero hsize
    rw [hsize, hzero, hnil]
    exact ⟨rfl, rfl⟩
  · split
    · next hroom =>
      -- there is room for all of them
      have hnone : q.size + 1 - q.capacity = 0 := by omega
      rw [hnone]
      exact ⟨rfl, rfl⟩
    · next hpos hfull =>
      -- the outbox is full, so that it has an oldest record, and this one goes
      have hone : q.size + 1 - q.capacity = 1 := by omega
      obtain ⟨y, rest, hrecords⟩ : ∃ y rest, q.records = y :: rest := by
        refine List.exists_cons_of_length_pos ?_
        show 0 < q.size
        omega
      rw [hone, hrecords]
      exact ⟨rfl, rfl⟩

/-- What `putBack` does: of a record that goes back and those that wait, the first ones stay. -/
theorem putBack_eq (h : q.size ≤ q.capacity) (x : α) :
    (q.putBack x).1 =
        { q with
          records := (x :: q.records).take q.capacity
          evicted := q.evicted + (q.size + 1 - q.capacity) } ∧
      (q.putBack x).2.toList = (x :: q.records).drop q.capacity := by
  unfold putBack
  split
  · next hzero =>
    have hsize : q.size = 0 := by omega
    have hnil : q.records = [] := List.eq_nil_of_length_eq_zero hsize
    rw [hsize, hzero, hnil]
    exact ⟨rfl, rfl⟩
  · split
    · next hroom =>
      -- there is room for all of them
      have hnone : q.size + 1 - q.capacity = 0 := by omega
      have hall : (x :: q.records).length ≤ q.capacity := hroom
      rw [hnone, List.take_of_length_le hall, List.drop_of_length_le hall]
      exact ⟨rfl, rfl⟩
    · next hpos hfull =>
      -- the outbox is full, so that it has a newest record, and this one goes
      have hone : q.size + 1 - q.capacity = 1 := by omega
      obtain ⟨rest, y, hrecords⟩ : ∃ rest y, q.records = rest ++ [y] := by
        refine (List.eq_nil_or_concat' q.records).resolve_left fun hnil => ?_
        have hsize : q.size = 0 := congrArg List.length hnil
        omega
      have hcapacity : q.capacity = (x :: rest).length := by
        have hsize : q.size = rest.length + 1 := by rw [size, hrecords, List.length_append]; rfl
        rw [List.length_cons]
        omega
      rw [hone, hrecords, List.dropLast_concat, List.getLast?_concat, hcapacity, ← List.cons_append,
        List.take_left, List.drop_left]
      exact ⟨rfl, rfl⟩

/-! ### One operation -/

/-- `pop?` takes the first record, and leaves the others. -/
theorem pop?_eq_some_iff {x : α} {q' : Outbox α} :
    q.pop? = some (x, q') ↔ ∃ rest, q.records = x :: rest ∧ q' = { q with records := rest } := by
  cases h : q.records with
  | nil =>
    rw [pop?_of_nil h]
    exact iff_of_false nofun nofun
  | cons y rest =>
    rw [pop?_of_cons h]
    simp [eq_comm]

/-- No operation changes the capacity. -/
theorem capacity_step (q : Outbox α) (op : Op α) : (q.step op).1.capacity = q.capacity := by
  cases op with
  | push x => exact capacity_push q x
  | pop =>
    cases h : q.records with
    | nil => rw [step_pop_of_nil h]
    | cons x rest => rw [step_pop_of_cons h]
  | putBack x => exact capacity_putBack q x

/-- Every operation keeps an outbox within its capacity, by `size_push_le` and
    `size_putBack_le`. -/
theorem size_step_le (h : q.size ≤ q.capacity) (op : Op α) : (q.step op).1.size ≤ q.capacity := by
  cases op with
  | push x => exact size_push_le h x
  | pop =>
    cases hrecords : q.records with
    | nil => rwa [step_pop_of_nil hrecords]
    | cons x rest =>
      rw [size, hrecords, List.length_cons] at h
      rw [step_pop_of_cons hrecords]
      exact Nat.le_of_succ_le h
  | putBack x => exact size_putBack_le h x

/-- Unless a record is put back, the record that leaves is the oldest one, and a record that is
    put in is the newest one: an equation between what was there and what is, by `push_eq`. -/
theorem append_given_of_step (h : q.size ≤ q.capacity) {op : Op α} (hop : op.isPutBack = false) :
    q.records ++ op.given?.toList
      = (q.step op).2.toList.map Departure.record ++ (q.step op).1.records := by
  cases op with
  | push x =>
    obtain ⟨hkept, hdropped⟩ := push_eq h x
    rw [step, Departure.map_record_dropped, hdropped, hkept]
    exact (List.take_append_drop ..).symm
  | pop =>
    cases hrecords : q.records with
    | nil =>
      rw [step_pop_of_nil hrecords, hrecords]
      rfl
    | cons x rest =>
      rw [step_pop_of_cons hrecords]
      exact List.append_nil _
  | putBack x => cases hop

/-- Every record that waited, and the one that is put in, either waits or leaves. Order is lost
    where a record is put back, by `putBack_eq`. -/
theorem step_perm (h : q.size ≤ q.capacity) (op : Op α) :
    ((q.step op).2.toList.map Departure.record ++ (q.step op).1.records).Perm
      (q.records ++ op.given?.toList) := by
  cases op with
  | push x => exact .of_eq (append_given_of_step h rfl).symm
  | pop => exact .of_eq (append_given_of_step h rfl).symm
  | putBack x =>
    obtain ⟨hkept, hdropped⟩ := putBack_eq h x
    rw [step, Departure.map_record_dropped, hdropped, hkept]
    calc
      List.Perm _ ((x :: q.records).take q.capacity ++ (x :: q.records).drop q.capacity) :=
        List.perm_append_comm
      List.Perm _ (x :: q.records) := .of_eq (List.take_append_drop ..)
      List.Perm _ (q.records ++ [x]) := (List.perm_append_singleton x q.records).symm

/-- The records that have to make room are counted, whichever operation it is for. -/
theorem evicted_step (h : q.size ≤ q.capacity) (op : Op α) :
    (q.step op).1.evicted
      = q.evicted + ((q.step op).2.toList.filterMap Departure.dropped?).length := by
  cases op with
  | push x =>
    rw [step, Departure.filterMap_dropped?_dropped]
    exact evicted_push q x
  | pop =>
    cases hrecords : q.records with
    | nil => rw [step_pop_of_nil hrecords]; rfl
    | cons x rest => rw [step_pop_of_cons hrecords]; rfl
  | putBack x =>
    obtain ⟨hkept, hdropped⟩ := putBack_eq h x
    rw [step, Departure.filterMap_dropped?_dropped, hdropped, hkept, List.length_drop]
    rfl

/-! ### Histories -/

variable {ops : List (Op α)}

/-- No history changes the capacity (`foldl_frame`). -/
theorem capacity_after (q : Outbox α) (ops : List (Op α)) :
    (q.after ops).capacity = q.capacity :=
  foldl_frame capacity_step q ops

/-- Every history keeps an outbox within its capacity. By induction on the operations, with
    `size_step_le` for each. -/
theorem size_after_le (h : q.size ≤ q.capacity) (ops : List (Op α)) :
    (q.after ops).size ≤ q.capacity := by
  induction ops generalizing q with
  | nil => exact h
  | cons op ops ih =>
    have hstep := size_step_le h op
    rw [← capacity_step q op] at hstep ⊢
    exact ih hstep

/-- What is put in by the first operation comes first. -/
theorem given_cons (op : Op α) (ops : List (Op α)) :
    given (op :: ops) = op.given?.toList ++ given ops := by
  unfold given
  cases h : op.given? <;> simp [h]

/-- What leaves with the first operation leaves first. -/
theorem map_record_departures_cons (q : Outbox α) (op : Op α) (ops : List (Op α)) :
    (q.departures (op :: ops)).map Departure.record
      = (q.step op).2.toList.map Departure.record
        ++ ((q.step op).1.departures ops).map Departure.record :=
  List.map_append

/-- Every record that waited at first or was put in either waits in the end or has left. By
    induction on the operations, with `step_perm` for each. -/
theorem perm_departures (h : q.size ≤ q.capacity) (ops : List (Op α)) :
    ((q.departures ops).map Departure.record ++ (q.after ops).records).Perm
      (q.records ++ given ops) := by
  induction ops generalizing q with
  | nil => exact .of_eq (List.append_nil _).symm
  | cons op ops ih =>
    have hstep := size_step_le h op
    rw [← capacity_step q op] at hstep
    have hrest := ih hstep
    rw [map_record_departures_cons, given_cons, List.append_assoc]
    calc
      List.Perm _ ((q.step op).2.toList.map Departure.record
          ++ ((q.step op).1.records ++ given ops)) := hrest.append_left _
      List.Perm _ (((q.step op).2.toList.map Departure.record ++ (q.step op).1.records)
          ++ given ops) := .of_eq (List.append_assoc ..).symm
      List.Perm _ ((q.records ++ op.given?.toList) ++ given ops) :=
        (step_perm h op).append_right _
      List.Perm _ (q.records ++ (op.given?.toList ++ given ops)) := .of_eq (List.append_assoc ..)

/-- If no record is put back, those that have left came before those that wait, and both are in
    the order in which they came. By induction on the operations, with `append_given_of_step` for
    each. -/
theorem append_given (h : q.size ≤ q.capacity) (hops : ∀ op ∈ ops, op.isPutBack = false) :
    q.records ++ given ops
      = (q.departures ops).map Departure.record ++ (q.after ops).records := by
  induction ops generalizing q with
  | nil => exact List.append_nil _
  | cons op ops ih =>
    obtain ⟨hop, hrest⟩ := List.forall_mem_cons.mp hops
    have hstep := size_step_le h op
    rw [← capacity_step q op] at hstep
    calc q.records ++ given (op :: ops)
        = (q.records ++ op.given?.toList) ++ given ops := by rw [given_cons, List.append_assoc]
      _ = (q.step op).2.toList.map Departure.record ++ ((q.step op).1.records ++ given ops) := by
          rw [append_given_of_step h hop, List.append_assoc]
      _ = (q.departures (op :: ops)).map Departure.record ++ (q.after (op :: ops)).records := by
          rw [ih hstep hrest, map_record_departures_cons, List.append_assoc]
          rfl

/-- The count of a history is the number of records that had to make room, by `evicted_step`. -/
theorem evicted_after (h : q.size ≤ q.capacity) (ops : List (Op α)) :
    (q.after ops).evicted = q.evicted + (q.dropped ops).length := by
  induction ops generalizing q with
  | nil => rfl
  | cons op ops ih =>
    have hstep := size_step_le h op
    rw [← capacity_step q op] at hstep
    have hrest : (q.after (op :: ops)).evicted = _ := ih hstep
    have hdropped : q.dropped (op :: ops)
        = (q.step op).2.toList.filterMap Departure.dropped? ++ (q.step op).1.dropped ops :=
      List.filterMap_append
    rw [hrest, evicted_step h op, hdropped, List.length_append, Nat.add_assoc]

/-- A record that has left was either taken or had to make room: `Departure.taken?` and
    `Departure.dropped?` together tell of all. -/
theorem length_departures (ds : List (Departure α)) :
    ds.length = (ds.filterMap Departure.taken?).length
      + (ds.filterMap Departure.dropped?).length := by
  induction ds with
  | nil => rfl
  | cons d ds ih =>
    cases d with
    | taken x =>
      show ds.length + 1 = (ds.filterMap Departure.taken?).length + 1
        + (ds.filterMap Departure.dropped?).length
      omega
    | dropped x =>
      show ds.length + 1 = (ds.filterMap Departure.taken?).length
        + ((ds.filterMap Departure.dropped?).length + 1)
      omega

/-- The records that have left in one way are among all that have left, in the same order. The way
    is given by `only?`, which is `Departure.taken?` or `Departure.dropped?` in
    `first_in_first_out`. -/
theorem departed_sublist {only? : Departure α → Option α}
    (hrecord : ∀ d x, only? d = some x → d.record = x) (ds : List (Departure α)) :
    (ds.filterMap only?).Sublist (ds.map Departure.record) := by
  induction ds with
  | nil => exact List.Sublist.refl _
  | cons d ds ih =>
    cases hd : only? d with
    | none =>
      rw [List.filterMap_cons_none hd]
      exact ih.cons d.record
    | some x =>
      rw [List.filterMap_cons_some hd, List.map_cons, hrecord d x hd]
      exact ih.cons_cons x

/-- As many records were put in as were taken, wait, or had to make room: `perm_departures` and
    `length_departures`, counted. -/
theorem length_given (h : q.size ≤ q.capacity) (ops : List (Op α)) :
    q.size + q.evicted + (given ops).length
      = (q.taken ops).length + (q.after ops).size + (q.after ops).evicted := by
  have hall := (perm_departures h ops).length_eq
  have hleft := length_departures (q.departures ops)
  simp only [List.length_append, List.length_map] at hall
  rw [evicted_after h]
  simp only [size, taken, dropped]
  omega

/-! ### Records that are put back -/

/-- Of the records that wait and some that join, the last ones stay: `push_eq` for any number of
    records. -/
theorem after_pushes (h : q.size ≤ q.capacity) (xs : List α) :
    q.after (xs.map .push) =
      { q with
        records := (q.records ++ xs).drop (q.size + xs.length - q.capacity)
        evicted := q.evicted + (q.size + xs.length - q.capacity) } := by
  -- on the records that join, for every outbox
  induction xs generalizing q with
  | nil =>
    have hnone : q.size + ([] : List α).length - q.capacity = 0 := Nat.sub_eq_zero_of_le h
    rw [hnone, List.append_nil]
    rfl
  | cons x xs ih =>
    have hstep := size_push_le h x
    rw [← capacity_push q x] at hstep
    show (q.push x).1.after (xs.map .push) = _
    rw [ih hstep, (push_eq h x).1]
    -- the outbox now holds as many as before, or one more
    have hsize : (q.push x).1.size = q.size + 1 - (q.size + 1 - q.capacity) := by
      rw [(push_eq h x).1, size, List.length_drop, List.length_append]
      rfl
    rw [(push_eq h x).1] at hsize
    have hfirst : q.size + 1 - q.capacity ≤ (q.records ++ [x]).length := by
      rw [List.length_append]
      show _ ≤ q.size + 1
      omega
    have htotal : q.size + 1 - q.capacity
        + (q.size + 1 - (q.size + 1 - q.capacity) + xs.length - q.capacity)
          = q.size + (x :: xs).length - q.capacity := by
      rw [List.length_cons]
      omega
    simp only [hsize]
    rw [← List.drop_append_of_le_length hfirst, List.append_assoc, List.drop_drop, Nat.add_assoc,
      htotal]
    rfl

/-- A record that is taken, and put back after others have joined, is the first one again. Of those
    that waited behind it and those that have joined, there is room for the last ones, less the
    newest one if they are too many together. -/
theorem after_putBack (h : q.size ≤ q.capacity) {x : α} {rest : List α}
    (hrecords : q.records = x :: rest) (xs : List α) :
    q.after (.pop :: xs.map .push ++ [.putBack x]) =
      { q with
        records := x :: ((rest ++ xs).drop (q.size + xs.length - q.capacity - 1)).take
          (q.capacity - 1)
        evicted := q.evicted + (q.size + xs.length - q.capacity) } := by
  have hsize : q.size = rest.length + 1 := congrArg List.length hrecords
  have hroom : 0 < q.capacity := by omega
  -- the outbox while the record is away
  let away : Outbox α := { q with records := rest }
  have haway : away.size ≤ away.capacity := by
    show rest.length ≤ q.capacity
    omega
  let joined := (rest ++ xs).drop (rest.length + xs.length - q.capacity)
  have hpushes : away.after (xs.map .push) =
      { q with
        records := joined
        evicted := q.evicted + (rest.length + xs.length - q.capacity) } := after_pushes haway xs
  have hwithin := size_after_le haway (xs.map .push)
  have hback : q.after (.pop :: xs.map .push ++ [.putBack x])
      = ((away.after (xs.map .push)).putBack x).1 := by
    show (q.step .pop).1.after (xs.map .push ++ [.putBack x]) = _
    rw [step_pop_of_cons hrecords, after_append]
    rfl
  rw [hpushes] at hwithin hback
  have hjoined : joined.length = rest.length + xs.length
      - (rest.length + xs.length - q.capacity) := by
    rw [List.length_drop, List.length_append]
  have hfirst : rest.length + xs.length - q.capacity = q.size + xs.length - q.capacity - 1 := by
    omega
  have hsurplus : rest.length + xs.length - q.capacity + (joined.length + 1 - q.capacity)
      = q.size + xs.length - q.capacity := by
    omega
  rw [hback, (putBack_eq hwithin x).1]
  show ({ q with
    records := (x :: joined).take q.capacity
    evicted := q.evicted + (rest.length + xs.length - q.capacity)
      + (joined.length + 1 - q.capacity) } : Outbox α) = _
  rw [Nat.add_assoc, hsurplus, List.take_cons hroom, ← hfirst]

/-! ### The laws -/

/-- However an outbox is used, it holds no more records than it may, and every record that was put
    in waits, was taken, or had to make room, of which there is a count. As long as none is put
    back, the records that wait are the last ones that came: those that have left were taken or
    made room in the order in which they came, and were older than each that waits. A record that
    is taken, and put back after any others have joined, is the first one again, before the ones
    behind it and those that have joined, and as many are dropped as there is no room for, none if
    there is room. -/
theorem first_in_first_out (capacity : Nat) (ops : List (Op α)) :
    let start : Outbox α := new capacity
    let q := start.after ops
    let left := (start.departures ops).map Departure.record
    q.size ≤ capacity ∧
      (left ++ q.records).Perm (given ops) ∧
      (given ops).length = (start.taken ops).length + q.size + q.evicted ∧
      (start.dropped ops).length = q.evicted ∧
      ((∀ op ∈ ops, op.isPutBack = false) →
        given ops = left ++ q.records ∧ (start.taken ops).Sublist left ∧
          (start.dropped ops).Sublist left) ∧
      ∀ x q', q.pop? = some (x, q') → ∀ xs : List α,
        let surplus := q.size + xs.length - capacity
        let back := q.after (.pop :: xs.map .push ++ [.putBack x])
        back.records = x :: ((q'.records ++ xs).drop (surplus - 1)).take (capacity - 1) ∧
          back.evicted = q.evicted + surplus ∧
          back.size + surplus = q.size + xs.length ∧
          (surplus = 0 → back.records = x :: (q'.records ++ xs)) := by
  intro start q left
  have hstart : start.size ≤ start.capacity := Nat.zero_le _
  have hcapacity : q.capacity = capacity := capacity_after start ops
  have hwithin : q.size ≤ q.capacity := by
    rw [hcapacity]
    exact size_after_le hstart ops
  have hevicted : q.evicted = (start.dropped ops).length :=
    (evicted_after hstart ops).trans (Nat.zero_add _)
  have hcount := length_given hstart ops
  refine ⟨hcapacity ▸ hwithin, perm_departures hstart ops, ?_, hevicted.symm, fun hops => ?_, ?_⟩
  · exact (Nat.zero_add _).symm.trans hcount
  · exact ⟨append_given hstart hops, departed_sublist Departure.record_of_taken? _,
      departed_sublist Departure.record_of_dropped? _⟩
  · intro x q' hpop xs surplus back
    -- what is taken is the first record, and `after_putBack` says what is there when it is back
    obtain ⟨rest, hrecords, rfl⟩ := pop?_eq_some_iff.mp hpop
    have hback := after_putBack hwithin hrecords xs
    rw [hcapacity] at hback hwithin
    have hsize : q.size = rest.length + 1 := congrArg List.length hrecords
    have hrecordsBack : back.records
        = x :: ((rest ++ xs).drop (surplus - 1)).take (capacity - 1) := by
      rw [show back = _ from hback]
    refine ⟨hrecordsBack, by rw [show back = _ from hback], ?_, fun hroom => ?_⟩
    · rw [size, hrecordsBack, List.length_cons, List.length_take, List.length_drop,
        List.length_append]
      omega
    · have hall : (rest ++ xs).length ≤ capacity - 1 := by
        rw [List.length_append]
        omega
      rw [hrecordsBack, hroom, List.drop_zero, List.take_of_length_le hall]

/-- Three records join where there is room for two. -/
def sampleOps : List (Op Nat) :=
  [.push 1, .push 2, .push 3]

/-- The oldest record that is left is taken, and put back when two others have joined. Of these, the
    newer one makes room for it. -/
theorem first_in_first_out_sampleOps :
    let q := (new 2).after sampleOps
    let back := q.after (.pop :: [4, 5].map .push ++ [.putBack 2])
    (∀ op ∈ sampleOps, op.isPutBack = false) ∧
      given sampleOps = [1] ++ q.records ∧
      q.pop? = some (2, ⟨[3], 2, 1⟩) ∧
      back.records = [2, 4] ∧ back.evicted = 1 + 2 := by
  obtain ⟨_, _, _, _, horder, hback⟩ := first_in_first_out 2 sampleOps
  have hops : ∀ op ∈ sampleOps, op.isPutBack = false := by decide
  have hpop : ((new 2).after sampleOps).pop? = some (2, ⟨[3], 2, 1⟩) := rfl
  obtain ⟨hrecords, hevicted, _, _⟩ := hback 2 _ hpop [4, 5]
  exact ⟨hops, (horder hops).1, hpop, hrecords, hevicted⟩

end EventReporter.Outbox
