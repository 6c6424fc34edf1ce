import Mathlib.Data.List.Dedup
import Mathlib.Data.List.DropRight
import Mathlib.Data.List.Forall2
namespace EventReporter

/-!
# Lists, results and runs

What the proofs of this library need to know about lists, optional values and results. Nothing in
this module mentions records or their senders.

* `foldl_frame` : what no step of a run changes is the same after the run.
* `pair_sublist_or`, `not_pair_sublist` : which of two elements of a list comes first.
* `reverse_dedup_concat`, `take_cons_filter` : keys in the order of their last use.
* `append_cons_inj`, `notMem_of_mem_splitOn` : lists that are cut in two, or in many parts.
* `mapM_eq_some_iff`, `mapM_eq_none_iff` : when all elements of a list have a value.
* `bind_eq_ok`, `isOk_bind`, `bind_eq_error` : how two steps end, the second of which goes on from
  the result of the first.
-/

/-! ### Runs -/

/-- What no step changes of what is seen of a state is the same after a run. By induction on the
    steps (`List.foldlRecOn`). -/
theorem foldl_frame {σ ι β : Type} {step : σ → ι → σ} {view : σ → β}
    (hstep : ∀ s x, view (step s x) = view s) (s : σ) (xs : List ι) :
    view (xs.foldl step s) = view s := by
  refine List.foldlRecOn xs step (motive := fun t => view t = view s) rfl ?_
  intro t hkept x _
  exact (hstep t x).trans hkept

/-! ### Pairs of elements in the order of a list -/

section Pairs

variable {α : Type} {a b c : α} {l l' m : List α}

/-- A pair stands in a list in this order if it does so behind the head, or starts with the head. -/
theorem pair_sublist_cons :
    [a, b].Sublist (c :: l) ↔ [a, b].Sublist l ∨ a = c ∧ b ∈ l := by
  rw [List.sublist_cons_iff]
  constructor
  · rintro (h | ⟨r, hr, h⟩)
    · exact .inl h
    · cases hr
      exact .inr ⟨rfl, List.singleton_sublist.mp h⟩
  · rintro (h | ⟨rfl, h⟩)
    · exact .inl h
    · exact .inr ⟨[b], rfl, List.singleton_sublist.mpr h⟩

/-- An element of the front comes before one of what follows it. -/
theorem pair_sublist_append (ha : a ∈ l) (hb : b ∈ m) : [a, b].Sublist (l ++ m) :=
  (List.singleton_sublist.mpr ha).append (List.singleton_sublist.mpr hb)

/-- Of two elements of a list one comes first. -/
theorem pair_sublist_or (ha : a ∈ l) (hb : b ∈ l) (hne : a ≠ b) :
    [a, b].Sublist l ∨ [b, a].Sublist l := by
  induction l with
  | nil => cases ha
  | cons c l ih =>
    rw [pair_sublist_cons, pair_sublist_cons]
    -- one of them may be the head, and then it comes first
    rcases List.mem_cons.mp ha with rfl | ha'
    · have hb' : b ∈ l := (List.mem_cons.mp hb).resolve_left hne.symm
      exact .inl (.inr ⟨rfl, hb'⟩)
    · rcases List.mem_cons.mp hb with rfl | hb'
      · exact .inr (.inr ⟨rfl, ha'⟩)
      · exact (ih ha' hb').imp .inl .inl

/-- In a list without duplicates it is only one of them: the converse of `pair_sublist_or`. -/
theorem not_pair_sublist (hl : l.Nodup) (h : [a, b].Sublist l) : ¬ [b, a].Sublist l := by
  induction l with
  | nil => cases h
  | cons c l ih =>
    obtain ⟨hc, hl'⟩ := List.nodup_cons.mp hl
    rw [pair_sublist_cons] at h ⊢
    -- the head cannot occur again, neither as the first of a pair nor as the second
    rintro (h' | ⟨rfl, ha⟩)
    · rcases h with h | ⟨rfl, _⟩
      · exact ih hl' h h'
      · exact hc (h'.subset (by simp))
    · rcases h with h | ⟨rfl, hb⟩
      · exact hc (h.subset (by simp))
      · exact hc ha

/-- Elements of a part stand in it as they stand in the whole. -/
theorem pair_sublist_of_mem (hl : l.Nodup) (h : [a, b].Sublist l) (hsub : l'.Sublist l)
    (ha : a ∈ l') (hb : b ∈ l') : [a, b].Sublist l' := by
  have hne : a ≠ b := by
    rintro rfl
    exact not_pair_sublist hl h h
  rcases pair_sublist_or ha hb hne with h' | h'
  · exact h'
  · exact absurd (h'.trans hsub) (not_pair_sublist hl h)

/-- What comes before an element of the front is in the front. -/
theorem pair_sublist_left (hl : (l ++ m).Nodup) (h : [a, b].Sublist (l ++ m)) (hb : b ∈ l) :
    [a, b].Sublist l := by
  have ha : a ∈ l := by
    rcases List.mem_append.mp (h.subset List.mem_cons_self) with ha | ha
    · exact ha
    · exact absurd (pair_sublist_append hb ha) (not_pair_sublist hl h)
  exact pair_sublist_of_mem hl h (List.sublist_append_left l m) ha hb

end Pairs

/-! ### Keys in the order of their last use -/

section Keys

variable {κ : Type} [DecidableEq κ]

/-- A key that is used once more is the latest one. (`List.dedup` keeps the last of several equal
    elements.) -/
theorem dedup_concat (used : List κ) (k : κ) :
    (used ++ [k]).dedup = used.dedup.filter (· ≠ k) ++ [k] := by
  induction used with
  | nil => rfl
  | cons x used ih =>
    rw [List.cons_append]
    by_cases hx : x ∈ used
    · rw [List.dedup_cons_of_mem hx, List.dedup_cons_of_mem (List.mem_append_left [k] hx), ih]
    · rw [List.dedup_cons_of_notMem hx]
      -- a key that was not used again stays, unless it is the new one
      by_cases hk : x = k
      · have hmem : x ∈ used ++ [k] := by simp [hk]
        rw [List.dedup_cons_of_mem hmem, ih, List.filter_cons_of_neg (by simpa using hk)]
      · have hnot : x ∉ used ++ [k] := by simp [hx, hk]
        rw [List.dedup_cons_of_notMem hnot, ih, List.filter_cons_of_pos (by simpa using hk)]
        rfl

/-- `dedup_concat` with the latest key in front. -/
theorem reverse_dedup_concat (used : List κ) (k : κ) :
    (used ++ [k]).dedup.reverse = k :: used.dedup.reverse.filter (· ≠ k) := by
  rw [dedup_concat, List.reverse_append, List.filter_reverse]
  rfl

/-- At most one of some different keys is left out. -/
theorem length_le_filter_ne {keys : List κ} (h : keys.Nodup) (k : κ) :
    keys.length ≤ (keys.filter (· ≠ k)).length + 1 := by
  have herase : keys.erase k = keys.filter (· ≠ k) := by
    rw [h.erase_eq_filter]
    refine List.filter_congr fun x _ => ?_
    by_cases hx : x = k <;> simp [hx]
  rw [← herase, List.length_erase]
  split <;> omega

/-- Of a list of which the first `n` are kept, only these matter when a key is put in front. -/
theorem take_cons_filter {recent : List κ} (h : recent.Nodup) (k : κ) (n : Nat) :
    (k :: (recent.take n).filter (· ≠ k)).take n = (k :: recent.filter (· ≠ k)).take n := by
  cases n with
  | zero => rfl
  | succ n =>
    rw [List.take_succ_cons, List.take_succ_cons]
    congr 1
    conv_rhs => rw [← List.take_append_drop (n + 1) recent, List.filter_append]
    by_cases hlong : n + 1 ≤ recent.length
    · -- the first `n + 1` keys still hold `n` others, so none is missing from behind them
      have hkept := length_le_filter_ne (h.sublist (List.take_sublist (n + 1) recent)) k
      rw [List.length_take_of_le hlong] at hkept
      rw [List.take_append_of_le_length (Nat.le_of_succ_le_succ hkept)]
    · have hnone : recent.drop (n + 1) = [] := List.drop_eq_nil_of_le (by omega)
      rw [hnone, List.filter_nil, List.append_nil]

end Keys

/-! ### Lists that are cut -/

section Cuts

variable {α : Type}

/-- A list is cut in two by an element in one way only, or the element occurs in a part. -/
theorem append_cons_inj {a b c d : List α} {x : α} :
    a ++ x :: c = b ++ x :: d ↔
      a = b ∧ c = d ∨ (∃ m, b = a ++ x :: m ∧ c = m ++ x :: d) ∨
        ∃ m, a = b ++ x :: m ∧ d = m ++ x :: c := by
  rw [List.append_eq_append_iff]
  constructor
  · -- the longer of the two fronts goes on with nothing, or with the element
    rintro (⟨m, hb, hc⟩ | ⟨m, ha, hd⟩)
    · cases m with
      | nil =>
        simp only [List.append_nil, List.nil_append, List.cons.injEq, true_and] at hb hc
        exact .inl ⟨hb.symm, hc⟩
      | cons y m =>
        obtain ⟨rfl, rfl⟩ := List.cons.inj hc
        exact .inr (.inl ⟨m, hb, rfl⟩)
    · cases m with
      | nil =>
        simp only [List.append_nil, List.nil_append, List.cons.injEq, true_and] at ha hd
        exact .inl ⟨ha, hd.symm⟩
      | cons y m =>
        obtain ⟨rfl, rfl⟩ := List.cons.inj hd
        exact .inr (.inr ⟨m, ha, rfl⟩)
  · rintro (⟨rfl, rfl⟩ | ⟨m, rfl, rfl⟩ | ⟨m, rfl, rfl⟩)
    · exact .inl ⟨[], by simp, rfl⟩
    · exact .inl ⟨x :: m, rfl, rfl⟩
    · exact .inr ⟨x :: m, rfl, rfl⟩

/-- An element that is ahead of a position has that position, and the others are ahead of the next
    one. -/
theorem of_drop_eq_cons {l rest : List α} {x : α} {n : Nat} (h : l.drop n = x :: rest) :
    n + 1 ≤ l.length ∧ l.drop (n + 1) = rest := by
  constructor
  · have hlength := congrArg List.length h
    rw [List.length_drop, List.length_cons] at hlength
    omega
  · rw [← List.tail_drop, h, List.tail_cons]

/-- What is dropped from behind anyway may be added there. -/
theorem rdropWhile_append_of_pos {p : α → Bool} {right : List α} (l : List α)
    (h : ∀ x ∈ right, p x = true) : (l ++ right).rdropWhile p = l.rdropWhile p := by
  have hback : ∀ x ∈ right.reverse, p x = true := fun x hx => h x (List.mem_reverse.mp hx)
  rw [List.rdropWhile, List.reverse_append, List.dropWhile_append_of_pos hback, List.rdropWhile]

/-- No separator is left between two separators. -/
theorem notMem_of_mem_splitOn [BEq α] [LawfulBEq α] {s : α} {l part : List α}
    (h : part ∈ l.splitOn s) : s ∉ part := by
  induction l generalizing part with
  | nil =>
    rw [List.splitOn_nil, List.mem_singleton] at h
    subst h
    exact List.not_mem_nil
  | cons x l ih =>
    obtain ⟨first, rest, hparts⟩ := List.exists_cons_of_ne_nil (List.splitOn_ne_nil s l)
    rw [List.splitOn_cons_eq_if_modifyHead] at h
    split at h
    · rcases List.mem_cons.mp h with rfl | h
      · exact List.not_mem_nil
      · exact ih h
    · next hx =>
      -- an element that is no separator goes to the front of the first part
      rw [hparts, List.modifyHead_cons, List.mem_cons] at h
      rcases h with rfl | h
      · have hfirst : s ∉ first := ih (hparts ▸ List.mem_cons_self)
        rw [List.mem_cons, not_or]
        exact ⟨fun heq => hx (beq_iff_eq.mpr heq.symm), hfirst⟩
      · exact ih (hparts ▸ List.mem_cons_of_mem first h)

end Cuts

/-! ### Optional values -/

section Options

variable {α β : Type}

/-- A list has values exactly if each element has the one that stands at its place. -/
theorem mapM_eq_some_iff {f : α → Option β} {xs : List α} {ys : List β} :
    xs.mapM f = some ys ↔ List.Forall₂ (fun x y => f x = some y) xs ys := by
  induction xs generalizing ys with
  | nil => simp [eq_comm]
  | cons x xs ih =>
    simp only [List.mapM_cons, bind, pure, Option.bind_eq_some_iff, Option.some.injEq, ih,
      List.forall₂_cons_left_iff]
    constructor
    · rintro ⟨y, hy, ys', hys', rfl⟩
      exact ⟨y, ys', hy, hys', rfl⟩
    · rintro ⟨y, ys', hy, hys', rfl⟩
      exact ⟨y, hy, ys', hys', rfl⟩

/-- A list has none exactly if one of its elements has none. -/
theorem mapM_eq_none_iff {f : α → Option β} {xs : List α} :
    xs.mapM f = none ↔ ∃ x ∈ xs, f x = none := by
  induction xs with
  | nil => simp
  | cons x xs ih =>
    rw [List.mapM_cons]
    cases hx : f x with
    | none => simp [hx]
    | some y => cases hxs : xs.mapM f <;> simp_all

/-- A function that may be missing is applied to all elements, or to the one that is asked for. -/
theorem bind_getElem?_map (f? : Option (α → β)) (xs : List α) (i : Nat) :
    (f?.map xs.map).bind (·[i]?) = xs[i]?.bind fun x => f?.map (· x) := by
  cases f? with
  | none => exact (Option.bind_fun_none _).symm
  | some f => exact (List.getElem?_map ..).trans Option.map_eq_bind

end Options

/-! ### Results -/

section Results

variable {ε α β : Type} {x : Except ε α} {f : α → Except ε β}

/-- Two steps that succeed: the first does, and the second goes on from its result. Repeated use
    takes a computation apart, step by step. -/
theorem bind_eq_ok {y : β} (h : x >>= f = .ok y) : ∃ a, x = .ok a ∧ f a = .ok y := by
  cases x with
  | error e => cases h
  | ok a => exact ⟨a, rfl, h⟩

/-- Two steps that fail: one of the two does. The companion of `bind_eq_ok`. -/
theorem bind_eq_error {e : ε} (h : x >>= f = .error e) :
    x = .error e ∨ ∃ a, x = .ok a ∧ f a = .error e := by
  cases x with
  | error e' =>
    cases h
    exact .inl rfl
  | ok a => exact .inr ⟨a, rfl, h⟩

/-- A step succeeds exactly if it has a result. -/
theorem isOk_iff : x.isOk = true ↔ ∃ a, x = .ok a := by
  cases x with
  | error e => simp [Except.isOk, Except.toBool]
  | ok a => exact ⟨fun _ => ⟨a, rfl⟩, fun _ => rfl⟩

/-- Two steps succeed together exactly if both do. -/
theorem isOk_bind : (x >>= f).isOk = true ↔ ∃ a, x = .ok a ∧ (f a).isOk = true := by
  cases x with
  | error e => simp [bind, Except.bind, Except.isOk, Except.toBool]
  | ok a => simp [bind, Except.bind]

end Results

/-! ### Characters -/

/-- A character of ASCII takes one byte. -/
theorem utf8Size_of_ascii {c : Char} (h : c.toNat < 0x80) : c.utf8Size = 1 := by
  have hle : c.val ≤ 0x7f := UInt32.le_iff_toNat_le.mpr (Nat.le_of_lt_succ h)
  exact Char.utf8Size_eq_one_iff.mpr hle

/-- Numbers with the same decimal digits are the same. -/
theorem digits_inj {m n : Nat} (h : Nat.toDigits 10 m = Nat.toDigits 10 n) : m = n := by
  have hvalue := congrArg (Nat.ofDigitChars 10 · 0) h
  simpa using hvalue

end EventReporter
