import EventReporter.Library
import EventReporter.Proofs.Guarded.Record
import EventReporter.Proofs.Record.RoundTrip
namespace EventReporter

/-!
# How far a record reaches

The parameters of an accepted record stand one behind the other, from the end of their number to the
end of the bytes. Each of them takes three bytes at least, which bounds both how many of them there
are and how many a reader begins to read, whatever number the bytes declare.

* `Read.tiles_of_many` : items that are read in a row.
* `Record.decode_eq_ok` : the parts of an accepted record.
* `Record.decode_bounded` : what reading any bytes may cost, and where it ends.
-/

/-! ### Items in a row -/

namespace Read

/-- From `start` on, a reader finds some items one behind the other, the last of which ends at
    `stop`. -/
inductive Tiles {α : Type} (item : Read α) (data : List UInt8) : Nat → Nat → List α → Prop
  | nil (stop : Nat) : Tiles item data stop stop []
  | cons {start behind stop : Nat} {x : α} {xs : List α} :
      item.runAt data start = (.ok x, behind) → Tiles item data behind stop xs →
        Tiles item data start stop (x :: xs)

variable {α : Type} {item : Read α} {data : List UInt8} {least n start stop : Nat} {xs : List α}

/-- Items of a least size bound the bytes that they take from below: by induction on the row of
    `Tiles`, where `Local.runAt_bounds` is about the first one. -/
theorem Tiles.length_le (h : Tiles item data start stop xs) (hlocal : item.Local least)
    (hle : start ≤ data.length) : start + least * xs.length ≤ stop ∧ stop ≤ data.length := by
  induction h with
  | nil stop => exact ⟨Nat.le_refl stop, hle⟩
  | @cons start behind stop x xs hread _ ih =>
    obtain ⟨-, hend, hleast⟩ := hlocal.runAt_bounds hle
    rw [hread] at hend hleast
    have hmoved : start + least ≤ behind := hleast x rfl
    obtain ⟨hrest, hstop⟩ := ih hend
    refine ⟨?_, hstop⟩
    rw [List.length_cons, Nat.mul_succ]
    omega

/-- By induction on the number of items: each is read where the one before it has ended, which is
    a place in the same data by `Ahead.eq_ofBytes`. -/
theorem tiles_of_manyFrom (hlocal : item.Local least) {done : List α} {c : Cursor}
    (h : manyFrom item done n (.ofBytes data start) = .ok xs c) :
    ∃ new, xs = done.reverse ++ new ∧ new.length = n ∧ Tiles item data start c.offset new := by
  induction n generalizing done start with
  | zero =>
    cases h
    exact ⟨[], (List.append_nil _).symm, rfl, .nil start⟩
  | succ n ih =>
    rw [manyFrom, bind_apply] at h
    cases hitem : item (.ofBytes data start) with
    | error e c' =>
      rw [hitem] at h
      cases h
    | ok x c' =>
      rw [hitem] at h
      -- the next item starts at an offset of the same data
      have hplace := (hlocal.ok hitem).1.eq_ofBytes
      have hrest : manyFrom item (x :: done) n c' = .ok xs c := h
      rw [hplace] at hrest
      obtain ⟨new, hxs, hlength, htiles⟩ := ih hrest
      have hread : item.runAt data start = (.ok x, c'.offset) := by rw [runAt, hitem]
      refine ⟨x :: new, ?_, congrArg Nat.succ hlength, .cons hread htiles⟩
      rw [hxs, List.reverse_cons, List.append_assoc]
      rfl

/-- Items that `many` reads in a row stand in a row. -/
theorem tiles_of_many (hlocal : item.Local least)
    (h : (many item n).runAt data start = (.ok xs, stop)) :
    xs.length = n ∧ Tiles item data start stop xs := by
  rw [runAt, many] at h
  cases hmany : manyFrom item [] n (.ofBytes data start) with
  | error e c =>
    rw [hmany] at h
    cases h
  | ok ys c =>
    rw [hmany] at h
    cases h
    obtain ⟨new, rfl, hlength, htiles⟩ := tiles_of_manyFrom hlocal hmany
    exact ⟨hlength, htiles⟩

end Read

/-! ### Accepted records -/

namespace Record

variable {data : List UInt8} {count offset : Nat} {ps : List Param} {r : Record}

/-- Where the parameters of a record begin. -/
def paramsOffset (r : Record) : Nat :=
  minSize + if r.trace.isSome then Trace.blockSize else 0

/-- `readParams` accepts only parameters that reach to the end of the data. -/
theorem readParams_eq_ok (h : readParams data count offset = .ok ps) :
    Read.Tiles Param.read data offset data.length ps := by
  unfold readParams at h
  split at h
  · next params behind hread =>
    split at h
    · next hend =>
      cases h
      rw [← hend]
      exact (Read.tiles_of_many Param.local_read hread).2
    · cases h
  · cases h

/-- The parts of an accepted record stand one behind the other, and reach to its end: `decode_eq`
    with all its parts accepted. -/
theorem decode_eq_ok (h : decode data = .ok r) :
    r.paramsOffset ≤ data.length ∧
      Read.Tiles Param.read data r.paramsOffset data.length r.params := by
  have hmin := minSize_le_of_decode h
  rw [decode_eq hmin (decode_declared h)] at h
  obtain ⟨header, -, h⟩ := bind_eq_ok h
  obtain ⟨⟨trace, behind⟩, htrace, h⟩ := bind_eq_ok h
  obtain ⟨params, hparams, h⟩ := bind_eq_ok h
  cases h
  obtain ⟨count, hcount, hparams⟩ := bind_eq_ok hparams
  obtain ⟨hbehind, -⟩ := readTrace_eq_ok htrace
  -- the parameters start behind the trace, if there is one
  have hoffset : behind + countSize = paramsOffset ⟨header, trace, params⟩ := by
    rw [hbehind, paramsOffset, minSize]
    exact Nat.add_right_comm _ _ _
  rw [← hoffset]
  exact ⟨le_length_of_readCount hcount, readParams_eq_ok hparams⟩

/-- Reading a parameter, with or without success, ends behind its start and within the bytes, and a
    parameter that was read takes three bytes at least. So a record is read without a trap, and
    without beginning more parameters than stand in the bytes, and one. It is accepted only if its
    parts, of which the parameters are the last ones, reach exactly to the end that it declares. -/
theorem decode_bounded (data : List UInt8) :
    (∀ offset, offset ≤ data.length →
      offset ≤ (Param.read.runAt data offset).2 ∧
        (Param.read.runAt data offset).2 ≤ data.length ∧
        ∀ p, (Param.read.runAt data offset).1 = .ok p →
          offset + 3 ≤ (Param.read.runAt data offset).2) ∧
      (∃ begun, begun ≤ (data.length - minSize) / 3 + 1 ∧
        Guarded.record.runOn data = ((decode data).mapError .refusal, begun)) ∧
      ∀ r, decode data = .ok r →
        leadingInt data = data.length ∧
          minSize + (if r.trace.isSome then Trace.blockSize else 0) + 3 * r.params.length
            ≤ data.length ∧
          Read.Tiles Param.read data r.paramsOffset data.length r.params := by
  refine ⟨fun offset hle => Param.local_read.runAt_bounds hle, Guarded.record_eq data, ?_⟩
  intro r hr
  obtain ⟨hle, htiles⟩ := decode_eq_ok hr
  exact ⟨decode_declared hr, (htiles.length_le Param.local_read hle).1, htiles⟩

/-- A record with a trace and one parameter, which declares a number of parameters. -/
def sampleTraced (count : List UInt8) : List UInt8 :=
  [111, 0, 0, 0] ++ List.replicate 79 0 ++ [4] ++ List.replicate Trace.blockSize 7 ++ count ++
    Param.sampleLetter.tail

/-- A traced record with one parameter is accepted, and its bytes are accounted for. The same
    record with the largest number of parameters that can be declared begins no more of them than
    could stand in its 111 bytes. -/
theorem decode_bounded_sampleTraced :
    105 ≤ (sampleTraced [1, 0, 0, 0]).length ∧
      105 + 3 ≤ (Param.read.runAt (sampleTraced [1, 0, 0, 0]) 105).2 ∧
      (∃ r, decode (sampleTraced [1, 0, 0, 0]) = .ok r ∧
        leadingInt (sampleTraced [1, 0, 0, 0]) = 111 ∧
        minSize + Trace.blockSize + 3 * r.params.length ≤ 111 ∧
        Read.Tiles Param.read (sampleTraced [1, 0, 0, 0]) r.paramsOffset 111 r.params) ∧
      -- the number of parameters that is declared here has 31 bits
      (Guarded.record.runOn (sampleTraced [255, 255, 255, 127])).2 ≤ (111 - minSize) / 3 + 1 := by
  obtain ⟨hparam, -, haccepted⟩ := decode_bounded (sampleTraced [1, 0, 0, 0])
  obtain ⟨-, ⟨begun, hbegun, hrun⟩, -⟩ := decode_bounded (sampleTraced [255, 255, 255, 127])
  have hstart : 105 ≤ (sampleTraced [1, 0, 0, 0]).length := by decide
  have hread : (Param.read.runAt (sampleTraced [1, 0, 0, 0]) 105).1
      = .ok ⟨"K", .scalar .string "é"⟩ := rfl
  have hdecode : (decode (sampleTraced [1, 0, 0, 0])).isOk = true := by decide +kernel
  obtain ⟨r, hr⟩ := isOk_iff.mp hdecode
  have hall : (decode (sampleTraced [1, 0, 0, 0])).toOption.all (·.trace.isSome) = true := by
    decide +kernel
  rw [hr] at hall
  have htraced : r.trace.isSome = true := hall
  obtain ⟨hdeclared, hle, htiles⟩ := haccepted r hr
  rw [if_pos htraced] at hle
  refine ⟨hstart, (hparam 105 hstart).2.2 _ hread, ⟨r, hr, hdeclared, hle, htiles⟩, ?_⟩
  rw [hrun]
  exact hbegun

end Record

end EventReporter
