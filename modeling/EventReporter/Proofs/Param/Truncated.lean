import EventReporter.Param
import EventReporter.Proofs.Reading.Local
namespace EventReporter

/-!
# Parameters in bytes that end too early

The readers of parameters and of their parts are local: they take the bytes that they need, and look
at no others. So a parameter that was read, or refused for what its bytes say, is read or refused in
the same way whatever follows, and bytes that end inside of it are found to be too short.

* `Varint.local_read`, `Param.local_read` : how many bytes a number and a parameter take at least.
* `Param.runAt_read_settled` : only the verdict that bytes are missing is not final.
-/

/-! ### Numbers -/

namespace Varint

/-- What a scan that has found `s` in some bytes, up to the `stop`-th, has found out about `longer`,
    a scan of these bytes and others behind them. It took more than `used` bytes for a number. -/
def Scan.Settles (used stop : Nat) (s longer : Scan) : Prop :=
  match s with
  | complete _ behind => used < behind ∧ behind ≤ stop ∧ longer = s
  | truncated behind => behind = stop
  | endless => longer = s

/-- `Settles` with a later start is `Settles` with an earlier one. -/
theorem Scan.Settles.mono {used used' stop : Nat} {s longer : Scan}
    (h : s.Settles used' stop longer) (hle : used ≤ used') : s.Settles used stop longer := by
  cases s with
  | complete n behind => exact ⟨Nat.lt_of_le_of_lt hle h.1, h.2⟩
  | truncated behind => exact h
  | endless => exact h

/-- `scanGroups` comes to its verdict within the bytes it has, unless it is that some are missing.
    By induction on these bytes. -/
theorem scanGroups_settles (n unit used : Nat) (bs more : List UInt8) :
    (scanGroups n unit used bs).Settles used (used + bs.length)
      (scanGroups n unit used (bs ++ more)) := by
  induction bs generalizing n unit used with
  | nil =>
    -- all ten bytes are taken: malformed, and no more bytes are looked at
    by_cases hfull : maxBytes ≤ used
    · cases more <;> simp [scanGroups, hfull, Scan.Settles]
    · simp [scanGroups, hfull, Scan.Settles]
  | cons b rest ih =>
    simp only [List.cons_append, scanGroups, List.length_cons]
    by_cases hfull : maxBytes ≤ used
    · simp [hfull, Scan.Settles]
    · simp only [if_neg hfull]
      by_cases hmore : 128 ≤ b.toNat
      · simp only [if_pos hmore]
        have hnext := ih (n + b.toNat % 128 * unit) (128 * unit) (used + 1)
        have hrest := hnext.mono (Nat.le_succ used)
        rwa [Nat.add_assoc, Nat.add_comm 1] at hrest
      · simp [if_neg hmore, Scan.Settles]

/-- `scan` comes to its verdict within the bytes it has, unless it is that some are missing: the
    tag, and then `scanGroups_settles`. -/
theorem scan_settles (bs more : List UInt8) :
    (scan bs).Settles 0 bs.length (scan (bs ++ more)) := by
  cases bs with
  | nil => simp [scan, Scan.Settles]
  | cons b rest =>
    simp only [List.cons_append, scan, List.length_cons]
    by_cases hmore : b.toNat / 32 % 2 = 1
    · simp only [if_pos hmore]
      have hrest := (scanGroups_settles (b.toNat % 32) 32 1 rest more).mono (Nat.zero_le 1)
      rwa [Nat.add_comm] at hrest
    · simp [if_neg hmore, Scan.Settles]

/-- `Varint.read` is `Local`, and takes one byte at least: what `scan_settles` says of its three
    verdicts. -/
theorem local_read : Read.Local 1 read where
  ok {c c' x} h := by
    unfold read at h
    split at h
    · next n used hscan =>
      cases h
      have hsettles := scan_settles c.rest
      rw [hscan] at hsettles
      obtain ⟨hpos, hle, -⟩ := hsettles []
      refine ⟨(Cursor.ahead_advance hle).mono hpos, fun more => ?_⟩
      -- the tag is one of the bytes that were there
      have hhead : (c.rest ++ more).head? = c.rest.head? := by
        cases hrest : c.rest with
        | nil => rw [hrest, List.length_nil] at hle; omega
        | cons b rest => rfl
      unfold read
      have hlonger : scan (c.extend more).rest = .complete n used := (hsettles more).2.2
      rw [hlonger]
      show EStateM.Result.ok _ ((c.extend more).advance used) = _
      rw [Cursor.advance_extend hle, Cursor.extend, hhead]
    · cases h
    · cases h
  error {c c' e} hc h := by
    unfold read at h
    split at h
    · cases h
    · next used hscan =>
      cases h
      have hsettles := scan_settles c.rest []
      rw [hscan] at hsettles
      refine ⟨Cursor.ahead_refl c, .inl ⟨c.offset + used + 1, ?_, rfl⟩⟩
      simp only [Scan.Settles] at hsettles
      simp only [Cursor.Sound] at hc
      omega
    · next hscan =>
      cases h
      refine ⟨Cursor.ahead_refl c, .inr fun more => ?_⟩
      have hsettles := scan_settles c.rest more
      rw [hscan] at hsettles
      have hlonger : scan (c.extend more).rest = .endless := hsettles
      unfold read
      rw [hlonger]
      rfl

/-- `readUnsigned` takes no byte beyond those of `read`, and judges with no look at the others. -/
theorem local_readUnsigned : Read.Local 1 readUnsigned := by
  refine Read.local_get_bind (fun c c' h => by simp only [h]) fun c => local_read.map ?_
  rintro ⟨purpose, n⟩
  by_cases h : n < Width.w64.count
  · simpa only [h, if_true] using Read.local_pure _
  · simpa only [h, if_false] using Read.local_throw 0 _

/-- `readSigned`, as `readUnsigned`. -/
theorem local_readSigned : Read.Local 1 readSigned := by
  refine Read.local_get_bind (fun c c' h => by simp only [h]) fun c => local_read.map ?_
  rintro ⟨purpose, n⟩
  simp only
  split
  · exact Read.local_pure _
  · exact Read.local_throw 0 _

end Varint

/-! ### Texts -/

namespace Read

/-- `ofExcept` takes no byte. -/
theorem local_ofExcept {α : Type} (x : Except WireError α) : Local 0 (ofExcept x) := by
  cases x with
  | ok x => exact local_pure x
  | error e => exact local_throw 0 e

/-- `asText` accepts its `n` bytes if they are a text, whatever follows them. -/
theorem local_asText (what : String) (n : Nat) : Local n (asText what n) :=
  local_of_bytes (fun bs => (Text.ofUtf8? bs).elim (.error (.badUtf8 what)) .ok) fun c => by
    simp only [asText]
    cases Text.ofUtf8? (c.rest.take n) <;> rfl

/-- `text` takes a byte at least for its length. The text itself may be empty. -/
theorem local_text (what : String) : Local 1 (text what) := by
  refine local_get_bind (fun c c' h => by simp only [h]) fun c => Varint.local_readUnsigned.map ?_
  rintro ⟨purpose, n⟩
  refine local_get_bind (fun c c' h => by simp only [h]) fun c' => ?_
  by_cases h : Width.w64.count ≤ c'.offset + n
  · simp only [if_pos h]
    exact local_throw 0 _
  · simp only [if_neg h]
    exact (local_asText what n).mono (Nat.zero_le n)

end Read

/-! ### Values -/

/-- Every element takes a byte: the first of its number or its length, or of the four or eight of
    its bits. -/
theorem ElementType.local_read (t : ElementType) : Read.Local 1 t.read := by
  cases t with
  | bool => exact Varint.local_readSigned.map fun _ => Read.local_pure _
  | signed w =>
    refine Varint.local_readSigned.map ?_
    rintro ⟨purpose, i⟩
    by_cases h : -(w.half : Int) ≤ i ∧ i < w.half
    · simp only [dif_pos h]
      exact Read.local_pure _
    · simp only [dif_neg h]
      exact Read.local_throw 0 _
  | unsigned w =>
    refine Varint.local_readUnsigned.map ?_
    rintro ⟨purpose, n⟩
    by_cases h : n < w.count
    · simp only [dif_pos h]
      exact Read.local_pure _
    · simp only [dif_neg h]
      exact Read.local_throw 0 _
  | float => exact ((Read.local_bytes 4).map fun _ => Read.local_pure _).mono (by decide)
  | double => exact ((Read.local_bytes 8).map fun _ => Read.local_pure _).mono (by decide)
  | string => exact Read.local_text _

/-- `readScalar` takes a byte, or refuses the type where it stands. -/
theorem Value.local_readScalar (type : Option ElementType) : Read.Local 1 (readScalar type) := by
  cases type with
  | none => exact Read.local_throw 1 _
  | some t => exact t.local_read.map fun _ => Read.local_pure _

/-- `readArray` takes a byte for the count. There may be no elements behind it. -/
theorem Value.local_readArray (type : Option ElementType) : Read.Local 1 (readArray type) := by
  refine Varint.local_readUnsigned.map ?_
  rintro ⟨purpose, count⟩
  by_cases h : Limits.elements < count
  · simp only [if_pos h]
    exact Read.local_throw 0 _
  · simp only [if_neg h]
    cases type with
    | none => exact Read.local_throw 0 _
    | some t =>
      -- the elements take bytes as well, but there may be none of them
      have hmany := Read.local_many t.local_read count
      exact (hmany.mono (Nat.zero_le _)).map fun _ => Read.local_pure _

/-! ### Parameters -/

namespace Param

/-- A parameter takes a byte for the length of its key, its type byte and one for its value:
    `Param.read` puts these together, and `Local.bind` adds up what they take. -/
theorem local_read : Read.Local 3 Param.read := by
  refine (Read.local_text "param key").bind (n := 2) fun key => ?_
  refine Read.local_byte.bind (n := 1) fun b => ?_
  refine (Read.local_ofExcept _).bind (n := 1) fun kind => ?_
  by_cases h : kind.isArray
  · simp only [if_pos h]
    exact (Value.local_readArray _).map fun _ => Read.local_pure _
  · simp only [if_neg h]
    exact (Value.local_readScalar _).map fun _ => Read.local_pure _

variable {data : List UInt8} {offset : Nat}

/-- Whatever is read or refused at an offset stays so when more bytes follow, unless the verdict
    was that bytes are missing, and so does the place where the reader stops. If the bytes end
    before that place, the verdict is that bytes are missing, behind those that there are. -/
theorem runAt_read_settled (h : offset ≤ data.length) :
    (¬ Read.IsShort (Param.read.runAt data offset).1 →
      ∀ more, Param.read.runAt (data ++ more) offset = Param.read.runAt data offset) ∧
    ∀ k, offset ≤ k → k < (Param.read.runAt data offset).2 →
      ∃ expected, k < expected ∧
        (Param.read.runAt (data.take k) offset).1 = .error (.tooShort expected k) :=
  ⟨local_read.runAt_append h, fun _ hle hlt => local_read.runAt_take hle hlt h⟩

/-- A parameter behind another byte. Its text is one letter of two bytes. -/
def sampleLetter : List UInt8 :=
  [0xAA, 0x41, 0x4B, 0x18, 0x42, 0xC3, 0xA9]

/-- A parameter with a text of one letter, which has two bytes: what follows them does not matter,
    and without the second one it is incomplete. -/
theorem runAt_read_sampleLetter :
    1 ≤ sampleLetter.length ∧
      Param.read.runAt sampleLetter 1 = (.ok ⟨"K", .scalar .string "é"⟩, 7) ∧
      (∀ more, Param.read.runAt (sampleLetter ++ more) 1
        = (.ok ⟨"K", .scalar .string "é"⟩, 7)) ∧
      -- half a letter is not malformed, but incomplete
      ∃ expected, 6 < expected ∧
        (Param.read.runAt (sampleLetter.take 6) 1).1 = .error (.tooShort expected 6) := by
  have hstart : 1 ≤ sampleLetter.length := by decide
  have hread : Param.read.runAt sampleLetter 1 = (.ok ⟨"K", .scalar .string "é"⟩, 7) := rfl
  obtain ⟨hmore, hless⟩ := runAt_read_settled hstart
  rw [hread] at hmore hless
  refine ⟨hstart, hread, hmore ?_, hless 6 (by decide) (by decide)⟩
  rintro ⟨_, _, h⟩
  cases h

end Param

end EventReporter
