import EventReporter.Library
import EventReporter.Limiter
import EventReporter.Proofs.Text.Utf8
import EventReporter.Wire
namespace EventReporter

/-!
# Which writes share a key

The text that is hashed for a write ends in its line, in which there is no underscore, so lines are
always told apart. The name of the event and the function may have underscores of their own, and
where the one ends and the other begins is not marked otherwise: an underscore of the function can
be taken for the end of a longer name. Texts that are hashed in full are the same for two different
writes exactly in this case.

* `CallSite.keyText_inj` : when two writes have the same text.
* `CallSite.keyBytes_injective_iff` : when what is hashed tells them apart.
-/

namespace CallSite

variable {s t : CallSite} {event event' : String}

/-- The name `event'` is `event` with a part of the function of `s` behind it, without which that
    function is the one of `t`. So the text of both writes is the same, with the underscore that
    ends the name in two places. -/
def Borrows (s : CallSite) (event : String) (t : CallSite) (event' : String) : Prop :=
  s.line = t.line ∧ ∃ part : String, event' = event ++ "_" ++ part ∧ s.func = part ++ "_" ++ t.func

/-! ### Texts of two writes -/

/-- `keyText` puts underscores between the name, the function and the line. -/
theorem toList_keyText (s : CallSite) (event : String) :
    (s.keyText event).toList
      = (event.toList ++ '_' :: s.func.toList) ++ '_' :: Nat.toDigits 10 s.line.toNat := by
  show (event ++ "_" ++ s.func ++ "_" ++ s.line.toNat.repr).toList = _
  simp

/-- `Borrows`, said of characters. -/
theorem borrows_iff :
    Borrows s event t event' ↔ s.line = t.line ∧
      ∃ m, event'.toList = event.toList ++ '_' :: m ∧
        s.func.toList = m ++ '_' :: t.func.toList := by
  refine and_congr_right fun _ => ?_
  constructor
  · rintro ⟨part, rfl, hfunc⟩
    exact ⟨part.toList, by simp, by simp [hfunc]⟩
  · rintro ⟨m, hevent, hfunc⟩
    refine ⟨String.ofList m, String.toList_inj.mp ?_, String.toList_inj.mp ?_⟩
    · simp [hevent]
    · simp [hfunc]

/-- A name that `Borrows` from the function behind it is longer than before. -/
theorem Borrows.ne (h : Borrows s event t event') : event ≠ event' := by
  obtain ⟨_, m, hevent, _⟩ := borrows_iff.mp h
  rintro rfl
  have hlength := congrArg List.length hevent
  simp at hlength

/-- Two writes with one `keyText` are the same, or the name of one borrows from the function of
    the other. -/
theorem keyText_inj :
    s.keyText event = t.keyText event' ↔
      s = t ∧ event = event' ∨ Borrows s event t event' ∨ Borrows t event' s event := by
  rw [← String.toList_inj, toList_keyText, toList_keyText, append_cons_inj, borrows_iff,
    borrows_iff]
  constructor
  · -- the line is what stands behind the last underscore
    rintro (⟨hfront, hdigits⟩ | ⟨m, -, hdigits⟩ | ⟨m, -, hdigits⟩)
    · have hline : s.line = t.line := UInt32.toNat_inj.mp (digits_inj hdigits)
      rcases append_cons_inj.mp hfront with ⟨hevent, hfunc⟩ | hborrows | hborrows
      · refine .inl ⟨?_, String.toList_inj.mp hevent⟩
        show CallSite.mk s.func s.line = CallSite.mk t.func t.line
        rw [String.toList_inj.mp hfunc, hline]
      · exact .inr (.inl ⟨hline, hborrows⟩)
      · exact .inr (.inr ⟨hline.symm, hborrows⟩)
    · have hnone : '_' ∉ Nat.toDigits 10 s.line.toNat := Nat.underscore_not_in_toDigits
      -- an underscore would be among the digits of the line
      exact absurd (by simp [hdigits]) hnone
    · have hnone : '_' ∉ Nat.toDigits 10 t.line.toNat := Nat.underscore_not_in_toDigits
      exact absurd (by simp [hdigits]) hnone
  · rintro (⟨rfl, rfl⟩ | ⟨hline, hborrows⟩ | ⟨hline, hborrows⟩)
    · exact .inl ⟨rfl, rfl⟩
    · exact .inl ⟨append_cons_inj.mpr (.inr (.inl hborrows)), by rw [hline]⟩
    · exact .inl ⟨append_cons_inj.mpr (.inr (.inr hborrows)), by rw [hline]⟩

/-! ### What is hashed -/

/-- A text that is short enough is hashed in full. -/
theorem keyBytes_of_short (h : (s.keyText event).utf8ByteSize ≤ hashedBytes) :
    s.keyBytes event = Text.utf8 (s.keyText event) := by
  rw [keyBytes, List.take_of_length_le]
  rwa [Text.length_utf8]

/-- Where both texts are short enough, `keyBytes` tells apart what `keyText` does, since the bytes
    of a text can be read back. -/
theorem keyBytes_inj (h : (s.keyText event).utf8ByteSize ≤ hashedBytes)
    (h' : (t.keyText event').utf8ByteSize ≤ hashedBytes) :
    s.keyBytes event = t.keyBytes event' ↔ s.keyText event = t.keyText event' := by
  rw [keyBytes_of_short h, keyBytes_of_short h']
  refine ⟨fun heq => ?_, congrArg Text.utf8⟩
  have hread := congrArg Text.ofUtf8? heq
  rwa [Text.ofUtf8?_utf8, Text.ofUtf8?_utf8, Option.some.injEq] at hread

/-- A limiter that is asked about two writes with one text cannot tell them apart: `check` knows
    of them by their `key` only. -/
theorem check_congr (htext : s.keyText event = t.keyText event') (l : Limiter)
    (own : Option Quota) (now : UInt64) : l.check own event s now = l.check own event' t now := by
  have hkey : s.key event = t.key event' := by rw [key, key, keyBytes, keyBytes, htext]
  rw [Limiter.check, Limiter.check, hkey]

/-- What is hashed for two writes with texts of no more than 256 bytes tells them apart exactly if
    neither name borrows from the function of the other write. If one does, then a limiter treats
    the two writes as one. -/
theorem keyBytes_injective_iff (h : (s.keyText event).utf8ByteSize ≤ hashedBytes)
    (h' : (t.keyText event').utf8ByteSize ≤ hashedBytes) :
    ((s.keyBytes event = t.keyBytes event' → s = t ∧ event = event') ↔
        ¬ (Borrows s event t event' ∨ Borrows t event' s event)) ∧
      (Borrows s event t event' ∨ Borrows t event' s event →
        event ≠ event' ∧ ∀ (l : Limiter) (own : Option Quota) (now : UInt64),
          l.check own event s now = l.check own event' t now) := by
  have hne : Borrows s event t event' ∨ Borrows t event' s event → event ≠ event' := by
    rintro (hborrows | hborrows)
    · exact hborrows.ne
    · exact hborrows.ne.symm
  refine ⟨?_, fun hborrows => ⟨hne hborrows, check_congr (keyText_inj.mpr (.inr hborrows))⟩⟩
  rw [keyBytes_inj h h', keyText_inj]
  constructor
  · intro hsame hborrows
    exact hne hborrows (hsame (.inr hborrows)).2
  · rintro hnone (hsame | hborrows)
    · exact hsame
    · exact absurd hborrows hnone

/-- Names and functions with underscores where nothing is borrowed, in one line of two functions. -/
theorem keyBytes_injective_bootLate :
    let s : CallSite := ⟨"LATE_main", 7⟩
    let t : CallSite := ⟨"LATE_run", 7⟩
    (s.keyText "BOOT").utf8ByteSize ≤ hashedBytes ∧
      (t.keyText "BOOT_LATE").utf8ByteSize ≤ hashedBytes ∧
      ¬ Borrows s "BOOT" t "BOOT_LATE" ∧ ¬ Borrows t "BOOT_LATE" s "BOOT" := by
  intro s t
  have h : (s.keyText "BOOT").utf8ByteSize ≤ hashedBytes := by decide
  have h' : (t.keyText "BOOT_LATE").utf8ByteSize ≤ hashedBytes := by decide
  have hbytes : s.keyBytes "BOOT" ≠ t.keyBytes "BOOT_LATE" := by decide +kernel
  obtain ⟨hiff, -⟩ := keyBytes_injective_iff h h'
  exact ⟨h, h', not_or.mp (hiff.mp fun heq => absurd heq hbytes)⟩

/-- The name of the second write borrows from the function of the first one. A limiter that admits
    one write in a window admits the second write on its own and suppresses it behind the first one,
    although the two have neither their name nor their function in common. -/
theorem suppressed_of_borrowed :
    let s : CallSite := ⟨"LATE_main", 7⟩
    let t : CallSite := ⟨"main", 7⟩
    let start := Limiter.new ⟨5, 1⟩ 10 true
    Text.isName Limits.eventNameBytes "BOOT" = true ∧
      Text.isName Limits.eventNameBytes "BOOT_LATE" = true ∧
      (s.keyText "BOOT").utf8ByteSize ≤ hashedBytes ∧
      (t.keyText "BOOT_LATE").utf8ByteSize ≤ hashedBytes ∧
      s ≠ t ∧ s.keyBytes "BOOT" = t.keyBytes "BOOT_LATE" ∧
      (start.check none "BOOT_LATE" t 1000).2 = .admitted ∧
      ((start.check none "BOOT" s 1000).1.check none "BOOT_LATE" t 1000).2 = .suppressed := by
  decide +kernel

end CallSite

end EventReporter
