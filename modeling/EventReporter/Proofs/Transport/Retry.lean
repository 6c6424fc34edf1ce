import EventReporter.Proofs.Transport.Attempt
namespace EventReporter

/-!
# How often a datagram is tried

A datagram is tried until the first answer that asking again would not change, and never more often
than the sender was told to. The error says how often it was tried, and what came of the last
attempt. The loop that empties the outbox tries no record that it has put back, so a call as a
whole is bounded too.

* `Transport.fares_attemptFrom` : what the attempts come to.
* `Transport.triesAtMost_send` : how many attempts there are in a call.
-/

variable {α β γ σ : Type}

/-! ### Answers -/

/-- What a network answers if it is asked so many times in a row to send a datagram. -/
def Network.answers (net : Network σ) (d : Datagram) : Nat → σ → List (Except Fault Unit)
  | 0, _ => []
  | n + 1, w => (net.sendTo d.1 d.2 w).1 :: net.answers d n (net.sendTo d.1 d.2 w).2

/-- There are as many `answers` as are asked for. -/
@[simp] theorem Network.length_answers (net : Network σ) (d : Datagram) (n : Nat) (w : σ) :
    (net.answers d n w).length = n := by
  induction n generalizing w with
  | zero => rfl
  | succ n ih => exact congrArg (· + 1) (ih _)

/-- What arrives is known beside what is tried, on the `watched` network. -/
theorem Network.Records.watched {net : Network σ} {arrived : σ → List Datagram}
    (h : net.Records arrived) : net.watched.Records (arrived ∘ Prod.fst) where
  openSocket := fun w => h.openSocket w.1
  reserve := fun size w => h.reserve size w.1
  sendTo := fun path bytes w => h.sendTo path bytes w.1

namespace Transport

/-- Whether asking again would not help. -/
def settles : Except Fault Unit → Bool
  | .ok () => true
  | .error cause => !cause.isTransient

/-- An answer that does not settle the matter is a fault that may pass. -/
theorem exists_transient_of_not_settles {answer : Except Fault Unit}
    (h : ¬ settles answer = true) : ∃ cause, answer = .error cause ∧ cause.isTransient = true := by
  cases answer with
  | ok _ => exact absurd rfl h
  | error cause => exact ⟨cause, rfl, by simpa [settles] using h⟩

/-- What the attempts to send to `path` come to that follow on `before` others, if these are the
    answers. There are `made` of them. -/
inductive Fares (path : String) (before : Nat) (answers : List (Except Fault Unit)) :
    (made : Nat) → Except SendError Unit → Prop where
  /-- The first answer that settles the matter is a success. -/
  | sent (busy later : List (Except Fault Unit)) (hbusy : ∀ answer ∈ busy, settles answer = false)
    (hanswers : answers = busy ++ .ok () :: later) :
    Fares path before answers (busy.length + 1) (.ok ())
  /-- It is an error, which is reported as it is. -/
  | refused (busy later : List (Except Fault Unit)) (cause : Fault)
    (hbusy : ∀ answer ∈ busy, settles answer = false) (hcause : cause.isTransient = false)
    (hanswers : answers = busy ++ .error cause :: later) :
    Fares path before answers (busy.length + 1)
      (.error (.undelivered path (before + (busy.length + 1)) cause))
  /-- There is no such answer, and the last one is reported. -/
  | givenUp (busy : List (Except Fault Unit)) (cause : Fault)
    (hbusy : ∀ answer ∈ busy, settles answer = false) (hcause : cause.isTransient = true)
    (hanswers : answers = busy ++ [.error cause]) :
    Fares path before answers answers.length
      (.error (.undelivered path (before + answers.length) cause))

namespace Fares

variable {path : String} {before made : Nat} {answers : List (Except Fault Unit)}
  {result : Except SendError Unit}

/-- An answer that does not settle the matter counts as one more attempt before the others. -/
theorem cons_busy {cause : Fault} (hcause : cause.isTransient = true)
    (h : Fares path (before + 1) answers made result) :
    Fares path before (.error cause :: answers) (made + 1) result := by
  have hbusy' : ∀ {busy : List (Except Fault Unit)}, (∀ answer ∈ busy, settles answer = false) →
      ∀ answer ∈ .error cause :: busy, settles answer = false := by
    intro busy hbusy
    exact List.forall_mem_cons.mpr ⟨by simp [settles, hcause], hbusy⟩
  have hbefore (n : Nat) : before + 1 + n = before + (n + 1) := by omega
  cases h with
  | sent busy later hbusy hanswers =>
    exact .sent (.error cause :: busy) later (hbusy' hbusy) (congrArg (_ :: ·) hanswers)
  | refused busy later last hbusy hlast hanswers =>
    rw [hbefore]
    exact .refused (.error cause :: busy) later last (hbusy' hbusy) hlast
      (congrArg (_ :: ·) hanswers)
  | givenUp busy last hbusy hlast hanswers =>
    rw [hbefore]
    exact .givenUp (.error cause :: busy) last (hbusy' hbusy) hlast (congrArg (_ :: ·) hanswers)

/-- There are no more attempts than answers. -/
theorem made_le (h : Fares path before answers made result) : made ≤ answers.length := by
  cases h with
  | sent busy later _ hanswers => simp [hanswers]
  | refused busy later cause _ _ hanswers => simp [hanswers]
  | givenUp busy cause _ _ hanswers => exact Nat.le_refl _

/-- There are no more attempts than answers that were asked for, by `length_answers`. -/
theorem made_le_of_answers {net : Network σ} {d : Datagram} {n : Nat} {w : σ}
    (h : Fares path before (net.answers d n w) made result) : made ≤ n := by
  have hle := h.made_le
  rwa [Network.length_answers] at hle

/-- The first answer that settles the matter is behind those that do not. -/
theorem find?_of_busy {busy : List (Except Fault Unit)}
    (hbusy : ∀ answer ∈ busy, settles answer = false) (rest : List (Except Fault Unit)) :
    (busy ++ rest).find? settles = rest.find? settles := by
  have hnone : busy.find? settles = none := by
    rw [List.find?_eq_none]
    intro answer hanswer
    simp [hbusy answer hanswer]
  rw [List.find?_append, hnone, Option.none_or]

/-- The attempts succeed exactly if the first answer that `settles` the matter is a success, in
    each of the three ways in which they `Fares` can go. -/
theorem ok_iff (h : Fares path before answers made result) :
    result = .ok () ↔ answers.find? settles = some (.ok ()) := by
  cases h with
  | sent busy later hbusy hanswers => simp [hanswers, find?_of_busy hbusy, settles]
  | refused busy later cause hbusy hcause hanswers =>
    simp [hanswers, find?_of_busy hbusy, settles, hcause]
  | givenUp busy cause hbusy hcause hanswers =>
    simp [hanswers, find?_of_busy hbusy, settles, hcause]

end Fares

/-! ### One datagram -/

variable {net : Network σ} {tried arrived : σ → List Datagram} {t : Transport α}

/-- An answer that settles the matter ends the loop. -/
theorem fares_of_settled (hnet : net.Watches tried) {path : String} {bytes : List UInt8}
    {s : Scene σ} (hanswer : settles (net.sendTo path bytes s.world).1 = true)
    (left before : Nat) (last : Fault) :
    let after := (attemptFrom net path bytes (left + 1) before last).run s
    Fares path before (net.answers (path, bytes) (left + 1) s.world) 1 after.1 ∧
      tried after.2.world = tried s.world ++ [(path, bytes)] := by
  have htried := hnet.sendTo path bytes s.world
  rw [attemptFrom, run_bind, run_outside, Network.answers]
  generalize net.sendTo path bytes s.world = sending at hanswer htried ⊢
  obtain ⟨answer, w⟩ := sending
  cases answer with
  | ok _ => exact ⟨.sent [] _ (List.forall_mem_nil _) rfl, htried⟩
  | error cause =>
    have hcause : cause.isTransient = false := by simpa [settles] using hanswer
    simp only [hcause, Bool.false_eq_true, if_false]
    exact ⟨.refused [] _ cause (List.forall_mem_nil _) hcause rfl, htried⟩

/-- Any other answer is one more attempt behind the loop. -/
theorem run_attemptFrom_of_busy {path : String} {bytes : List UInt8} {s : Scene σ} {cause : Fault}
    (hanswer : (net.sendTo path bytes s.world).1 = .error cause)
    (hcause : cause.isTransient = true) (left before : Nat) (last : Fault) :
    ∃ journal, (attemptFrom net path bytes (left + 1) before last).run s
      = (attemptFrom net path bytes left (before + 1) cause).run
          ⟨(net.sendTo path bytes s.world).2, journal⟩ := by
  rw [attemptFrom, run_bind, run_outside, hanswer]
  simp only [hcause, if_true]
  exact ⟨_, rfl⟩

/-- The loop makes at least one attempt, and as many as the answers call for. By induction on the
    attempts that are left after the first: `fares_of_settled`, or one attempt more by
    `cons_busy`. -/
theorem fares_attemptFrom (hnet : net.Watches tried) (path : String) (bytes : List UInt8)
    (left before : Nat) (last : Fault) (s : Scene σ) :
    let after := (attemptFrom net path bytes (left + 1) before last).run s
    ∃ made, Fares path before (net.answers (path, bytes) (left + 1) s.world) made after.1 ∧
      tried after.2.world = tried s.world ++ List.replicate made (path, bytes) := by
  -- on the attempts that are left after the first
  induction left generalizing before last s with
  | zero =>
    by_cases hsettled : settles (net.sendTo path bytes s.world).1
    · exact ⟨1, fares_of_settled hnet hsettled 0 before last⟩
    · obtain ⟨cause, hanswer, hcause⟩ := exists_transient_of_not_settles hsettled
      obtain ⟨journal, hrun⟩ := run_attemptFrom_of_busy hanswer hcause 0 before last
      rw [hrun, Network.answers, hanswer]
      exact ⟨1, .givenUp [] cause (List.forall_mem_nil _) hcause rfl,
        hnet.sendTo path bytes s.world⟩
  | succ left ih =>
    by_cases hsettled : settles (net.sendTo path bytes s.world).1
    · exact ⟨1, fares_of_settled hnet hsettled (left + 1) before last⟩
    · obtain ⟨cause, hanswer, hcause⟩ := exists_transient_of_not_settles hsettled
      obtain ⟨journal, hrun⟩ := run_attemptFrom_of_busy hanswer hcause (left + 1) before last
      obtain ⟨made, hfares, hmore⟩ :=
        ih (before + 1) cause ⟨(net.sendTo path bytes s.world).2, journal⟩
      rw [hrun, Network.answers, hanswer]
      refine ⟨made + 1, hfares.cons_busy hcause, hmore.trans ?_⟩
      rw [hnet.sendTo, List.append_assoc]
      rfl

/-- Want of room does not keep a datagram from being tried. -/
theorem run_sendOnce_of_socket {s : Scene σ} (hopen : (net.openSocket s.world).1 = .ok ())
    (t : Transport α) (route : Route) (bytes : List UInt8) :
    ∃ journal, (sendOnce net t route bytes).run s
      = (if isAddress (t.path route) then
          attemptFrom net (t.path route) bytes t.attempts 0 .wouldBlock
        else pure (.error (.undelivered (t.path route) 0 .pathTooLong))).run
          ⟨(net.reserve t.maxSize (net.openSocket s.world).2).2, journal⟩ := by
  rw [sendOnce, run_bind, run_outside, hopen]
  simp only [run_bind, run_outside]
  cases (net.reserve t.maxSize (net.openSocket s.world).2).1 with
  | ok _ => exact ⟨s.journal, rfl⟩
  | error cause => exact ⟨_, rfl⟩

/-- Without a socket there is no attempt. -/
theorem run_sendOnce_of_no_socket {s : Scene σ} {cause : Fault}
    (hopen : (net.openSocket s.world).1 = .error cause) (t : Transport α) (route : Route)
    (bytes : List UInt8) :
    (sendOnce net t route bytes).run s
      = (.error (.noSocket cause), { s with world := (net.openSocket s.world).2 }) := by
  rw [sendOnce, run_bind, run_outside, hopen]
  rfl

/-- A datagram is not tried without a socket, nor if no address has room for its path. Otherwise
    it is tried as often as the answers call for, by `fares_attemptFrom`. -/
theorem fares_sendOnce (hnet : net.Watches tried) (hattempts : t.attempts ≠ 0) (route : Route)
    (bytes : List UInt8) (s : Scene σ) :
    let d : Datagram := (t.path route, bytes)
    let after := (sendOnce net t route bytes).run s
    match net.openSocket s.world with
    | (.error cause, _) =>
      after.1 = .error (.noSocket cause) ∧ tried after.2.world = tried s.world
    | (.ok (), w) =>
      if isAddress d.1 then
        ∃ made,
          Fares d.1 0 (net.answers d t.attempts (net.reserve t.maxSize w).2) made after.1 ∧
            tried after.2.world = tried s.world ++ List.replicate made d
      else after.1 = .error (.undelivered d.1 0 .pathTooLong) ∧
        tried after.2.world = tried s.world := by
  have hopenTried := hnet.openSocket s.world
  have hreserveTried := hnet.reserve t.maxSize (net.openSocket s.world).2
  cases hopen : (net.openSocket s.world).1 with
  | error cause =>
    have hrun := run_sendOnce_of_no_socket hopen t route bytes
    rw [← Prod.eta (net.openSocket s.world), hopen]
    simp only [hrun, true_and]
    exact hopenTried
  | ok _ =>
    obtain ⟨journal, hrun⟩ := run_sendOnce_of_socket hopen t route bytes
    rw [← Prod.eta (net.openSocket s.world), hopen]
    simp only [hrun]
    by_cases haddress : isAddress (t.path route)
    · obtain ⟨left, hleft⟩ := Nat.exists_eq_succ_of_ne_zero hattempts
      obtain ⟨made, hfares, hmore⟩ := fares_attemptFrom hnet (t.path route) bytes left 0 .wouldBlock
        ⟨(net.reserve t.maxSize (net.openSocket s.world).2).2, journal⟩
      simp only [haddress, if_true, hleft]
      exact ⟨made, hfares, by rw [hmore, hreserveTried, hopenTried]⟩
    · simp only [haddress, Bool.false_eq_true, if_false]
      exact ⟨rfl, hreserveTried.trans hopenTried⟩

/-! ### The attempts of a call -/

/-- In the course of the action there are at most `most` attempts, and its result is one of
    `ends`. -/
def TriesAtMost (tried : σ → List Datagram) (most : Nat) (ends : β → Prop) (act : Action σ β) :
    Prop :=
  ∀ s : Scene σ,
    (∃ more, tried (act.run s).2.world = tried s.world ++ more ∧ more.length ≤ most) ∧
      ends (act.run s).1

/-- An action that is `Quiet` tries nothing. -/
theorem triesAtMost_of_quiet {act : Action σ β} {ends : β → Prop} (hquiet : Quiet tried act)
    (hends : ∀ s, ends (act.run s).1) (most : Nat) : TriesAtMost tried most ends act :=
  fun s => ⟨⟨[], (hquiet s).trans (List.append_nil _).symm, Nat.zero_le most⟩, hends s⟩

/-- `pure` tries nothing. -/
theorem triesAtMost_pure {ends : β → Prop} {x : β} (h : ends x) (most : Nat) :
    TriesAtMost tried most ends (pure x : Action σ β) :=
  triesAtMost_of_quiet (quiet_pure x) (fun _ => h) most

/-- The attempts of two actions add up. -/
theorem TriesAtMost.bind {act : Action σ β} {next : β → Action σ γ} {between : β → Prop}
    {ends : γ → Prop} {first most : Nat} (hact : TriesAtMost tried first between act)
    (hnext : ∀ x, between x → TriesAtMost tried most ends (next x)) :
    TriesAtMost tried (first + most) ends (act >>= next) := by
  intro s
  obtain ⟨⟨before, hbefore, hfirst⟩, hbetween⟩ := hact s
  obtain ⟨⟨more, hmore, hmost⟩, hends⟩ := hnext _ hbetween (act.run s).2
  refine ⟨⟨before ++ more, ?_, ?_⟩, hends⟩
  · rw [run_bind, hmore, hbefore, List.append_assoc]
  · rw [List.length_append]
    exact Nat.add_le_add hfirst hmost

/-- `sendOnce` tries a datagram as often as the sender was told to, at most. -/
theorem triesAtMost_sendOnce (hnet : net.Watches tried) (hattempts : t.attempts ≠ 0)
    (route : Route) (bytes : List UInt8) :
    TriesAtMost tried t.attempts (fun _ => True) (sendOnce net t route bytes) := by
  refine fun s => ⟨?_, trivial⟩
  have hfares := fares_sendOnce hnet hattempts route bytes s
  simp only at hfares
  split at hfares
  · exact ⟨[], hfares.2.trans (List.append_nil _).symm, Nat.zero_le _⟩
  · split at hfares
    · obtain ⟨made, hmade, hmore⟩ := hfares
      refine ⟨_, hmore, ?_⟩
      rw [List.length_replicate]
      exact hmade.made_le_of_answers
    · exact ⟨[], hfares.2.trans (List.append_nil _).symm, Nat.zero_le _⟩

/-- `sendRouted` tries a record as often as the sender was told to, at most. -/
theorem triesAtMost_sendRouted (hnet : net.Watches tried) (hattempts : t.attempts ≠ 0)
    (bytes : List UInt8) :
    TriesAtMost tried t.attempts (fun _ => True) (sendRouted net t bytes) := by
  have hroute : TriesAtMost tried 0 (fun _ => True) (Route.choose bytes) :=
    triesAtMost_of_quiet (quiet_choose bytes) (fun _ => trivial) 0
  have hsend := hroute.bind fun route _ => triesAtMost_sendOnce hnet hattempts route bytes
  rwa [Nat.zero_add] at hsend

variable {content : α → List UInt8}

/-- `drain` tries each record that waits, at most, as often as it may. -/
theorem triesAtMost_drain (hnet : net.Watches tried) (hattempts : t.attempts ≠ 0)
    (done : List α) :
    TriesAtMost tried (t.outbox.size * t.attempts) (fun r => r.1.attempts = t.attempts)
      (drain net content t done) := by
  rw [Outbox.size]
  -- on the records that wait
  induction hn : t.outbox.records generalizing t done with
  | nil =>
    rw [drain_of_nil net hn]
    exact triesAtMost_of_quiet (quiet_pure _) (fun _ => rfl) _
  | cons x rest ih =>
    rw [drain_of_cons net hn, List.length_cons, Nat.succ_mul, Nat.add_comm]
    refine (triesAtMost_sendRouted hnet hattempts (content x)).bind fun verdict _ => ?_
    cases verdict with
    | ok _ => exact ih (t := t.drained [x] rest) hattempts (x :: done) rfl
    | error e =>
      -- the record that is put back ends the loop
      exact triesAtMost_of_quiet (fun _ => rfl) (fun _ => rfl) _

/-- `send` tries each record that waits, and its own, as often as it may at most:
    `triesAtMost_drain`, and one more. -/
theorem triesAtMost_send (hnet : net.Watches tried) (hattempts : t.attempts ≠ 0) (x : α) :
    TriesAtMost tried ((t.outbox.size + 1) * t.attempts) (fun _ => True)
      (send net content t x) := by
  by_cases hsize : accepts content t x
  · rw [send_of_accepts net hsize, Nat.succ_mul]
    refine (triesAtMost_drain hnet hattempts []).bind ?_
    rintro ⟨emptied, replayed⟩ hsame
    have hown := triesAtMost_sendRouted hnet (t := emptied) (hsame ▸ hattempts) (content x)
    rw [hsame] at hown
    rw [← Nat.add_zero t.attempts]
    refine hown.bind fun verdict _ => ?_
    cases verdict with
    | ok _ => exact triesAtMost_pure trivial 0
    | error e =>
      refine triesAtMost_of_quiet (fun s => ?_) (fun _ => trivial) 0
      -- the outbox and the journal are no concern of the network
      obtain ⟨journal, hrun⟩ := run_enqueue emptied.outbox x s
      simp only [run_bind, hrun]
      rfl
  · rw [send_of_not_accepts net (Bool.eq_false_iff.mpr hsize)]
    exact triesAtMost_pure trivial _

/-- A sender that was told to try a datagram `attempts` times, whatever has become of it since,
    tries it up to the first answer that settles the matter, and `max attempts 1` times at most.
    The datagram arrives once if that answer is a success, and not at all otherwise. In a call,
    every record that waits and the new one are tried that often at most. -/
theorem attempts_bounded (net : Network σ) (content : α → List UInt8)
    (normalPath urgentPath : String) (attempts capacity maxSize : Nat) (outbox : Outbox α)
    (sent failed replayed : Nat) {tried arrived : σ → List Datagram} (htried : net.Watches tried)
    (harrived : net.Records arrived) (s : Scene σ) :
    let t : Transport α :=
      { (new normalPath urgentPath attempts capacity maxSize : Transport α) with
        outbox, sent, failed, replayed }
    let most := max attempts 1
    (∀ (route : Route) (bytes : List UInt8),
      let d : Datagram := (t.path route, bytes)
      let after := (sendOnce net t route bytes).run s
      match net.openSocket s.world with
      | (.error cause, _) =>
        after.1 = .error (.noSocket cause) ∧ tried after.2.world = tried s.world
      | (.ok (), w) =>
        if isAddress d.1 then
          ∃ made,
            let answers := net.answers d most (net.reserve maxSize w).2
            made ≤ most ∧ Fares d.1 0 answers made after.1 ∧
              (after.1 = .ok () ↔ answers.find? settles = some (.ok ())) ∧
              tried after.2.world = tried s.world ++ List.replicate made d ∧
              arrived after.2.world = arrived s.world ++ if after.1.isOk then [d] else []
        else after.1 = .error (.undelivered d.1 0 .pathTooLong) ∧
          tried after.2.world = tried s.world) ∧
      ∀ x : α, ∃ more,
        tried ((send net content t x).run s).2.world = tried s.world ++ more ∧
          more.length ≤ (outbox.size + 1) * most := by
  intro t most
  have hattempts : t.attempts ≠ 0 := Nat.ne_of_gt (Nat.le_max_right attempts 1)
  refine ⟨fun route bytes => ?_, fun x => (triesAtMost_send htried hattempts x s).1⟩
  have hfares := fares_sendOnce htried hattempts route bytes s
  have harrives := arrives_sendOnce harrived t route bytes s
  intro d after
  simp only at hfares
  split at hfares
  · exact hfares
  · split at hfares
    · next haddress =>
      obtain ⟨made, hmade, hmore⟩ := hfares
      simp only [d, haddress, if_true]
      exact ⟨made, hmade.made_le_of_answers, hmade, hmade.ok_iff, hmore, harrives⟩
    · next haddress =>
      simp only [d, haddress, Bool.false_eq_true, if_false]
      exact hfares

/-- A scene in which the collector is busy twice before it takes datagrams. -/
def busyTwice : Scene ((List (Except Fault Unit) × List Datagram) × List Datagram) :=
  ⟨(([.error .wouldBlock, .error .interrupted, .ok (), .ok ()], []), []), #[]⟩

/-- Three attempts are enough then. In a call the first two are spent on the record that waits, if
    there are no more than two for each. -/
theorem attempts_bounded_busyTwice :
    let net := scripted.watched
    let tried : _ → List Datagram := Prod.snd
    let arrived : _ → List Datagram := Prod.snd ∘ Prod.fst
    let thrice : Transport (List UInt8) := new "normal" "urgent" 3 4 300
    let twice : Transport (List UInt8) :=
      { (new "normal" "urgent" 2 4 300 : Transport (List UInt8)) with outbox := ⟨[[2]], 4, 0⟩ }
    let once := (sendOnce net thrice .normal [1]).run busyTwice
    let call := (send net id twice [1]).run busyTwice
    net.Watches tried ∧ net.Records arrived ∧
      (∃ made,
        Fares "normal" 0 [.error .wouldBlock, .error .interrupted, .ok ()] made once.1 ∧
          tried once.2.world = List.replicate made ("normal", [1])) ∧
      once.1 = .ok () ∧ arrived once.2.world = [("normal", [1])] ∧
      (∃ more, tried call.2.world = more ∧ more.length ≤ (1 + 1) * 2) ∧
      tried call.2.world = [("normal", [2]), ("normal", [2]), ("normal", [1])] := by
  have htried := Network.watches_watched scripted
  have harrived := records_scripted.watched
  obtain ⟨honce, -⟩ := attempts_bounded scripted.watched id "normal" "urgent" 3 4 300 (.new 4)
    0 0 0 htried harrived busyTwice
  obtain ⟨-, hcall⟩ := attempts_bounded scripted.watched id "normal" "urgent" 2 4 300
    ⟨[[2]], 4, 0⟩ 0 0 0 htried harrived busyTwice
  obtain ⟨made, -, hfares, -, hmore, -⟩ := honce .normal [1]
  exact ⟨htried, harrived, ⟨made, hfares, hmore⟩, by decide +kernel, by decide +kernel,
    hcall [1], by decide +kernel⟩

end Transport

end EventReporter
