import EventReporter.Transport.History
namespace EventReporter.Transport

/-!
# What arrives

On a network that tells what has arrived, a datagram arrives exactly if the sender takes it for
sent: not at all if every attempt failed, and only once however many attempts there were.

* `attemptFrom_rule`, `sendOnce_rule` : what holds however the sending of a datagram goes.
* `arrives_sendRouted` : a record arrives at the socket of its route if it was sent.
-/

variable {α β σ : Type} {net : Network σ} {arrived : σ → List Datagram}

/-! ### Actions on a network -/

/-- Nothing arrives on account of the action. -/
def Quiet (arrived : σ → List Datagram) (act : Action σ β) : Prop :=
  ∀ s : Scene σ, arrived (act.run s).2.world = arrived s.world

/-- The datagram `d` arrives exactly if the action succeeds, and nothing else arrives. -/
def Arrives (arrived : σ → List Datagram) (act : Action σ (Except SendError Unit))
    (d : Datagram) : Prop :=
  ∀ s : Scene σ, arrived (act.run s).2.world
    = arrived s.world ++ if (act.run s).1.isOk then [d] else []

/-- `pure` is `Quiet`: nothing arrives on account of it. -/
theorem quiet_pure (x : β) : Quiet arrived (pure x) :=
  fun _ => rfl

/-- `note` is `Quiet`. -/
theorem quiet_note (e : Journal.Entry) : Quiet arrived (note e) :=
  fun _ => rfl

/-- Without an attempt nothing arrives. -/
theorem arrives_error (e : SendError) (d : Datagram) : Arrives arrived (pure (.error e)) d :=
  fun _ => (List.append_nil _).symm

/-- An action after one on account of which nothing arrives. -/
theorem Arrives.bind {act : Action σ β} {next : β → Action σ (Except SendError Unit)}
    {d : Datagram} (hact : Quiet arrived act) (hnext : ∀ x, Arrives arrived (next x) d) :
    Arrives arrived (act >>= next) d := by
  intro s
  rw [run_bind, hnext, hact]

/-! ### The course of a sending -/

/-- What holds of the two ways to end and does not depend on the attempts holds of all of
    `attemptFrom`. Every property of the attempts but their number is proved with this rule. -/
theorem attemptFrom_rule {P : Action σ (Except SendError Unit) → Prop} {path : String}
    {bytes : List UInt8}
    (hsend : ∀ next, (∀ x, P (next x)) → P (outside (net.sendTo path bytes) >>= next))
    (hnote : ∀ e act, P act → P (note e >>= fun _ => act)) (hok : P (pure (.ok ())))
    (herror : ∀ made cause, P (pure (.error (.undelivered path made cause))))
    (left made : Nat) (cause : Fault) : P (attemptFrom net path bytes left made cause) := by
  -- on the attempts that are left, for any number of them that were made
  induction left generalizing made cause with
  | zero => exact herror made cause
  | succ left ih =>
    refine hsend _ fun verdict => ?_
    cases verdict with
    | ok _ => exact hok
    | error cause =>
      by_cases htransient : cause.isTransient
      · simp only [htransient, if_true]
        exact hnote _ _ (ih _ _)
      · simp only [htransient, Bool.false_eq_true, if_false]
        exact herror _ _

/-- What holds of the attempts and of the failures without one, and does not depend on the socket
    and its room, holds of `sendOnce`. -/
theorem sendOnce_rule {P : Action σ (Except SendError Unit) → Prop} {t : Transport α}
    {route : Route} {bytes : List UInt8}
    (hopen : ∀ next, (∀ x, P (next x)) → P (outside net.openSocket >>= next))
    (hreserve : ∀ next, (∀ x, P (next x)) → P (outside (net.reserve t.maxSize) >>= next))
    (hnote : ∀ e act, P act → P (note e >>= fun _ => act))
    (hnoSocket : ∀ cause, P (pure (.error (.noSocket cause))))
    (hnoAddress : P (pure (.error (.undelivered (t.path route) 0 .pathTooLong))))
    (hattempts : P (attemptFrom net (t.path route) bytes t.attempts 0 .wouldBlock)) :
    P (sendOnce net t route bytes) := by
  have htry : P (if isAddress (t.path route) then
      attemptFrom net (t.path route) bytes t.attempts 0 .wouldBlock
    else pure (.error (.undelivered (t.path route) 0 .pathTooLong))) := by
    split
    · exact hattempts
    · exact hnoAddress
  refine hopen _ fun opened => ?_
  cases opened with
  | error cause => exact hnoSocket cause
  | ok _ =>
    refine hreserve _ fun reserved => ?_
    -- no room is no reason not to try
    cases reserved with
    | ok _ => exact htry
    | error cause => exact hnote _ _ htry

/-! ### A network for trying things out -/

/-- A network on which a socket can always be opened, and whose answers to datagrams are settled
    beforehand. It refuses what comes after them, and writes down what arrives. -/
def scripted : Network (List (Except Fault Unit) × List Datagram) where
  openSocket := fun w => (.ok (), w)
  reserve := fun _ w => (.ok (), w)
  sendTo := fun path bytes w =>
    match w.1 with
    | [] => (.error .refused, w)
    | .error cause :: answers => (.error cause, answers, w.2)
    | .ok () :: answers => (.ok (), answers, w.2 ++ [(path, bytes)])

/-- The `scripted` network writes down what has arrived. -/
theorem records_scripted : scripted.Records Prod.snd where
  openSocket := fun _ => rfl
  reserve := fun _ _ => rfl
  sendTo := by
    rintro path bytes ⟨answers, arrived⟩
    -- only the answer `ok` writes something down
    match answers with
    | [] => exact (List.append_nil _).symm
    | .error cause :: answers => exact (List.append_nil _).symm
    | .ok () :: answers => rfl

/-! ### One datagram -/

/-- However many attempts there are, the datagram arrives once if the last of them succeeds, and
    not at all if none does. This is about the answers one by one, which `attemptFrom_rule` does
    not see. -/
theorem arrives_attemptFrom (hnet : net.Records arrived) (path : String) (bytes : List UInt8)
    (left made : Nat) (cause : Fault) :
    Arrives arrived (attemptFrom net path bytes left made cause) (path, bytes) := by
  -- on the attempts that are left, for any number of them that were made
  induction left generalizing made cause with
  | zero => exact arrives_error _ _
  | succ left ih =>
    intro s
    have harrived := hnet.sendTo path bytes s.world
    rw [attemptFrom, run_bind, run_outside]
    cases hverdict : (net.sendTo path bytes s.world).1 with
    | ok _ =>
      rw [hverdict] at harrived
      exact harrived
    | error cause =>
      rw [hverdict] at harrived
      have hnone : arrived (net.sendTo path bytes s.world).2 = arrived s.world :=
        harrived.trans (List.append_nil _)
      -- the attempts that follow start from what had arrived before this one
      rw [← hnone]
      by_cases htransient : cause.isTransient
      · simp only [htransient, if_true]
        exact Arrives.bind (quiet_note _) (fun _ => ih _ _) _
      · simp only [htransient, Bool.false_eq_true, if_false]
        exact arrives_error _ _ _

/-- The datagram arrives at the socket of its route exactly if `sendOnce` says that it was
    sent. -/
theorem arrives_sendOnce (hnet : net.Records arrived) (t : Transport α) (route : Route)
    (bytes : List UInt8) :
    Arrives arrived (sendOnce net t route bytes) (t.path route, bytes) :=
  sendOnce_rule (P := (Arrives arrived · (t.path route, bytes)))
    (fun _ => Arrives.bind fun s => hnet.openSocket s.world)
    (fun _ => Arrives.bind fun s => hnet.reserve t.maxSize s.world)
    (fun e _ h => Arrives.bind (quiet_note e) fun _ => h)
    (fun _ => arrives_error _ _) (arrives_error _ _) (arrives_attemptFrom hnet _ _ _ _ _)

/-! ### One record -/

/-- The datagram that a record goes out as. -/
def datagram (t : Transport α) (content : α → List UInt8) (x : α) : Datagram :=
  (t.path (Route.taken (content x)), content x)

/-- The route that `choose` answers does not depend on the scene. -/
theorem run_choose (bytes : List UInt8) (s : Scene σ) :
    ((Route.choose bytes).run s).1 = Route.taken bytes := by
  unfold Route.choose Route.taken
  cases Route.ofRecord bytes <;> rfl

/-- `choose` is `Quiet`, with or without an entry in the journal. -/
theorem quiet_choose (bytes : List UInt8) : Quiet arrived (Route.choose bytes) := by
  unfold Route.choose
  cases Route.ofRecord bytes with
  | ok route => exact quiet_pure route
  | error e => exact fun _ => rfl

/-- A record arrives at the socket of its route exactly if `sendRouted` says that it was sent. -/
theorem arrives_sendRouted (hnet : net.Records arrived) (t : Transport α)
    (content : α → List UInt8) (x : α) :
    Arrives arrived (sendRouted net t (content x)) (t.datagram content x) := by
  intro s
  have hquiet : Quiet arrived (Route.choose (content x)) := quiet_choose _
  rw [sendRouted, run_bind, run_choose, arrives_sendOnce hnet, hquiet]
  rfl

end EventReporter.Transport
