import EventReporter.Proofs.Transport.Step
namespace EventReporter

/-!
# Why a record is not sent

A record of a size that can be sent fails for one of two reasons only, both of which lie outside
of the sender: there is no socket, or the datagram does not get through.

* `Transport.isOutside_of_send` : a sender has no other reasons.
* `SendError.code_of_isOutside` : each of the two has a status code of its own.
-/

/-- Whether the reason lies outside of the sender. -/
def SendError.isOutside : SendError → Bool
  | empty | overSize .. => false
  | noSocket _ | undelivered .. => true

/-- A failure that `isOutside` has the code of a missing socket or that of a failed attempt. -/
theorem SendError.code_of_isOutside {e : SendError} (h : e.isOutside = true) :
    e.code = Status.noSocket ∨ e.code = Status.sendFailed := by
  cases e with
  | empty => cases h
  | overSize size max => cases h
  | noSocket cause => exact .inl rfl
  | undelivered path attempts cause => exact .inr rfl

namespace Transport

variable {α β σ : Type} {content : α → List UInt8} {t : Transport α} {x : α}

/-- If the action fails, the reason lies outside. -/
def FailsOutside (act : Action σ (Except SendError Unit)) : Prop :=
  ∀ (s : Scene σ) (e : SendError), (act.run s).1 = .error e → e.isOutside = true

/-- A failure that `isOutside` is one that `FailsOutside` allows. -/
theorem failsOutside_error {e : SendError} (h : e.isOutside = true) :
    FailsOutside (pure (.error e) : Action σ _) := by
  rintro s _ ⟨⟩
  exact h

/-- A success is no failure. -/
theorem failsOutside_ok : FailsOutside (pure (.ok ()) : Action σ _) :=
  fun _ _ h => nomatch h

/-- `FailsOutside` is about the last action; what comes first does not matter. -/
theorem FailsOutside.bind {act : Action σ β} {next : β → Action σ (Except SendError Unit)}
    (h : ∀ x, FailsOutside (next x)) : FailsOutside (act >>= next) :=
  fun s => h (act.run s).1 (act.run s).2

/-- The attempts fail with `undelivered`, however many there were. -/
theorem failsOutside_attemptFrom (net : Network σ) (path : String) (bytes : List UInt8)
    (left made : Nat) (cause : Fault) :
    FailsOutside (attemptFrom net path bytes left made cause) :=
  attemptFrom_rule (P := FailsOutside) (fun _ => FailsOutside.bind)
    (fun _ _ h => FailsOutside.bind fun _ => h) failsOutside_ok (fun _ _ => failsOutside_error rfl)
    left made cause

/-- `sendOnce` fails for want of a socket or of an address, or because the attempts did. -/
theorem failsOutside_sendOnce (net : Network σ) (t : Transport α) (route : Route)
    (bytes : List UInt8) : FailsOutside (sendOnce net t route bytes) :=
  sendOnce_rule (P := FailsOutside) (fun _ => FailsOutside.bind) (fun _ => FailsOutside.bind)
    (fun _ _ h => FailsOutside.bind fun _ => h) (fun _ => failsOutside_error rfl)
    (failsOutside_error rfl) (failsOutside_attemptFrom net _ bytes _ _ _)

/-- `sendRouted` fails as `sendOnce` does, whatever the route. -/
theorem failsOutside_sendRouted (net : Network σ) (t : Transport α) (bytes : List UInt8) :
    FailsOutside (sendRouted net t bytes) :=
  FailsOutside.bind fun route => failsOutside_sendOnce net t route bytes

/-- `send` of a record of a size that can be sent fails for no other reason, however many wait
    before it: what becomes of these has no part in its result. -/
theorem isOutside_of_send (net : Network σ) (hsize : accepts content t x = true) (s : Scene σ)
    (e : SendError) (h : ((send net content t x).run s).1.result = .error e) :
    e.isOutside = true := by
  rw [send_of_accepts net hsize, run_bind] at h
  generalize (drain net content t []).run s = emptied at h
  obtain ⟨⟨emptiedTo, replayed⟩, s₁⟩ := emptied
  have hcause := failsOutside_sendRouted net emptiedTo (content x) s₁
  simp only [run_bind] at h
  generalize (sendRouted net emptiedTo (content x)).run s₁ = attempt at h hcause
  obtain ⟨verdict, s₂⟩ := attempt
  cases verdict with
  | ok _ => cases h
  | error cause =>
    cases h
    exact hcause e rfl

end Transport

end EventReporter
