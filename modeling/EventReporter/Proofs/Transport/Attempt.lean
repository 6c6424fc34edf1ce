import EventReporter.Proofs.Transport.Step
namespace EventReporter

/-!
# Where datagrams are sent

A network can be watched: whatever it answers, every datagram that somebody asks it to send is
written down. All that a sender tries to send, at once or from its outbox, with success or
without, goes to the socket of the record's own route.

* `Network.watches_watched` : every network can be watched.
* `Transport.triesOnly_sendAll` : a history of a sender tries nothing else.
-/

variable {α β γ σ : Type}

/-- `tried` tells from the state of the outside which datagrams it was asked to send, in order:
    those that arrived and those that did not, and each of them as often as it was tried. -/
structure Network.Watches (net : Network σ) (tried : σ → List Datagram) : Prop where
  /-- A socket is no datagram. -/
  openSocket (w : σ) : tried (net.openSocket w).2 = tried w
  /-- Neither is room. -/
  reserve (size : Nat) (w : σ) : tried (net.reserve size w).2 = tried w
  /-- A datagram counts whatever its sender is told. -/
  sendTo (path : String) (bytes : List UInt8) (w : σ) :
    tried (net.sendTo path bytes w).2 = tried w ++ [(path, bytes)]

/-- A network beside which every datagram is written down that it is asked to send. -/
def Network.watched (net : Network σ) : Network (σ × List Datagram) where
  openSocket := fun (w, tried) =>
    let (answer, w) := net.openSocket w
    (answer, w, tried)
  reserve := fun size (w, tried) =>
    let (answer, w) := net.reserve size w
    (answer, w, tried)
  sendTo := fun path bytes (w, tried) =>
    let (answer, w) := net.sendTo path bytes w
    (answer, w, tried ++ [(path, bytes)])

/-- A `watched` network writes down what it is tried with. -/
theorem Network.watches_watched (net : Network σ) : net.watched.Watches Prod.snd where
  openSocket := fun _ => rfl
  reserve := fun _ _ => rfl
  sendTo := fun _ _ _ => rfl

namespace Transport

variable {net : Network σ} {tried : σ → List Datagram} {allowed : Datagram → Prop}

/-! ### What an action tries -/

/-- In the course of the action only datagrams that are allowed are tried, and its result is one of
    `ends`. -/
def TriesOnly (tried : σ → List Datagram) (allowed : Datagram → Prop) (ends : β → Prop)
    (act : Action σ β) : Prop :=
  ∀ s : Scene σ,
    (∃ more, tried (act.run s).2.world = tried s.world ++ more ∧ ∀ d ∈ more, allowed d) ∧
      ends (act.run s).1

/-- An action that is `Quiet` tries nothing. -/
theorem triesOnly_of_quiet {act : Action σ β} {ends : β → Prop} (hquiet : Quiet tried act)
    (hends : ∀ s, ends (act.run s).1) : TriesOnly tried allowed ends act :=
  fun s => ⟨⟨[], (hquiet s).trans (List.append_nil _).symm, fun _ hd => nomatch hd⟩, hends s⟩

/-- `pure` tries nothing. -/
theorem triesOnly_pure {ends : β → Prop} {x : β} (h : ends x) :
    TriesOnly tried allowed ends (pure x : Action σ β) :=
  triesOnly_of_quiet (quiet_pure x) fun _ => h

/-- `note` tries nothing. -/
theorem triesOnly_note (e : Journal.Entry) :
    TriesOnly tried allowed (fun _ => True) (note e : Action σ Unit) :=
  triesOnly_of_quiet (quiet_note e) fun _ => trivial

/-- What is tried by the second action comes after what is tried by the first, so if both try only
    what is allowed, so do they together. -/
theorem TriesOnly.bind {act : Action σ β} {next : β → Action σ γ} {between : β → Prop}
    {ends : γ → Prop} (hact : TriesOnly tried allowed between act)
    (hnext : ∀ x, between x → TriesOnly tried allowed ends (next x)) :
    TriesOnly tried allowed ends (act >>= next) := by
  intro s
  obtain ⟨⟨first, hfirst, hfirstAllowed⟩, hbetween⟩ := hact s
  obtain ⟨⟨more, hmore, hmoreAllowed⟩, hends⟩ := hnext _ hbetween (act.run s).2
  refine ⟨⟨first ++ more, ?_, ?_⟩, hends⟩
  · rw [run_bind, hmore, hfirst, List.append_assoc]
  · intro d hd
    obtain hd | hd := List.mem_append.mp hd
    · exact hfirstAllowed d hd
    · exact hmoreAllowed d hd

/-! ### One datagram -/

/-- `sendTo` tries one datagram. -/
theorem triesOnly_sendTo (hnet : net.Watches tried) {path : String} {bytes : List UInt8}
    (h : allowed (path, bytes)) :
    TriesOnly tried allowed (fun _ => True) (outside (net.sendTo path bytes)) := by
  refine fun s => ⟨⟨[(path, bytes)], hnet.sendTo path bytes s.world, ?_⟩, trivial⟩
  intro d hd
  rw [List.mem_singleton.mp hd]
  exact h

/-- Each of the attempts tries the same datagram: `attemptFrom_rule`, with `triesOnly_sendTo` for
    the attempt. -/
theorem triesOnly_attemptFrom (hnet : net.Watches tried) {path : String} {bytes : List UInt8}
    (h : allowed (path, bytes)) (left made : Nat) (cause : Fault) :
    TriesOnly tried allowed (fun _ => True) (attemptFrom net path bytes left made cause) :=
  attemptFrom_rule (P := TriesOnly tried allowed fun _ => True)
    (fun _ hnext => (triesOnly_sendTo hnet h).bind fun x _ => hnext x)
    (fun e _ hact => (triesOnly_note e).bind fun _ _ => hact)
    (triesOnly_pure trivial) (fun _ _ => triesOnly_pure trivial) left made cause

/-- `sendOnce` tries the datagram on the socket of its route, and nothing while it opens that. -/
theorem triesOnly_sendOnce (hnet : net.Watches tried) {t : Transport α} {route : Route}
    {bytes : List UInt8} (h : allowed (t.path route, bytes)) :
    TriesOnly tried allowed (fun _ => True) (sendOnce net t route bytes) := by
  have hopen : TriesOnly tried allowed (fun _ => True) (outside net.openSocket) :=
    triesOnly_of_quiet (fun s => hnet.openSocket s.world) fun _ => trivial
  have hreserve : TriesOnly tried allowed (fun _ => True) (outside (net.reserve t.maxSize)) :=
    triesOnly_of_quiet (fun s => hnet.reserve t.maxSize s.world) fun _ => trivial
  exact sendOnce_rule (P := TriesOnly tried allowed fun _ => True)
    (fun _ hnext => hopen.bind fun x _ => hnext x) (fun _ hnext => hreserve.bind fun x _ => hnext x)
    (fun e _ hact => (triesOnly_note e).bind fun _ _ => hact)
    (fun _ => triesOnly_pure trivial) (triesOnly_pure trivial) (triesOnly_attemptFrom hnet h _ _ _)

/-! ### Records -/

/-- The datagram goes to the socket of its own route, the sockets being at these paths. -/
def Routed (paths : Route → String) (d : Datagram) : Prop :=
  d.1 = paths (Route.taken d.2)

/-- `sendRouted` tries a record on the socket of the route that is `taken`. -/
theorem triesOnly_sendRouted (hnet : net.Watches tried) (t : Transport α) (bytes : List UInt8) :
    TriesOnly tried (Routed t.path) (fun _ => True) (sendRouted net t bytes) := by
  have hroute : TriesOnly tried (Routed t.path) (· = Route.taken bytes) (Route.choose bytes) :=
    triesOnly_of_quiet (quiet_choose bytes) (run_choose bytes)
  refine hroute.bind ?_
  rintro _ rfl
  exact triesOnly_sendOnce hnet rfl

variable {content : α → List UInt8}

/-- `drain` tries each waiting record on the socket of its own route. -/
theorem triesOnly_drain (hnet : net.Watches tried) (t : Transport α) (done : List α) :
    TriesOnly tried (Routed t.path) (fun r => r.1.path = t.path) (drain net content t done) := by
  -- on the records that wait
  induction hn : t.outbox.records generalizing t done with
  | nil =>
    rw [drain_of_nil net hn]
    exact triesOnly_pure rfl
  | cons x rest ih =>
    rw [drain_of_cons net hn]
    refine (triesOnly_sendRouted hnet t (content x)).bind fun verdict _ => ?_
    cases verdict with
    -- a sender whose records leave it keeps its sockets
    | ok _ => exact ih (t.drained [x] rest) (x :: done) rfl
    | error e => exact (triesOnly_note _).bind fun _ _ => triesOnly_pure rfl

/-- `send` tries the waiting records, and the new one, each on the socket of its own route. -/
theorem triesOnly_send (hnet : net.Watches tried) (t : Transport α) (x : α) :
    TriesOnly tried (Routed t.path) (fun sending => sending.transport.path = t.path)
      (send net content t x) := by
  by_cases hsize : accepts content t x
  · rw [send_of_accepts net hsize]
    refine (triesOnly_drain hnet t []).bind ?_
    rintro ⟨emptied, replayed⟩ hpath
    have hown := triesOnly_sendRouted hnet emptied (content x)
    rw [hpath] at hown
    refine hown.bind fun verdict _ => ?_
    cases verdict with
    | ok _ => exact triesOnly_pure hpath
    | error e =>
      have hquiet : Quiet tried (emptied.outbox.enqueue x : Action σ _) := by
        intro s
        obtain ⟨journal, hrun⟩ := run_enqueue emptied.outbox x s
        rw [hrun]
      -- a record that joins the outbox is not tried again
      exact (triesOnly_of_quiet hquiet fun _ => trivial).bind fun _ (_ : True) =>
        triesOnly_pure hpath
  · rw [send_of_not_accepts net (Bool.eq_false_iff.mpr hsize)]
    exact triesOnly_pure rfl

/-- Whatever waits and however the network answers, all that `sendAll` tries goes to the socket of
    its own route, by `triesOnly_send` for each record. -/
theorem triesOnly_sendAll (hnet : net.Watches tried) (t : Transport α) (records : List α) :
    TriesOnly tried (Routed t.path) (fun r => r.1.path = t.path)
      (sendAll net content t records) := by
  induction records generalizing t with
  | nil => exact triesOnly_pure rfl
  | cons x xs ih =>
    refine (triesOnly_send hnet t x).bind fun sending hpath => ?_
    have hrest := ih sending.transport
    rw [hpath] at hrest
    exact hrest.bind fun _ hlast => triesOnly_pure hlast

end Transport

end EventReporter
