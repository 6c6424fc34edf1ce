import EventReporter.Proofs.Record.Workbench
import EventReporter.Proofs.Transport.Attempt
namespace EventReporter.Route

/-!
# Routes by name and by bytes

The bytes of a record keep its names and its category where its route is looked up, so they lead to
the socket that the event itself asks for, whatever else was done to the record. This holds for each
attempt to send it, the first one and those from the outbox.

* `ofRecord_build` : the route by the bytes is the route by name.
-/

/-- Whatever was done to a record whose names are in order, its header has them as they were
    given: they are part of the `frame`, and short enough not to be cut. -/
theorem header_applyAll {domain name : String}
    (hdomain : Text.isName Limits.domainBytes domain = true)
    (hname : Text.isName Limits.eventNameBytes name = true) (type : EventType) (limit : Nat)
    (changes : List Record.Change) :
    let h := ((Record.Builder.new domain name type limit).applyAll changes).header
    h.domain = domain ∧ h.name = name ∧ h.type = type := by
  have hframe := Record.Builder.frame_applyAll (Record.Builder.new domain name type limit) changes
  have hdomainCut : (Header.new domain name type).domain = domain :=
    Text.cut_of_fits (Text.size_le_of_isName hdomain)
  have hnameCut : (Header.new domain name type).name = name :=
    Text.cut_of_fits (Text.size_le_of_isName hname)
  exact ⟨(congrArg Record.Builder.Frame.domain hframe).trans hdomainCut,
    (congrArg Record.Builder.Frame.name hframe).trans hnameCut,
    congrArg Record.Builder.Frame.type hframe⟩

/-- `ofRecord` takes the route from the header of a `layout`, by `peekHeader_layout`. -/
theorem ofRecord_layout {b : Record.Builder} (h : b.header.Storable) :
    ofRecord b.layout = .ok (ofEvent b.header.domain b.header.name b.header.type) := by
  rw [ofRecord, Record.peekHeader_layout h]
  rfl

/-- The route that is `taken` is the one of the record, if it has one. -/
theorem taken_of_ofRecord {record : List UInt8} {route : Route} (h : ofRecord record = .ok route) :
    taken record = route := by
  rw [taken, h]

/-- `choose` says nothing of a record that has a route. -/
theorem choose_of_ofRecord {σ : Type} {record : List UInt8} {route : Route}
    (h : ofRecord record = .ok route) : (choose record : Action σ Route) = pure route := by
  rw [choose, h]

/-- If the names of an event are in order then its record, whatever was done to it before it is laid
    out, has the route that the event has by its names and its category; nothing is said when the
    route is chosen. While records are sent in order, whatever waits and however the network
    answers, every attempt to send it goes to the socket of this route. -/
theorem ofRecord_build {domain name : String}
    (hdomain : Text.isName Limits.domainBytes domain = true)
    (hname : Text.isName Limits.eventNameBytes name = true) (type : EventType) (limit : Nat)
    (acts : List Record.Workbench.Act) {bytes : List UInt8}
    (hbuild : ((Record.Workbench.fresh (.new domain name type limit)).applyAll acts).build.1
      = .ok bytes) :
    ofRecord bytes = .ok (ofEvent domain name type) ∧
      (∀ σ : Type, (choose bytes : Action σ Route) = pure (ofEvent domain name type)) ∧
      ∀ (σ α : Type) (net : Network σ) (tried : σ → List Datagram) (content : α → List UInt8)
        (t : Transport α) (records : List α) (s : Scene σ), net.Watches tried →
        ∃ more, tried ((t.sendAll net content records).run s).2.world = tried s.world ++ more ∧
          ∀ d ∈ more, d.2 = bytes → d.1 = t.path (ofEvent domain name type) := by
  rw [Record.Workbench.build_eq, Record.Workbench.builder_applyAll] at hbuild
  obtain ⟨rfl, _, _⟩ := Record.Builder.build_eq_ok hbuild
  have hheader := header_applyAll hdomain hname type limit
    (acts.filterMap Record.Workbench.Act.change?)
  have hstorable := Record.storable_applyAll (Text.nul_notMem_of_isName hdomain)
    (Text.nul_notMem_of_isName hname) type limit (acts.filterMap Record.Workbench.Act.change?)
  have hroute := ofRecord_layout hstorable
  rw [hheader.1, hheader.2.1, hheader.2.2] at hroute
  refine ⟨hroute, fun σ => choose_of_ofRecord hroute, ?_⟩
  intro σ α net tried content t records s hnet
  obtain ⟨⟨more, hmore, hrouted⟩, _⟩ := Transport.triesOnly_sendAll hnet t records s
  -- `TriesOnly` has each attempt on the route of what is sent, and that is the one of the header
  refine ⟨more, hmore, fun d hd hbytes => ?_⟩
  rw [hrouted d hd, hbytes]
  exact congrArg t.path (taken_of_ofRecord hroute)

/-- Work on a record in the course of which it is laid out, and changed again. -/
def sampleActs : List Record.Workbench.Act :=
  [.change (.timestamp 1700000000000), .build, .change (.append ⟨"FRAMES", .scalar .string "x\ny"⟩),
    .change (.trace ⟨1, 77, 2, 3⟩)]

/-- A workbench after this work, for an event that is urgent. -/
def sampleWorkbench : Record.Workbench :=
  (Record.Workbench.fresh (.new "GRAPHIC" "NO_DRAW" .fault 300)).applyAll sampleActs

/-- What is tried if a record is sent twice and the collector is away at first: the record, the same
    record from the outbox, and the record again. -/
def sampleAttempts (bytes : List UInt8) : List Datagram :=
  (((Transport.new "normal" "urgent" 2 8 300).sendAll Transport.scripted.watched id
    [bytes, bytes]).run ⟨(([.error .refused, .ok (), .ok ()], []), []), #[]⟩).2.world.2

/-- A fault that is built on a workbench and sent twice, where the first attempt fails: all three
    attempts go to the urgent socket. -/
theorem ofRecord_build_noDraw :
    Text.isName Limits.domainBytes "GRAPHIC" = true ∧
      Text.isName Limits.eventNameBytes "NO_DRAW" = true ∧
      Transport.scripted.watched.Watches Prod.snd ∧
      ∃ bytes, sampleWorkbench.build.1 = .ok bytes ∧ ofRecord bytes = .ok .urgent ∧
        (sampleAttempts bytes).length = 3 ∧
        ∀ d ∈ sampleAttempts bytes, d.2 = bytes → d.1 = "urgent" := by
  have hdomain : Text.isName Limits.domainBytes "GRAPHIC" = true := by decide
  have hname : Text.isName Limits.eventNameBytes "NO_DRAW" = true := by decide
  have hnet := Network.watches_watched Transport.scripted
  let bytes := sampleWorkbench.build.1.toOption.getD []
  have hbuild : sampleWorkbench.build.1 = .ok bytes := by decide +kernel
  obtain ⟨hroute, _, hsent⟩ := ofRecord_build hdomain hname .fault 300 sampleActs hbuild
  obtain ⟨more, hmore, hurgent⟩ := hsent _ _ _ Prod.snd id (.new "normal" "urgent" 2 8 300)
    [bytes, bytes] ⟨(([.error .refused, .ok (), .ok ()], []), []), #[]⟩ hnet
  have hattempts : sampleAttempts bytes = more := hmore
  refine ⟨hdomain, hname, hnet, bytes, hbuild, hroute, by decide +kernel, ?_⟩
  rw [hattempts]
  exact hurgent

end EventReporter.Route
