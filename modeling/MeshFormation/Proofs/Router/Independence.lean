import MeshFormation.Proofs.Node.Mesh
import MeshFormation.Proofs.Router.Conservation
import MeshFormation.Proofs.Router.Repetition

/-!
# Network links and the local mesh

A hypercube router forms the mesh of its partition and waits for its network links at the same time.
Both have a share in the one decision whether the ensemble is ready, and otherwise they do not meet:
a link changes nothing in the mesh part of the router, and what any other event makes of the mesh
part depends on the mesh part alone. So it does not matter whether a link comes up before the other
event or after it.
-/

namespace MeshFormation

/-- What the delegate hears when a node enters a phase that is no failure. -/
def Phase.notices : Phase → List Notice
  | ready => [.ready]
  | forming | failed => []

namespace Forwarding

variable {forwarding other : Forwarding}

/-- The rules without the network links that are live. -/
def mesh : Forwarding → Forwarding
  | hypercube rules => hypercube { rules with liveLinks := ∅ }
  | other => other

theorem mesh_mesh (forwarding : Forwarding) : forwarding.mesh.mesh = forwarding.mesh := by
  cases forwarding <;> rfl

theorem eq_of_mesh (h : forwarding.mesh = other.mesh) (hlinks : forwarding.links = other.links) :
    forwarding = other := by
  cases forwarding with
  | pair => cases other <;> simp_all [mesh]
  | cube rules => cases other <;> simp_all [mesh]
  | hypercube rules =>
    obtain ⟨partner, requestedLinks, liveLinks, partnerRelayed⟩ := rules
    cases other <;> simp_all [mesh, links]

/-- Which channel names the partner has nothing to do with the links. -/
theorem channelBound_mesh (rules : HypercubeForwarding) {node next : Node}
    (h : next.topology = node.topology) (event : ChannelEvent) :
    ((hypercube rules).mesh.channelBound next event).1 =
      ((hypercube rules).channelBound node event).1.mesh := by
  have hrank : next.rank = node.rank := congrArg Topology.localRank h
  simp only [mesh, channelBound, HypercubeForwarding.channelBound, h, hrank]
  split
  · rfl
  split <;> rfl

end Forwarding

namespace Router

variable {router next start : Router} {node other : Node} {rules : HypercubeForwarding}
  {backend : Backend} {event : Event} {result : Except RouterError Outbox} {profile : Profile}
  {topology : Topology}

/-! ## The mesh part of a router -/

/-- A router without its network links, its phase and its notices. -/
def mesh (router : Router) : Router := ⟨router.node.mesh, router.forwarding.mesh⟩

theorem mesh_congr {forwarding after : Forwarding} (hnode : node.mesh = other.mesh)
    (hforwarding : forwarding.mesh = after.mesh) :
    mesh ⟨node, forwarding⟩ = mesh ⟨other, after⟩ := by
  rw [mesh, mesh, hnode, hforwarding]

@[simp] theorem isFailed_mesh (router : Router) : router.mesh.node.isFailed = false := rfl

/-- Whether a hypercube router locks its backend or runs its rules, and what comes of it, depends on
its mesh part. -/
theorem mesh_proceed (hypercube : router.forwarding.profile = .hypercube)
    (hworking : router.node.isFailed = false) :
    (router.mesh.proceed backend).mesh = (router.proceed backend).mesh := by
  cases hdone : router.expected.meshDone with
  | true =>
    have hmesh : router.mesh.expected.meshDone = true := hdone
    rw [proceed_of_done (isFailed_mesh _) hmesh, proceed_of_done hworking hdone]
    exact mesh_congr (Node.mesh_lockWhenComplete hworking backend) router.forwarding.mesh_mesh
  | false =>
    have hmesh : router.mesh.expected.meshDone = false := hdone
    rw [proceed_of_open (isFailed_mesh _) hmesh, proceed_of_open hworking hdone]
    obtain ⟨node, forwarding⟩ := router
    obtain ⟨rules, rfl⟩ := Forwarding.exists_eq_hypercube hypercube
    exact mesh_congr (node.mirrors_establishAll backend _).state rfl

theorem mesh_proceed_congr (hmesh : next.mesh = router.mesh)
    (hnext : next.forwarding.profile = .hypercube)
    (hrouter : router.forwarding.profile = .hypercube) (hworking' : next.node.isFailed = false)
    (hworking : router.node.isFailed = false) :
    (next.proceed backend).mesh = (router.proceed backend).mesh := by
  rw [← mesh_proceed hnext hworking', hmesh, mesh_proceed hrouter hworking]

/-! ## Events of the mesh -/

/-- In a hypercube only the source of a relay is told of a transmit. -/
theorem transmitCompleted_hypercube (node : Node) (rules : HypercubeForwarding)
    (source bound : Rank) :
    transmitCompleted ⟨node, .hypercube rules⟩ source bound =
      (⟨node, .hypercube rules⟩,
        if source = node.rank then [] else [⟨source, .forward node.rank bound⟩]) := by
  by_cases hself : source = node.rank
  · simp [transmitCompleted, rank, hself, Forwarding.transmitDone]
  · simp [transmitCompleted, rank, hself]

theorem mirrors_channelChanged (node : Node) (rules : HypercubeForwarding) (backend : Backend)
    (known : ChannelEvent) :
    Mirrors mesh (channelChanged (mesh ⟨node, .hypercube rules⟩) backend known)
      (channelChanged ⟨node, .hypercube rules⟩ backend known) := by
  have hscreening : node.mesh.screening known = node.screening known := rfl
  have hrejection : (Forwarding.hypercube rules).mesh.rejection? node.mesh known =
      (Forwarding.hypercube rules).rejection? node known := rfl
  have hrefused :
      mesh ⟨node.mesh.refuseChannel backend known.channel, (Forwarding.hypercube rules).mesh⟩ =
        mesh ⟨node.refuseChannel backend known.channel, .hypercube rules⟩ :=
    mesh_congr (node.mirrors_request backend (.disable known.channel)).state rfl
  unfold channelChanged
  dsimp only [mesh]
  cases known.connected with
  | false => exact ⟨mesh_congr (node.mesh_channelLost known.channel) rfl, rfl⟩
  | true =>
    simp only [Bool.not_true, Bool.false_eq_true, if_false, hscreening, hrejection]
    cases node.screening known with
    | duplicate => exact ⟨rfl, rfl⟩
    | reject reason => exact ⟨hrefused, rfl⟩
    | fresh =>
      cases (Forwarding.hypercube rules).rejection? node known with
      | some reason => exact ⟨hrefused, rfl⟩
      | none =>
        obtain ⟨next, other, accepted, hfirst, hsecond, hmesh⟩ : ∃ next other accepted,
            (node.mesh.bind known.channel known.peer).establish backend node.mesh.rank
                known.channel = (next, accepted) ∧
              (node.bind known.channel known.peer).establish backend node.rank known.channel =
                (other, accepted) ∧ next.mesh = other.mesh :=
          ((node.bind known.channel known.peer).mirrors_request backend _).exists_eq
        simp only [hfirst, hsecond]
        cases accepted with
        | false => exact ⟨mesh_congr hmesh rfl, rfl⟩
        | true =>
          constructor
          case state =>
            apply mesh_congr hmesh
            rw [Forwarding.channelBound_mesh rules (Node.topology_of_mesh hmesh)]
            rfl
          case answer => rfl

theorem mirrors_connectionChanged (rules : HypercubeForwarding) (hworking : node.isFailed = false)
    (backend : Backend) (completed : ConnectionEvent) :
    Mirrors mesh (connectionChanged (mesh ⟨node, .hypercube rules⟩) backend completed)
      (connectionChanged ⟨node, .hypercube rules⟩ backend completed) := by
  obtain ⟨direction, channel, source, connected⟩ := completed
  unfold connectionChanged
  dsimp only [mesh]
  cases connected with
  | false => exact ⟨mesh_congr (by simp) rfl, rfl⟩
  | true =>
    obtain ⟨next, other, answer, hfirst, hsecond, hmesh⟩ :=
      (node.mirrors_completeConnection direction channel source).exists_eq
    simp only [Bool.not_true, Bool.false_eq_true, if_false, hfirst, hsecond]
    cases answer with
    | error fault => exact ⟨mesh_congr hmesh rfl, rfl⟩
    | ok bound =>
      have hproceed : mesh (proceed ⟨next, (Forwarding.hypercube rules).mesh⟩ backend) =
          mesh (proceed ⟨other, .hypercube rules⟩ backend) :=
        mesh_proceed_congr (mesh_congr hmesh rfl) rfl rfl
          (Node.isFailed_of_completeConnection hfirst)
          ((Node.isFailed_of_completeConnection hsecond).trans hworking)
      cases direction with
      | rx => exact ⟨hproceed, rfl⟩
      | tx =>
        simp only [Forwarding.mesh, transmitCompleted_hypercube, Node.rank_of_mesh hmesh]
        exact ⟨hproceed, rfl⟩

theorem mirrors_forwarded (rules : HypercubeForwarding) (hworking : node.isFailed = false)
    (backend : Backend) (forwarder receiver : Rank) :
    Mirrors mesh (forwarded (mesh ⟨node, .hypercube rules⟩) backend forwarder receiver)
      (forwarded ⟨node, .hypercube rules⟩ backend forwarder receiver) := by
  have hrank : (mesh ⟨node, .hypercube rules⟩).rank = rank ⟨node, .hypercube rules⟩ := rfl
  unfold forwarded
  rw [hrank]
  dsimp only [mesh]
  by_cases hself : receiver = rank ⟨node, .hypercube rules⟩
  · have hrefused := Node.mirrors_refuse (α := Outbox) node.mesh_mesh (.forwardToSelf forwarder)
    simp only [if_pos hself]
    exact ⟨mesh_congr hrefused.state rfl, hrefused.answer⟩
  · obtain ⟨next, other, answer, hfirst, hsecond, hmesh⟩ :=
      (node.mirrors_learnForward forwarder receiver).exists_eq
    simp only [if_neg hself, hfirst, hsecond]
    cases answer with
    | error fault => exact ⟨mesh_congr hmesh rfl, rfl⟩
    | ok =>
      constructor
      case state =>
        exact mesh_proceed_congr (mesh_congr hmesh rfl) rfl rfl
          (Node.isFailed_of_learnForward hfirst)
          ((Node.isFailed_of_learnForward hsecond).trans hworking)
      case answer => rfl

/-- What a hypercube router makes of its mesh part, and what it answers, when anything but a network
link changes depends on the mesh part alone. -/
theorem mirrors_handle (hypercube : router.forwarding.profile = .hypercube)
    (hworking : router.node.isFailed = false) (backend : Backend)
    (hother : ∀ changed, event ≠ .network changed) :
    Mirrors mesh (router.mesh.handle backend event) (router.handle backend event) := by
  obtain ⟨node, forwarding⟩ := router
  obtain ⟨rules, rfl⟩ := Forwarding.exists_eq_hypercube hypercube
  unfold handle
  rw [isFailed_mesh, hworking]
  cases event with
  | channel known =>
    have hchannel := mirrors_channelChanged node rules backend known
    exact ⟨hchannel.state, congrArg Except.ok hchannel.answer⟩
  | connection completed => exact mirrors_connectionChanged rules hworking backend completed
  | forward forwarder receiver => exact mirrors_forwarded rules hworking backend forwarder receiver
  | outerAnnounce announcer chassis => exact ⟨rfl, rfl⟩
  | network changed => exact absurd rfl (hother changed)
  | failure reason => exact ⟨mesh_congr (by simp [mesh]) rfl, rfl⟩

/-- Hypercube routers with the same mesh part answer alike and keep the same mesh part. -/
theorem mirrors_handle_congr (hmesh : next.mesh = router.mesh)
    (hnext : next.forwarding.profile = .hypercube)
    (hrouter : router.forwarding.profile = .hypercube) (hworking' : next.node.isFailed = false)
    (hworking : router.node.isFailed = false) (hother : ∀ changed, event ≠ .network changed) :
    Mirrors mesh (next.handle backend event) (router.handle backend event) :=
  .congr (·.handle backend event) hmesh (mirrors_handle hnext hworking' backend hother)
    (mirrors_handle hrouter hworking backend hother)

/-! ## Network links -/

/-- A network link does nothing to the mesh part of a router. -/
theorem Step.mesh_eq {changed : NetworkEvent}
    (h : router.Step backend (.network changed) next result) :
    next.mesh = router.mesh := by
  cases h with
  | unlinked | live => rfl
  | broken | violated => exact mesh_congr (by simp) rfl
  | surplusLink hypercube =>
    rw [mesh, mesh, hypercube, Node.mesh_fail]
    rfl
  | linked hypercube requested connected new counted =>
    rw [mesh, mesh, hypercube, Node.mesh_signalReadiness]
    simp only [Node.mesh, Progress.mesh_of_complete counted]
    rfl
  | absorbed absorbs => cases absorbs

/-- A link of which a router is told is live afterwards, unless the router fails. -/
theorem Step.links_add {changed : NetworkEvent}
    (h : router.Step backend (.network changed) next result)
    (hypercube : router.forwarding.profile = .hypercube) (hnext : next.node.isFailed = false) :
    next.forwarding.links = router.forwarding.links.add changed.peer := by
  cases h with
  | unlinked profile => exact absurd hypercube profile
  | live rules requested connected known =>
    rw [rules]
    exact (KeySet.add_eq_self known).symm
  | broken | violated | surplusLink =>
    exact absurd ((Node.isFailed_fail _ _).symm.trans hnext) (by simp)
  | linked rules =>
    rw [rules]
    rfl
  | absorbed absorbs => cases absorbs

/-- Nothing else makes a link live. -/
theorem Step.links_eq (h : router.Step backend event next result)
    (hother : ∀ changed, event ≠ .network changed) :
    next.forwarding.links = router.forwarding.links := by
  cases h with
  | unheard | repeated | free | rejected | unestablished | lost | broken | violated | surplus => rfl
  | bound admits accepted => exact (admits.joins accepted).links.2
  | unlinked | live | surplusLink | linked => exact absurd rfl (hother _)
  | absorbed absorbs => exact (absorbs.keepsLinks.trans (keepsLinks_proceed _ backend)).links

/-! ## Runs -/

/-- As long as a router works, it has told its delegate which links it wants, and that the ensemble
is ready if it is. -/
theorem notices_run (h : (create profile topology).2 = .ok start) (events : List Event)
    (hworking : (start.run backend events).node.isFailed = false) :
    (start.run backend events).node.journal.notices =
      start.node.journal.notices ++ (start.run backend events).phase.notices := by
  apply run_history_of_working (fun _ router =>
    router.node.journal.notices = start.node.journal.notices ++ router.phase.notices)
  case hworking => exact hworking
  case hstart =>
    obtain ⟨-, hosts, hnode⟩ := create_eq_ok h
    rw [phase, hnode]
    exact (List.append_nil _).symm
  case hstep =>
    intro before router event hrouter hworking hnext
    cases reports_handle router backend event with
    | nothing hphase hnotices => rw [phase, hphase, hnotices, hrouter, phase]
    | readiness hforming hready hnotices =>
      rw [phase, hforming, Phase.notices, List.append_nil] at hrouter
      rw [phase, hready, Phase.notices, hnotices, hrouter]
    | failure working failed =>
      exact absurd ((Node.isFailed_iff.2 failed).symm.trans hnext) (by simp)

/-- Two runs of a router that lead to the same mesh part and the same links lead to the same
router. -/
theorem run_eq_of_mesh (h : (create profile topology).2 = .ok start) {first second : List Event}
    (hmesh : (start.run backend first).mesh = (start.run backend second).mesh)
    (hlinks : (start.run backend first).forwarding.links =
      (start.run backend second).forwarding.links)
    (hfirst : (start.run backend first).phase ≠ .failed)
    (hsecond : (start.run backend second).phase ≠ .failed) :
    start.run backend first = start.run backend second := by
  have hnode : (start.run backend first).node.mesh = (start.run backend second).node.mesh :=
    congrArg node hmesh
  have hrx : (start.run backend first).expected.rx = (start.run backend second).expected.rx :=
    congrArg (·.progress.expected.rx) hnode
  have htx : (start.run backend first).expected.tx = (start.run backend second).expected.tx :=
    congrArg (·.progress.expected.tx) hnode
  have hnetwork : (start.run backend first).expected.network =
      (start.run backend second).expected.network := by
    have hcounted := ((conserves_run h backend first).conserved hfirst).links
    have hcounted' := ((conserves_run h backend second).conserved hsecond).links
    rw [Forwarding.liveLinks_eq, hlinks, ← Forwarding.liveLinks_eq] at hcounted
    omega
  have hready : (start.run backend first).phase = .ready ↔
      (start.run backend second).phase = .ready := by
    rw [(agrees_run h backend first).ready hfirst,
      (agrees_run h backend second).ready hsecond, hrx, htx, hnetwork]
  have hphase : (start.run backend first).phase = (start.run backend second).phase := by
    cases hcase : (start.run backend first).phase <;>
      cases hcase' : (start.run backend second).phase <;> simp_all
  have hnotices : (start.run backend first).node.journal.notices =
      (start.run backend second).node.journal.notices := by
    rw [notices_run h first (working_of_phase hfirst),
      notices_run h second (working_of_phase hsecond), hphase]
  have hsame := Node.eq_of_mesh hnode hnetwork hphase hnotices
  have hforwarding := Forwarding.eq_of_mesh (congrArg forwarding hmesh) hlinks
  generalize start.run backend first = router at hsame hforwarding ⊢
  generalize start.run backend second = other at hsame hforwarding ⊢
  obtain ⟨node, forwarding⟩ := router
  obtain rfl := hsame
  obtain rfl := hforwarding
  rfl

/-- The router that becomes ready during some events gives one notice, of that. -/
theorem notices_of_isReady (h : (create profile topology).2 = .ok start) (events more : List Event)
    (hbefore : (start.run backend events).isReady = false)
    (hafter : (start.run backend (events ++ more)).isReady = true) :
    (start.run backend (events ++ more)).node.journal.notices =
      (start.run backend events).node.journal.notices ++ [.ready] := by
  have hready := (agrees_run h backend (events ++ more)).isReady.1 hafter
  have hworking : (start.run backend (events ++ more)).node.isFailed = false :=
    working_of_phase (by simp [hready])
  have hbefore' : (start.run backend events).node.isFailed = false := by
    rw [run_append] at hworking
    exact working_of_run more hworking
  have hforming : (start.run backend events).phase = .forming := by
    cases hphase : (start.run backend events).phase with
    | forming => rfl
    | ready =>
      have hisReady := (agrees_run h backend events).isReady.2 hphase
      exact absurd (hisReady.symm.trans hbefore) (by simp)
    | failed => exact absurd hphase (phase_of_working hbefore')
  rw [notices_run h _ hworking, notices_run h _ hbefore', hready, hforming, Phase.notices,
    Phase.notices, List.append_nil]

/-- Some events do not fail a router. -/
def Survives (router : Router) (backend : Backend) (events : List Event) : Prop :=
  (router.run backend events).phase = .failed → router.phase = .failed

/-- A network link that comes up and another event commute, as far as neither order fails the
router: the states afterwards are the same, with all calls made and all notices given, and so is the
answer to the other event. Readiness is told once, in whichever order it is reached. The link itself
asks for nothing. -/
structure Commutes (router : Router) (backend : Backend) (peer : Rank) (event : Event) : Prop where
  state : router.Survives backend [.network ⟨peer, true⟩, event] →
    router.Survives backend [event, .network ⟨peer, true⟩] →
      router.run backend [.network ⟨peer, true⟩, event] =
        router.run backend [event, .network ⟨peer, true⟩]
  answer : router.Survives backend [.network ⟨peer, true⟩] →
    ((router.handle backend (.network ⟨peer, true⟩)).1.handle backend event).2 =
      (router.handle backend event).2
  signal : ∀ order, order.Perm [.network ⟨peer, true⟩, event] → router.isReady = false →
    (router.run backend order).isReady = true →
      (router.run backend order).node.journal.notices = router.node.journal.notices ++ [.ready]
  calls : (router.handle backend (.network ⟨peer, true⟩)).1.node.journal.attempts =
    router.node.journal.attempts
  locked : (router.handle backend (.network ⟨peer, true⟩)).1.node.progress.locked =
    router.node.progress.locked

/-- In either order a network link leaves the mesh part to the other event, which leaves the links
to it. -/
theorem same_mesh_and_links {changed : NetworkEvent}
    (hypercube : router.forwarding.profile = .hypercube)
    (hother : ∀ changed, event ≠ .network changed)
    (hfirst : (router.run backend [.network changed, event]).node.isFailed = false)
    (hsecond : (router.run backend [event, .network changed]).node.isFailed = false) :
    (router.run backend [.network changed, event]).mesh =
        (router.run backend [event, .network changed]).mesh ∧
      (router.run backend [.network changed, event]).forwarding.links =
        (router.run backend [event, .network changed]).forwarding.links := by
  have hworking : router.node.isFailed = false := working_of_run _ hfirst
  have hlinked : (router.handle backend (.network changed)).1.node.isFailed = false :=
    working_of_run [event] hfirst
  have hheard : (router.handle backend event).1.node.isFailed = false :=
    working_of_run [.network changed] hsecond
  have hlink := step_handle backend (.network changed) hworking
  have hevent := step_handle backend event hworking
  have hthen := step_handle backend event hlinked
  have hlast := step_handle backend (.network changed) hheard
  constructor
  · calc (router.run backend [.network changed, event]).mesh
      _ = (router.handle backend event).1.mesh :=
        (mirrors_handle_congr hlink.mesh_eq (hlink.profile_eq.trans hypercube) hypercube
          hlinked hworking hother).state
      _ = (router.run backend [event, .network changed]).mesh := hlast.mesh_eq.symm
  · calc (router.run backend [.network changed, event]).forwarding.links
      _ = (router.handle backend (.network changed)).1.forwarding.links := hthen.links_eq hother
      _ = router.forwarding.links.add changed.peer := hlink.links_add hypercube hlinked
      _ = (router.handle backend event).1.forwarding.links.add changed.peer := by
        rw [hevent.links_eq hother]
      _ = (router.run backend [event, .network changed]).forwarding.links :=
        (hlast.links_add (hevent.profile_eq.trans hypercube) hsecond).symm

/-- In every state of every run of a hypercube router, a network link that comes up commutes with
every event that is not itself about a network link. -/
theorem commutes_run (h : (create .hypercube topology).2 = .ok start) (backend : Backend)
    (events : List Event) (peer : Rank) (hother : ∀ changed, event ≠ .network changed) :
    (start.run backend events).Commutes backend peer event := by
  have hypercube := profile_run h backend events
  cases hfailed : (start.run backend events).node.isFailed with
  | true =>
    have hinert := run_of_isFailed hfailed backend
    constructor
    case state => exact fun _ _ => (hinert _).trans (hinert _).symm
    case answer => exact fun _ => by rw [handle_of_isFailed hfailed]
    case signal =>
      intro order _ hbefore hafter
      rw [hinert, hbefore] at hafter
      exact absurd hafter (by simp)
    case calls => rw [handle_of_isFailed hfailed]
    case locked => rw [handle_of_isFailed hfailed]
  | false =>
    have hphase := phase_of_working hfailed
    have hlink := step_handle backend (.network ⟨peer, true⟩) hfailed
    have hnode := congrArg node hlink.mesh_eq
    constructor
    case state =>
      intro hfirst hsecond
      have hfirst := mt hfirst hphase
      have hsecond := mt hsecond hphase
      obtain ⟨hmesh, hlinks⟩ := same_mesh_and_links hypercube hother (working_of_phase hfirst)
        (working_of_phase hsecond)
      rw [← run_append] at hmesh hlinks hfirst hsecond ⊢
      rw [← run_append] at hmesh hlinks ⊢
      exact run_eq_of_mesh h hmesh hlinks hfirst hsecond
    case answer =>
      intro hsurvives
      have hlinked : ((start.run backend events).handle backend
          (.network ⟨peer, true⟩)).1.node.isFailed = false :=
        working_of_phase (mt hsurvives hphase)
      exact (mirrors_handle_congr hlink.mesh_eq (hlink.profile_eq.trans hypercube) hypercube
        hlinked hfailed hother).answer
    case signal =>
      intro order _ hbefore hafter
      rw [← run_append] at hafter ⊢
      exact notices_of_isReady h events order hbefore hafter
    case calls => exact congrArg (·.journal.attempts) hnode
    case locked => exact congrArg (·.progress.locked) hnode

/-- Node 0 of sixteen waits for one relay and for the link to node 8. Whichever comes last makes it
ready. -/
theorem commutes_run_sixteen : ∃ topology start,
    Topology.ofMembers (Layout.members 16) 0 .auto = .ok topology ∧
      (create .hypercube topology).2 = .ok start ∧
        (start.run .accepting relayTurns).expected = ⟨0, 1, 1⟩ ∧
        ((start.run .accepting relayTurns).run .accepting
          [.network ⟨8, true⟩, .connection ⟨.tx, 3, 4, true⟩]).phase = .ready ∧
        ((start.run .accepting relayTurns).run .accepting
          [.connection ⟨.tx, 3, 4, true⟩, .network ⟨8, true⟩]).phase = .ready ∧
        ((start.run .accepting relayTurns).run .accepting
            [.network ⟨8, true⟩, .connection ⟨.tx, 3, 4, true⟩] =
          (start.run .accepting relayTurns).run .accepting
            [.connection ⟨.tx, 3, 4, true⟩, .network ⟨8, true⟩]) ∧
        (start.run .accepting relayTurns).Commutes .accepting 8
          (.connection ⟨.tx, 3, 4, true⟩) := by
  obtain ⟨topology, start, hvalid, hcreate, hexpected, hfirst, hsecond⟩ : ∃ topology start,
      Topology.ofMembers (Layout.members 16) 0 .auto = .ok topology ∧
        (create .hypercube topology).2 = .ok start ∧
          (start.run .accepting relayTurns).expected = ⟨0, 1, 1⟩ ∧
          ((start.run .accepting relayTurns).run .accepting
            [.network ⟨8, true⟩, .connection ⟨.tx, 3, 4, true⟩]).phase = .ready ∧
          ((start.run .accepting relayTurns).run .accepting
            [.connection ⟨.tx, 3, 4, true⟩, .network ⟨8, true⟩]).phase = .ready :=
    exists_created (by decide +kernel)
  have hcommutes : (start.run .accepting relayTurns).Commutes .accepting 8
      (.connection ⟨.tx, 3, 4, true⟩) := commutes_run hcreate _ _ _ (by simp)
  exact ⟨topology, start, hvalid, hcreate, hexpected, hfirst, hsecond,
    hcommutes.state (by simp [Survives, hfirst]) (by simp [Survives, hsecond]), hcommutes⟩

end Router

end MeshFormation
