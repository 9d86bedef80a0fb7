import MeshFormation.Proofs.Formation.Completion

/-!
# A message or a network link

A forward adds a route of several hops and makes nothing due. An announcement may be what the second
rule waits for. A network link that comes up is counted once and may be the last thing that a locked
node waits for.
-/

namespace MeshFormation.Blueprint

variable {b : Blueprint} {near far source peer : Rank} {router : Router} {node : Node}
  {rule : RelayRule} {channel : Channel} {wiring : Wiring} {forwarder receiver : Rank}
  {base : Route}

/-! ## Forwards -/

/-- The node that learned a route. -/
def learning (node : Node) (receiver : Rank) (base : Route) : Node :=
  { node with ledger := node.ledger.recordRoute receiver (base.relayed receiver) }

theorem due_learning_iff {forwarding : Forwarding} :
    b.Due near (learning node receiver base).ledger forwarding rule ↔
      b.Due near node.ledger forwarding rule := by
  constructor
  · refine Due.mono (fun other => ?_) (fun other => ?_) (fun _ => id) fun _ => id
    · rw [learning, Ledger.input?_recordRoute]
      exact id
    · rw [learning, Ledger.reaches_relayed]
      exact id
  · refine Due.mono (fun other => ?_) (fun other => ?_) (fun _ => id) fun _ => id
    · rw [learning, Ledger.input?_recordRoute]
      exact id
    · rw [learning, Ledger.reaches_relayed]
      exact id

theorem Steady.learning (h : b.Steady near router) (receiver : Rank) (base : Route) :
    b.Steady near ⟨learning router.node receiver base, router.forwarding⟩ := by
  have hinput : ∀ other, (Blueprint.learning router.node receiver base).ledger.input? other =
      router.node.ledger.input? other := fun other => Ledger.input?_recordRoute _ _ _ _
  have hreaches : ∀ other, (Blueprint.learning router.node receiver base).ledger.reaches other =
      router.node.ledger.reaches other := Ledger.reaches_relayed _ _ _
  constructor
  case toConsistent =>
    constructor
    case topology => exact h.topology
    case profile => exact h.profile
    case joined => exact h.joined
    case once => exact h.once
    case input =>
      intro other known hknown
      exact h.input ((hinput other).symm.trans hknown)
    case reached =>
      intro other hreached
      exact h.reached ((hreaches other).symm.trans hreached)
    case partner => exact h.partner
    case heard => exact h.heard
  case lost => exact h.lost
  case working => exact h.working
  case nodup => exact h.nodup
  case asked => exact h.asked
  case ran => exact fun hran => due_learning_iff.2 (h.ran hran)
  case tells =>
    intro other
    rw [hreaches]
    exact h.tells other
  case receive =>
    simp only [hinput]
    exact h.receive
  case transmit => exact h.transmit
  case wanted => exact h.wanted
  case network => exact h.network
  case locked => exact h.locked
  case ready => exact h.ready
  case locks => exact h.locks
  case signals => exact h.signals

/-- A forward that extends a known route to a sound one is learned. -/
theorem Rested.applies_forward (h : b.Rested near router) (hvalid : b.Valid)
    (hwired : ∀ {channel far}, router.node.boundPeer? channel = some far →
      wiring.contains channel = true) (hother : receiver ≠ near)
    (hforwarder : b.topology.hasMember forwarder = true)
    (hreceiver : b.topology.hasMember receiver = true)
    (hknown : router.node.ledger.route? forwarder = some base)
    (hsound : (base.relayed receiver).fault? near receiver = none) :
    b.Applies near wiring router (.forward forwarder receiver) := by
  have hmoves : b.Moves near router (.forward forwarder receiver) []
      ⟨learning router.node receiver base, router.forwarding⟩ := by
    constructor
    case binding =>
      intro channel peer
      simp only [Event.binding?, reduceCtorEq, or_false]
      rfl
    case input =>
      intro other channel
      rw [learning, Ledger.input?_recordRoute]
      simp [Event.arrival?]
    case hears => simp [Event.announcer?]
    case links => simp [Event.link?]
    case transmit => rfl
    case forwards => simp [Event.departure?]
    case announces => simp
    case told => exact fun htells => .inl htells
    case share => exact Nat.le_refl 0
  refine (h.toSteady.learning receiver base).applies hvalid hmoves hwired ?_
  have hlearn : router.node.learnForward forwarder receiver =
      (learning router.node receiver base, .ok ()) := by
    rw [Node.learnForward, h.hasMember_eq, h.hasMember_eq, hforwarder, hreceiver, if_neg (by simp),
      hknown]
    dsimp only
    rw [h.rank_eq, hsound]
    rfl
  rw [Router.handle, if_neg (by simp [h.working])]
  simp only [Router.forwarded]
  rw [if_neg, hlearn]
  change receiver ≠ router.node.rank
  rw [h.rank_eq]
  exact hother

/-! ## Announcements -/

variable {announcer : Rank} {chassis : String} {rules : CubeForwarding}

/-- The rules of a cube node that heard of another outer node. -/
def hearing (rules : CubeForwarding) (announcer : Rank) : Forwarding :=
  .cube { rules with announcers := rules.announcers.add announcer }

theorem hears_hearing (other : Rank) : (hearing rules announcer).hears other =
    (other == announcer || (Forwarding.cube rules).hears other) :=
  KeySet.contains_add rules.announcers announcer other

theorem ran_hearing (rule : RelayRule) :
    (hearing rules announcer).ran rule = (Forwarding.cube rules).ran rule := by
  cases rule <;> rfl

theorem Steady.hearing (h : b.Steady near router) (hrules : router.forwarding = .cube rules)
    (houter : (b.partner? announcer).isSome = true) :
    b.Steady near ⟨router.node, hearing rules announcer⟩ := by
  obtain ⟨node, forwarding⟩ := router
  obtain rfl : forwarding = .cube rules := hrules
  constructor
  case toConsistent =>
    constructor
    case topology => exact h.topology
    case profile => exact h.profile
    case joined => exact h.joined
    case once => exact h.once
    case input => exact h.input
    case reached => exact h.reached
    case partner => exact h.partner
    case heard =>
      intro other hheard
      rw [hears_hearing, Bool.or_eq_true, beq_iff_eq] at hheard
      rcases hheard with rfl | hheard
      · exact houter
      · exact h.heard hheard
  case lost => exact h.lost
  case working => exact h.working
  case nodup => exact h.nodup
  case asked =>
    intro source channel
    rw [h.asked]
    simp only [Charged, ran_hearing]
  case ran =>
    intro rule hran
    rw [ran_hearing] at hran
    have hdue : b.Due near node.ledger (.cube rules) rule := h.ran hran
    change b.Due near node.ledger (Blueprint.hearing rules announcer) rule
    refine hdue.mono (fun _ => id) (fun _ => id) (fun partner hpartner => ?_) fun other hheard => ?_
    · exact hpartner
    · rw [hears_hearing, hheard]
      simp
  case tells => exact h.tells
  case receive => exact h.receive
  case transmit => exact h.transmit
  case wanted => exact h.wanted
  case network => exact h.network
  case locked => exact h.locked
  case ready => exact h.ready
  case locks => exact h.locks
  case signals => exact h.signals

theorem Rested.applies_announce (h : b.Rested near router) (hvalid : b.Valid)
    (hwired : ∀ {channel far}, router.node.boundPeer? channel = some far →
      wiring.contains channel = true) (hcube : b.topology.profile = .cube)
    (hother : announcer ≠ near) (hstated : b.topology.chassis? announcer = some chassis)
    (houter : (b.partner? announcer).isSome = true) :
    b.Applies near wiring router (.outerAnnounce announcer chassis) := by
  obtain ⟨rules, hrules⟩ := Forwarding.exists_eq_cube (h.profile.trans hcube)
  have hmoves : b.Moves near router (.outerAnnounce announcer chassis) []
      ⟨router.node, hearing rules announcer⟩ := by
    obtain ⟨node, forwarding⟩ := router
    obtain rfl : forwarding = .cube rules := hrules
    constructor
    case binding => simp [Event.binding?]
    case input => simp [Event.arrival?]
    case hears =>
      intro other
      rw [hears_hearing, Bool.or_eq_true, beq_iff_eq, Event.announcer?, Option.some.injEq]
      constructor
      · rintro (heq | hheard)
        · exact .inr heq.symm
        · exact .inl hheard
      · rintro (hheard | heq)
        · exact .inr hheard
        · exact .inl heq.symm
    case links =>
      intro peer
      simp only [Event.link?, reduceCtorEq, or_false]
      rfl
    case transmit => rfl
    case forwards => simp [Event.departure?]
    case announces => simp
    case told => exact fun htells => .inl htells
    case share => exact Nat.le_refl 0
  refine (h.toSteady.hearing hrules houter).applies hvalid hmoves hwired ?_
  have hchassis : router.node.topology.chassis? announcer = some chassis := by
    rw [h.topology]
    exact hstated
  rw [Router.handle, if_neg (by simp [h.working])]
  simp only [Router.announcementHeard, hrules, Forwarding.announcementHeard,
    CubeForwarding.announcementHeard]
  rw [h.rank_eq, if_neg hother, hchassis]
  dsimp only
  rw [if_neg (not_not_intro rfl)]
  rfl

/-! ## Network links -/

variable {links : HypercubeForwarding}

/-- The rules of a hypercube node whose network link to a partition partner came up. -/
def linking (links : HypercubeForwarding) (peer : Rank) : Forwarding :=
  .hypercube { links with liveLinks := links.liveLinks.add peer }

/-- The node that counted a network link. -/
def counting (node : Node) : Node :=
  { node with progress := { node.progress with expected :=
    { node.progress.expected with network := node.progress.expected.network - 1 } } }

theorem links_linking (other : Rank) : (linking links peer).links.contains other =
    ((Forwarding.hypercube links).links.contains other || other == peer) := by
  rw [Bool.or_comm]
  exact KeySet.contains_add links.liveLinks peer other

theorem ran_linking (rule : RelayRule) :
    (linking links peer).ran rule = (Forwarding.hypercube links).ran rule := by
  cases rule <;> rfl

/-- A new link is one more of those that the node waits for. -/
theorem Steady.network_counting (h : b.Steady near router)
    (hlinks : router.forwarding = .hypercube links) (hwanted : peer ∈ b.topology.counterparts near)
    (hnew : links.liveLinks.contains peer = false) :
    0 < router.node.progress.expected.network ∧
      (counting router.node).progress.expected.network +
        (b.topology.counterparts near).countP (linking links peer).links.contains =
          (b.topology.counterparts near).length := by
  have hnodup : (b.topology.counterparts near).Nodup := by
    rw [Topology.counterparts]
    split
    · exact b.topology.nodup_ranks.filter _
    · exact .nil
  have hadd := countP_add (Forwarding.hypercube links).links.contains
    (linking links peer).links.contains hnodup hwanted hnew links_linking
  have hnetwork := h.network
  rw [hlinks] at hnetwork
  have hcount : (counting router.node).progress.expected.network =
      router.node.progress.expected.network - 1 := rfl
  have hle : (b.topology.counterparts near).countP (linking links peer).links.contains ≤
      (b.topology.counterparts near).length := List.countP_le_length
  omega

theorem Rested.steady_linking (h : b.Rested near router)
    (hlinks : router.forwarding = .hypercube links)
    (hwanted : peer ∈ b.topology.counterparts near)
    (hnew : links.liveLinks.contains peer = false) :
    b.Steady near ⟨counting router.node, linking links peer⟩ := by
  obtain ⟨hpos, hnetwork⟩ := h.network_counting hlinks hwanted hnew
  obtain ⟨node, forwarding⟩ := router
  obtain rfl : forwarding = .hypercube links := hlinks
  constructor
  case toConsistent =>
    exact ⟨h.topology, h.profile, h.joined, h.once, h.input, h.reached, h.partner, h.heard⟩
  case lost => exact h.lost
  case working => exact h.working
  case nodup => exact h.nodup
  case asked =>
    intro source channel
    simp only [Charged, ran_linking]
    exact h.asked
  case ran =>
    intro rule hran
    rw [ran_linking] at hran
    exact (h.ran hran).mono (fun _ => id) (fun _ => id) (fun _ => id) fun _ => id
  case tells => exact h.tells
  case receive => exact h.receive
  case transmit => exact h.transmit
  case wanted => exact h.wanted
  case network => exact hnetwork
  case locked => exact h.locked
  case ready =>
    intro hready
    have hdone : node.progress.expected.allDone = true := (h.ready hready).2
    have hpos' : 0 < node.progress.expected.network := hpos
    simp only [Expected.allDone, Bool.and_eq_true, beq_iff_eq] at hdone
    omega
  case locks => exact h.locks
  case signals => exact h.signals

theorem moves_linking (hlinks : router.forwarding = .hypercube links) (event : NetworkEvent) :
    b.Moves near router (.network event) [] ⟨counting router.node, linking links event.peer⟩ := by
  constructor
  case binding =>
    intro channel peer
    simp only [Event.binding?, reduceCtorEq, or_false]
    rfl
  case input =>
    intro source channel
    simp only [Event.arrival?, reduceCtorEq, or_false]
    rfl
  case hears =>
    intro other
    rw [hlinks]
    simp only [Event.announcer?, reduceCtorEq, or_false]
    rfl
  case links =>
    intro peer
    rw [links_linking, Bool.or_eq_true, beq_iff_eq, hlinks, Event.link?, Option.some.injEq]
    apply or_congr_right
    exact eq_comm
  case transmit =>
    rw [hlinks]
    rfl
  case forwards => simp [Event.departure?]
  case announces => simp
  case told =>
    intro receiver htells
    exact absurd htells (by simp [Forwarding.tells, linking])
  case share => exact Nat.zero_le _

/-- A node that is not locked waits for more than its network links. -/
theorem Rested.linking_unlocked (h : b.Rested near router)
    (hlinks : router.forwarding = .hypercube links)
    (hsteady : b.Steady near ⟨counting router.node, linking links peer⟩)
    (hlocked : router.node.progress.locked = false) :
    b.Rested near ⟨counting router.node, linking links peer⟩ := by
  have hworking : router.node.progress.expected.meshDone = false := by
    rw [Bool.eq_false_iff]
    intro hdone
    rw [h.complete hdone] at hlocked
    exact absurd hlocked (by simp)
  have hmesh : (counting router.node).progress.expected.meshDone = false := hworking
  constructor
  case toSteady => exact hsteady
  case complete => exact fun hdone => absurd (hdone.symm.trans hmesh) (by simp)
  case signalled =>
    intro hdone
    rw [Expected.allDone, Bool.and_eq_true] at hdone
    exact absurd (hdone.1.symm.trans hmesh) (by simp)
  case due =>
    intro rule _ hdue
    rw [ran_linking, ← hlinks]
    apply h.due hlocked
    refine hdue.mono (fun _ => id) (fun _ => id) (fun partner hpartner => ?_) fun other hheard => ?_
    · rw [hlinks]
      exact hpartner
    · rw [hlinks]
      exact hheard

section Network

variable (h : b.Rested near router) (hlinks : router.forwarding = .hypercube links)
  {event : NetworkEvent} (hconnected : event.connected = true)
  (hwanted : event.peer ∈ b.topology.counterparts near)
include h hlinks hconnected hwanted

theorem Rested.handle_network : router.handle wiring.backend (.network event) =
    if links.liveLinks.contains event.peer then (router, .ok [])
    else (⟨(counting router.node).signalReadiness, linking links event.peer⟩, .ok []) := by
  have hrequested : links.requestedLinks.contains event.peer = true := by
    have hwanted' := (h.wanted event.peer).2 hwanted
    rw [hlinks] at hwanted'
    exact hwanted'
  rw [Router.handle, if_neg (by simp [h.working])]
  cases hnew : links.liveLinks.contains event.peer with
  | true =>
    simp only [Router.networkChanged, hlinks, Forwarding.networkChanged,
      HypercubeForwarding.networkChanged, hrequested, hconnected, hnew, Bool.not_true,
      Bool.false_eq_true, if_false, if_true]
    rw [← hlinks]
  | false =>
    obtain ⟨hpos, -⟩ := h.network_counting hlinks hwanted hnew
    have hcount : router.node.countNetworkLink = (counting router.node,
        .ok (counting router.node).progress.expected.network) := by
      have hcount : 0 < router.node.progress.expected.count .network := hpos
      rw [Node.countNetworkLink, Progress.complete_eq_ok hcount]
      rfl
    simp only [Router.networkChanged, hlinks, Forwarding.networkChanged,
      HypercubeForwarding.networkChanged, hrequested, hconnected, hnew, Bool.not_true,
      Bool.false_eq_true, if_false, hcount]
    rfl

/-- A network link that is up already changes nothing. -/
theorem Rested.applies_network_again (hlive : links.liveLinks.contains event.peer = true) :
    b.Applies near wiring router (.network event) := by
  refine ⟨router, [], ?_, h, ?_⟩
  · rw [h.handle_network hlinks hconnected hwanted, if_pos hlive]
  · constructor
    case binding => simp [Event.binding?]
    case input => simp [Event.arrival?]
    case hears => simp [Event.announcer?]
    case links =>
      intro peer
      constructor
      · exact fun hpeer => .inl hpeer
      · rintro (hpeer | heq)
        · exact hpeer
        · obtain rfl := Option.some.inj heq
          rw [hlinks]
          exact hlive
    case transmit => simp [Event.departure?]
    case forwards => simp [Event.departure?]
    case announces => simp
    case told => exact fun htells => .inl htells
    case share => exact Nat.zero_le _

theorem Rested.applies_network_new (hnew : links.liveLinks.contains event.peer = false) :
    b.Applies near wiring router (.network event) := by
  have hsteady := h.steady_linking hlinks hwanted hnew
  have hmoves := @moves_linking b near router links hlinks event
  have hresult := @Rested.handle_network b near router wiring links h hlinks event
    hconnected hwanted
  rw [if_neg (by simp [hnew])] at hresult
  cases hlocked : router.node.progress.locked with
  | true =>
    obtain ⟨hrested, hresumes⟩ := hsteady.signalReadiness hlocked
    exact ⟨_, [], hresult, hrested, hmoves.resume hresumes⟩
  | false =>
    have hquiet : (counting router.node).signalReadiness = counting router.node := by
      have hsame : (counting router.node).progress.locked = false := hlocked
      rw [Node.signalReadiness, hsame]
      rfl
    rw [hquiet] at hresult
    exact ⟨_, [], hresult, h.linking_unlocked hlinks hsteady hlocked, hmoves⟩

end Network

theorem Rested.applies_network (h : b.Rested near router) {event : NetworkEvent}
    (hhypercube : b.topology.profile = .hypercube) (hconnected : event.connected = true)
    (hwanted : event.peer ∈ b.topology.counterparts near) :
    b.Applies near wiring router (.network event) := by
  obtain ⟨links, hlinks⟩ := Forwarding.exists_eq_hypercube (h.profile.trans hhypercube)
  cases hnew : links.liveLinks.contains event.peer with
  | true => exact h.applies_network_again hlinks hconnected hwanted hnew
  | false => exact h.applies_network_new hlinks hconnected hwanted hnew

/-- Every event that the blueprint permits is applied. -/
theorem Rested.applies (h : b.Rested near router) (hvalid : b.Valid)
    (hwired : ∀ {channel far}, router.node.boundPeer? channel = some far →
      wiring.contains channel = true) {event : Event}
    (hpermits : b.Permits near wiring router event) : b.Applies near wiring router event := by
  cases hpermits with
  | channel connected wired free alone joined stated unlocked =>
    exact h.applies_channel hvalid (.channel connected wired free alone joined stated unlocked)
  | receive bound feeds missing => exact h.applies_receive hvalid hwired bound feeds missing
  | @transmit channel source far bound feeds due direct =>
    by_cases hsource : source = near
    · subst hsource
      exact h.applies_transmit_own hvalid hwired bound feeds due direct
    · exact h.applies_transmit_relay hvalid hwired bound feeds due hsource
  | forward other forwarding receiving known sound =>
    exact h.applies_forward hvalid hwired other forwarding receiving known sound
  | announce cube other stated outer =>
    exact h.applies_announce hvalid hwired cube other stated outer
  | network hypercube connected wanted => exact h.applies_network hypercube connected wanted

/-- An event that is applied at the router of a site is applied at the site. -/
theorem Applies.site {site : Site} {event : Event}
    (h : b.Applies near site.wiring site.service.router event) :
    ∃ outbox, (site.handled event).2 = .ok outbox ∧
      Router.outboxOf (site.handled event).2 = outbox ∧
      b.Rested near (site.after event).service.router ∧
      b.Moves near site.service.router event outbox (site.after event).service.router := by
  obtain ⟨next, outbox, hhandle, hrested, hmoves⟩ := h
  have hhandled : site.handled event = (next, .ok outbox) := hhandle
  have hafter : (site.after event).service.router =
      ⟨next.node.sending outbox, next.forwarding⟩ := by
    rw [Site.after, hhandled]
    rfl
  refine ⟨outbox, by rw [hhandled], by rw [hhandled]; rfl, ?_, ?_⟩
  · rw [hafter]
    exact hrested.sending outbox
  · rw [hafter]
    exact hmoves.resume ⟨rfl, rfl, rfl, rfl, rfl, rfl, rfl, rfl⟩

end MeshFormation.Blueprint
