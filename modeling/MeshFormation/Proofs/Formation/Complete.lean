import MeshFormation.Proofs.Formation.Coverage
import MeshFormation.Proofs.Formation.Forming

/-!
# An ensemble with nothing left to deliver

With full cabling and an empty queue, every node has bound all its channels and exchanges data with
all nodes it is linked to. So the rules become due one after the other: first the data of the
partner has reached the chassis, then that of the inner nodes has reached the partner, then it has
crossed to the inner nodes of the other chassis. A node that was locked before has sent all of this
anyway.
-/

namespace MeshFormation

namespace Blueprint.Full

variable {b : Blueprint} {source near far : Rank}

/-- Data is sent over a link only. -/
theorem joined_of_feeds (h : b.Full) (hfeeds : b.Feeds source near far) : b.Joined near far := by
  cases hfeeds with
  | direct hjoined => exact hjoined
  | fanout hpartner hmate => exact h.mated hmate
  | uplink hpartner hinner => exact (h.partner?_eq_some_iff.1 hpartner).1
  | cross hchosen hinner => exact h.mated (Valid.mem_mates_of_mem_inners hinner)

end Blueprint.Full

namespace Fabric.Forming

variable {b : Installation} {fabric : Fabric} {source near far partner fellow : Rank}
  {site : Site} {rule : RelayRule}

section Empty

variable (h : Forming b fabric) (hqueue : fabric.queue = [])
include h hqueue

theorem done_of_raised {errand : Errand} (hraised : Raised b fabric errand) :
    Done fabric errand := by
  rcases (h.agenda.raised errand).1 hraised with hpending | hdone
  · rw [errands, hqueue] at hpending
    exact absurd hpending (by simp)
  · exact hdone

variable (hfull : b.Full)
include hfull

omit hfull in
theorem bound_of_joined (hsite : fabric.sites.get? near = some site) (hjoined : b.Joined near far) :
    ∃ channel, site.node.boundPeer? channel = some far := by
  obtain ⟨channel, farChannel, hcable, hused⟩ := b.laid hjoined
  have hraised : Raised b fabric (.discovery near channel) := ⟨⟨far, farChannel, hcable⟩, hused⟩
  obtain ⟨node, peer, hnode, hbound⟩ := h.done_of_raised hqueue hraised
  obtain rfl := Option.some.inj ((node?_of_site hsite).symm.trans hnode)
  obtain ⟨-, other, hcable'⟩ := h.traced.binding hnode hbound
  obtain ⟨rfl, -⟩ := Prod.mk.inj (Option.some.inj (hcable.symm.trans hcable'))
  exact ⟨channel, hbound⟩

omit hfull in
theorem input_of_charged (hsite : fabric.sites.get? near = some site) (hjoined : b.Joined near far)
    (hcharged : b.Charged near site.service.router.forwarding source far) :
    ∃ other, fabric.sites.get? far = some other ∧
      (other.node.ledger.input? source).isSome = true := by
  obtain ⟨channel, hbound⟩ := h.bound_of_joined hqueue hsite hjoined
  have hasked : fabric.Asked near source channel :=
    ⟨_, node?_of_site hsite,
      Journal.mem_requests_iff.1 ((h.rested hsite).asked.2 ⟨far, hbound, hcharged⟩)⟩
  obtain ⟨-, farChannel, hcable⟩ := h.traced.binding (node?_of_site hsite) hbound
  obtain ⟨node, hnode, hinput⟩ := h.done_of_raised hqueue
    (show Raised b fabric (.flow source far) from ⟨near, channel, farChannel, hasked, hcable⟩)
  obtain ⟨other, hother, rfl⟩ := exists_site_of_node? hnode
  exact ⟨other, hother, hinput⟩

theorem input_of_joined (hsite : fabric.sites.get? far = some site) (hjoined : b.Joined near far) :
    (site.node.ledger.input? near).isSome = true := by
  obtain ⟨hother, hmember⟩ := (hfull.of_joined hjoined).2
  obtain ⟨other, hother⟩ := h.exists_site hother
  obtain ⟨found, hfound, hinput⟩ := h.input_of_charged hqueue hother hjoined (.inl rfl)
  obtain rfl := Option.some.inj (hsite.symm.trans hfound)
  exact hinput

omit hfull in
theorem routed_of_input (hsite : fabric.sites.get? far = some site) (hne : near ≠ far)
    (hinput : (site.node.ledger.input? near).isSome = true) : fabric.Routed near far := by
  rcases h.told.input (node?_of_site hsite) hne hinput with hfailed | hrouted | ⟨-, forwarder, hmem⟩
  · exact absurd hfailed h.not_anyFailed
  · exact hrouted
  · rw [hqueue] at hmem
    exact absurd hmem (by simp)

theorem reaches_of_joined (hsite : fabric.sites.get? near = some site)
    (hjoined : b.Joined near far) : site.node.ledger.reaches far = true := by
  obtain ⟨hne, -, hmember, -⟩ := hfull.of_joined hjoined
  obtain ⟨other, hother⟩ := h.exists_site hmember
  obtain ⟨node, hnode, hroute⟩ := h.routed_of_input hqueue hother hne
    (h.input_of_joined hqueue hfull hother hjoined)
  obtain rfl := Option.some.inj ((node?_of_site hsite).symm.trans hnode)
  obtain ⟨route, hroute⟩ := Option.isSome_iff_exists.1 hroute
  obtain ⟨horigin, hdestination, hchain⟩ := h.isChain_of_route? hnode hroute
  have hdirect : (Route.direct near far).hops.IsChain (b.Feeds near) :=
    List.isChain_pair.2 (.direct hjoined)
  have hsame := Route.eq_of_isChain (hfull.rooted near) hchain horigin hdirect rfl hdestination
  rw [Ledger.reaches_iff]
  exact ⟨route, hroute, by rw [hsame]; rfl⟩

theorem exchanges_of_joined (hsite : fabric.sites.get? near = some site)
    (hjoined : b.Joined near far) : site.node.ledger.exchangesDirectly far = true :=
  Ledger.exchangesDirectly_iff.2 ⟨h.input_of_joined hqueue hfull hsite hjoined.symm,
    h.reaches_of_joined hqueue hfull hsite hjoined⟩

theorem crossPartner?_eq (hsite : fabric.sites.get? near = some site) :
    site.service.router.forwarding.crossPartner? = b.partner? near := by
  have hiff : ∀ partner, site.service.router.forwarding.crossPartner? = some partner ↔
      b.partner? near = some partner := by
    intro partner
    rw [(h.rested hsite).partner]
    constructor
    · exact And.left
    · intro hpartner
      exact ⟨hpartner, h.bound_of_joined hqueue hsite (hfull.partner?_eq_some_iff.1 hpartner).1⟩
  exact Option.ext hiff

/-! ## The rules, one after the other -/

/-- A locked node has asked for all that it counts, so it has asked for all that it is to send. -/
theorem mem_sent_of_locked (hsite : fabric.sites.get? near = some site)
    (hlocked : site.node.progress.locked = true) (hfeeds : b.Feeds source near far) :
    (source, far) ∈ Blueprint.sent site.service.router.node := by
  have hrested := h.rested hsite
  have hsubset : Blueprint.sent site.service.router.node ⊆ b.duties near := by
    rintro ⟨source, far⟩ hmem
    obtain ⟨⟨channel, hbound⟩, hcharged⟩ := hrested.mem_sent_iff.1 hmem
    rw [hfull.mem_duties_iff]
    rcases hcharged with rfl | ⟨rule, -, hassigned⟩
    · exact .direct (hrested.joined hbound)
    · exact hassigned.feeds
  have hlength : (b.duties near).length ≤ (Blueprint.sent site.service.router.node).length := by
    have hlimit := hfull.length_duties (h.hasMember hsite) hrested.profile
      (h.crossPartner?_eq hqueue hfull hsite)
    have hmesh : site.node.progress.expected.meshDone = true := hrested.locked hlocked
    have hdeparts := h.departs hsite
    have hsent := hrested.length_sent
    have hrequests : site.service.router.node.journal.requests = site.node.journal.requests := rfl
    simp only [Expected.meshDone, Bool.and_eq_true, beq_iff_eq] at hmesh
    rw [hqueue, List.countP_nil] at hdeparts
    rw [hrequests] at hsent
    omega
  have hperm := (List.subperm_of_subset hrested.nodup_sent hsubset).perm_of_length_le hlength
  exact hperm.mem_iff.2 (hfull.mem_duties_iff.2 hfeeds)

/-- A node is charged with what is assigned to it once the rule is due. -/
theorem charged_of_due (hsite : fabric.sites.get? near = some site)
    (hassigned : b.Assigned near rule source far)
    (hdue : b.Due near site.node.ledger site.service.router.forwarding rule) :
    b.Charged near site.service.router.forwarding source far := by
  have hrested := h.rested hsite
  cases hlocked : site.node.progress.locked with
  | true =>
    have hsent := h.mem_sent_of_locked hqueue hfull hsite hlocked hassigned.feeds
    exact (hrested.mem_sent_iff.1 hsent).2
  | false => exact .inr ⟨rule, hrested.due hlocked hdue, hassigned⟩

theorem due_fanout (hsite : fabric.sites.get? near = some site)
    (hpartner : b.partner? near = some partner) :
    b.Due near site.node.ledger site.service.router.forwarding .fanout := by
  have hknown := h.crossPartner?_eq hqueue hfull hsite
  rw [hpartner] at hknown
  exact ⟨partner, hknown,
    h.exchanges_of_joined hqueue hfull hsite (hfull.partner?_eq_some_iff.1 hpartner).1,
    fun mate hmate => h.exchanges_of_joined hqueue hfull hsite (hfull.mated hmate)⟩

theorem primed (hsite : fabric.sites.get? near = some site)
    (hpartner : b.partner? near = some partner) (hfellow : b.fellow? near = some fellow) :
    b.Primed near site.node.ledger site.service.router.forwarding := by
  have hknown := h.crossPartner?_eq hqueue hfull hsite
  rw [hpartner] at hknown
  have hjoined := (hfull.partner?_eq_some_iff.1 hpartner).1
  obtain ⟨hcube, -, hmate, houter⟩ := hfull.fellow?_eq_some_iff.1 hfellow
  have hlink := (hfull.mated hmate).symm
  obtain ⟨-, hfellowMember, -, -⟩ := hfull.of_joined hlink
  obtain ⟨other, hother⟩ := h.exists_site hfellowMember
  -- The fellow has told the node that it has a partner, and nothing waits in the queue.
  have htells : other.service.router.forwarding.tells near = true := by
    have hrested := h.rested hother
    have hprofile : other.service.router.forwarding.profile = .cube := hrested.profile.trans hcube
    have hspeaks : other.service.router.forwarding.speaks = true := by
      rw [Forwarding.speaks, h.crossPartner?_eq hqueue hfull hother, hprofile, houter]
      rfl
    have hreaches := h.reaches_of_joined hqueue hfull hother hlink
    rw [hrested.tells, hspeaks, Bool.true_and]
    exact hreaches
  refine ⟨⟨fellow, hfellow, ?_⟩, ⟨partner, hknown, ?_⟩, fun inner hinner => ?_⟩
  · rcases h.heard hother htells with ⟨found, hfound, hheard⟩ | ⟨chassis, hmem⟩
    · obtain rfl := Option.some.inj (hsite.symm.trans hfound)
      exact hheard
    · rw [hqueue] at hmem
      exact absurd hmem (by simp)
  · exact h.input_of_joined hqueue hfull hsite hjoined.symm
  · have hinnerMate := Blueprint.Valid.mem_mates_of_mem_inners hinner
    exact h.input_of_joined hqueue hfull hsite (hfull.mated hinnerMate).symm

theorem charged_uplink (hsite : fabric.sites.get? near = some site)
    (hpartner : b.partner? near = some far) (hinner : source ∈ b.inners near) :
    b.Charged near site.service.router.forwarding source far := by
  obtain ⟨fellow, hfellow, -⟩ := Blueprint.Valid.mem_inners_iff.1 hinner
  exact h.charged_of_due hqueue hfull hsite
    (show b.Assigned near .uplink source far from ⟨hpartner, hinner⟩)
    (h.primed hqueue hfull hsite hpartner hfellow)

/-- A node is charged with all that it is to send. -/
theorem charged_of_feeds (hsite : fabric.sites.get? near = some site)
    (hfeeds : b.Feeds source near far) :
    b.Charged near site.service.router.forwarding source far := by
  cases hfeeds with
  | direct hjoined => exact .inl rfl
  | fanout hpartner hmate =>
    exact h.charged_of_due hqueue hfull hsite
      (show b.Assigned near .fanout source far from ⟨hpartner, hmate⟩)
      (h.due_fanout hqueue hfull hsite hpartner)
  | uplink hpartner hinner => exact h.charged_uplink hqueue hfull hsite hpartner hinner
  | cross hchosen hinner =>
    obtain ⟨partner, fellow, hpartner, hfellow, -⟩ := Blueprint.chosen?_eq_some_iff.1 hchosen
    have hknown := h.crossPartner?_eq hqueue hfull hsite
    rw [hpartner] at hknown
    have hback := hfull.partner?_comm hpartner
    have hjoined := (hfull.partner?_eq_some_iff.1 hback).1
    obtain ⟨other, hother⟩ := h.exists_site (hfull.of_joined hjoined).2.1
    refine h.charged_of_due hqueue hfull hsite
      (show b.Assigned near .cross source far from ⟨hchosen, hinner⟩)
      ⟨h.primed hqueue hfull hsite hpartner hfellow, partner, hknown, fun inner hmem => ?_⟩
    obtain ⟨found, hfound, hinput⟩ := h.input_of_charged hqueue hother hjoined
      (h.charged_uplink hqueue hfull hother hback hmem)
    obtain rfl := Option.some.inj (hsite.symm.trans hfound)
    exact hinput

/-! ## All nodes are done -/

/-- Every node receives the data of all its peers. -/
theorem input_of_peer (hsite : fabric.sites.get? far = some site)
    (hpeer : source ∈ b.topology.peers far) : (site.node.ledger.input? source).isSome = true := by
  obtain ⟨hne, hmember, hshare⟩ := Topology.mem_peers_iff.1 hpeer
  rw [Topology.sharePartition_comm] at hshare
  obtain ⟨near, hfeeds⟩ := hfull.exists_feeds hmember
    (Topology.mem_peers_iff.2 ⟨hne.symm, h.hasMember hsite, hshare⟩)
  have hjoined := hfull.joined_of_feeds hfeeds
  obtain ⟨other, hother⟩ := h.exists_site (hfull.of_joined hjoined).2.1
  obtain ⟨found, hfound, hinput⟩ := h.input_of_charged hqueue hother hjoined
    (h.charged_of_feeds hqueue hfull hother hfeeds)
  obtain rfl := Option.some.inj (hsite.symm.trans hfound)
  exact hinput

theorem expected_eq (hsite : fabric.sites.get? near = some site) :
    site.node.progress.expected = ⟨0, 0, 0⟩ := by
  have hrested := h.rested hsite
  have hrx : site.node.progress.expected.rx = 0 := by
    have hreceive : site.node.progress.expected.rx + (b.topology.peers near).countP
        (fun peer => (site.node.ledger.input? peer).isSome) = (b.topology.peers near).length :=
      hrested.receive
    have hall := List.countP_eq_length.2 fun peer hpeer =>
      h.input_of_peer hqueue hfull hsite hpeer
    omega
  have htx : site.node.progress.expected.tx = 0 := by
    have hsubset : b.duties near ⊆ Blueprint.sent site.service.router.node := by
      rintro ⟨source, far⟩ hmem
      have hfeeds := hfull.mem_duties_iff.1 hmem
      exact hrested.mem_sent_iff.2
        ⟨h.bound_of_joined hqueue hsite (hfull.joined_of_feeds hfeeds),
          h.charged_of_feeds hqueue hfull hsite hfeeds⟩
    have hlength := (List.subperm_of_subset (hfull.nodup_duties near) hsubset).length_le
    have hlimit := hfull.length_duties (h.hasMember hsite) hrested.profile
      (h.crossPartner?_eq hqueue hfull hsite)
    have hdeparts := h.departs hsite
    have hsent := hrested.length_sent
    have hrequests : site.service.router.node.journal.requests = site.node.journal.requests := rfl
    rw [hqueue, List.countP_nil] at hdeparts
    rw [hrequests] at hsent
    omega
  have hnetwork : site.node.progress.expected.network = 0 := by
    have hcount : site.node.progress.expected.network + (b.topology.counterparts near).countP
        site.service.router.forwarding.links.contains = (b.topology.counterparts near).length :=
      hrested.network
    have hall := List.countP_eq_length.2 fun peer hpeer => by
      rcases h.linked hsite hpeer with hlive | ⟨event, -, hmem⟩
      · exact hlive
      · rw [hqueue] at hmem
        exact absurd hmem (by simp)
    omega
  cases hexpected : site.node.progress.expected with
  | mk rx tx network =>
    rw [hexpected] at hrx htx hnetwork
    simp only at hrx htx hnetwork
    rw [hrx, htx, hnetwork]

end Empty

end Fabric.Forming

namespace Fabric

variable {b : Installation} {fabric other : Fabric} {source near far rank peer : Rank} {site : Site}
  {node : Node}

def route? (fabric : Fabric) (rank peer : Rank) : Option Route :=
  (fabric.node? rank).bind fun node => node.ledger.route? peer

/-- What an ensemble has come to once it has formed. No node has failed or returned an error; each
is ready and expects nothing more, has locked its backend once and told its delegate once. The
inputs and routes of a node are those of the seven other nodes of its partition, and its network
links are those to the partners of its partition. -/
structure Formed (topology : Topology) (fabric : Fabric) : Prop where
  errors : fabric.errors = []
  members : ∀ {rank}, (fabric.node? rank).isSome = true ↔ topology.hasMember rank = true
  ready : ∀ {rank node}, fabric.node? rank = some node → node.progress.phase = .ready
  expected : ∀ {rank node}, fabric.node? rank = some node → node.progress.expected = ⟨0, 0, 0⟩
  locks : ∀ {rank node}, fabric.node? rank = some node → node.journal.locks = 1
  signals : ∀ {rank node}, fabric.node? rank = some node → node.journal.readySignals = 1
  peers : ∀ {rank}, topology.hasMember rank = true → (topology.peers rank).length = 7
  input : ∀ {rank node peer}, fabric.node? rank = some node →
    ((node.ledger.input? peer).isSome = true ↔ peer ∈ topology.peers rank)
  route : ∀ {rank node peer}, fabric.node? rank = some node →
    ((node.ledger.route? peer).isSome = true ↔ peer ∈ topology.peers rank)
  links : ∀ {rank site}, fabric.sites.get? rank = some site →
    site.service.router.forwarding.liveLinks = topology.counterparts rank

namespace Forming

theorem liveLinks_eq (h : Forming b fabric) (hqueue : fabric.queue = [])
    (hsite : fabric.sites.get? near = some site) :
    site.service.router.forwarding.liveLinks = b.topology.counterparts near := by
  have hkeys : site.service.router.forwarding.liveLinks =
      site.service.router.forwarding.links.keys := by
    cases site.service.router.forwarding <;> rfl
  have hcounterparts : (b.topology.counterparts near).Pairwise (· < ·) := by
    rw [Topology.counterparts]
    split
    · exact (Table.pairwise_keys b.topology.members).filter _
    · exact .nil
  rw [hkeys]
  refine Topology.eq_of_ascending (Table.pairwise_keys _) hcounterparts fun peer => ?_
  rw [Table.mem_keys_iff]
  constructor
  · exact h.live hsite
  · intro hwanted
    rcases h.linked hsite hwanted with hlive | ⟨event, -, hmem⟩
    · exact hlive
    · rw [hqueue] at hmem
      exact absurd hmem (by simp)

/-- With full cabling and an empty queue, the ensemble has formed. -/
theorem formed (h : Forming b fabric) (hfull : b.Full) (hqueue : fabric.queue = []) :
    Formed b.topology fabric := by
  have hready : ∀ {rank site}, fabric.sites.get? rank = some site →
      site.node.progress.locked = true ∧ site.node.progress.phase = .ready := by
    intro rank site hsite
    have hrested := h.rested hsite
    have hexpected := h.expected_eq hqueue hfull hsite
    exact ⟨hrested.complete (congrArg Expected.meshDone hexpected),
      hrested.signalled (congrArg Expected.allDone hexpected)⟩
  constructor
  case errors => exact h.errors
  case members => exact h.member
  case ready =>
    intro rank node hnode
    obtain ⟨site, hsite, rfl⟩ := exists_site_of_node? hnode
    exact (hready hsite).2
  case expected =>
    intro rank node hnode
    obtain ⟨site, hsite, rfl⟩ := exists_site_of_node? hnode
    exact h.expected_eq hqueue hfull hsite
  case locks =>
    intro rank node hnode
    obtain ⟨site, hsite, rfl⟩ := exists_site_of_node? hnode
    have hlocks : site.node.journal.locks = if site.node.progress.locked then 1 else 0 :=
      (h.rested hsite).locks
    rw [hlocks, (hready hsite).1]
    rfl
  case signals =>
    intro rank node hnode
    obtain ⟨site, hsite, rfl⟩ := exists_site_of_node? hnode
    have hsignals : site.node.journal.readySignals =
        if site.node.progress.phase = .ready then 1 else 0 := (h.rested hsite).signals
    rw [hsignals, (hready hsite).2]
    rfl
  case peers => exact fun hmember => (hfull.balanced hmember).length_peers hmember
  case input =>
    intro rank node peer hnode
    obtain ⟨site, hsite, rfl⟩ := exists_site_of_node? hnode
    constructor
    · intro hinput
      obtain ⟨channel, hchannel⟩ := Option.isSome_iff_exists.1 hinput
      obtain ⟨near, -, hfeeds⟩ := (h.rested hsite).input hchannel
      obtain ⟨hne, hmember, -, hshare⟩ := hfull.of_feeds hfeeds
      rw [Topology.sharePartition_comm] at hshare
      exact Topology.mem_peers_iff.2 ⟨hne, hmember, hshare⟩
    · exact h.input_of_peer hqueue hfull hsite
  case route =>
    intro rank node peer hnode
    obtain ⟨site, hsite, rfl⟩ := exists_site_of_node? hnode
    constructor
    · intro hroute
      obtain ⟨route, hroute⟩ := Option.isSome_iff_exists.1 hroute
      obtain ⟨-, rfl, hchain⟩ := h.isChain_of_route? hnode hroute
      obtain ⟨near, hfeeds⟩ := Route.exists_leads hchain
      obtain ⟨hne, -, hmember, hshare⟩ := hfull.of_feeds hfeeds
      exact Topology.mem_peers_iff.2 ⟨hne.symm, hmember, hshare⟩
    · intro hpeer
      obtain ⟨hne, hmember, hshare⟩ := Topology.mem_peers_iff.1 hpeer
      rw [Topology.sharePartition_comm] at hshare
      obtain ⟨other, hother⟩ := h.exists_site hmember
      have hinput := h.input_of_peer hqueue hfull hother
        (Topology.mem_peers_iff.2 ⟨hne.symm, h.hasMember hsite, hshare⟩)
      obtain ⟨found, hfound, hroute⟩ := h.routed_of_input hqueue hother hne.symm hinput
      obtain rfl := Option.some.inj (hnode.symm.trans hfound)
      exact hroute
  case links => exact h.liveLinks_eq hqueue

/-- Two ensembles that have formed by one blueprint have the same routes. -/
theorem route?_eq (h : Forming b fabric) (h' : Forming b other) (hvalid : b.Valid)
    (hformed : Formed b.topology fabric) (hformed' : Formed b.topology other) (rank peer : Rank) :
    fabric.route? rank peer = other.route? rank peer := by
  rw [route?, route?]
  cases hnode : fabric.node? rank with
  | none =>
    have hnone : other.node? rank = none := by
      rw [← Option.not_isSome_iff_eq_none, hformed'.members, ← hformed.members, hnode]
      simp
    rw [hnone]
  | some node =>
    obtain ⟨node', hnode'⟩ := Option.isSome_iff_exists.1
      (hformed'.members.2 (hformed.members.1 (by rw [hnode]; rfl)))
    rw [hnode', Option.bind_some, Option.bind_some]
    have hsome : (node.ledger.route? peer).isSome = true ↔
        (node'.ledger.route? peer).isSome = true := by
      rw [hformed.route hnode, hformed'.route hnode']
    cases hroute : node.ledger.route? peer with
    | none =>
      rw [hroute] at hsome
      cases hroute' : node'.ledger.route? peer with
      | none => rfl
      | some route' =>
        rw [hroute'] at hsome
        exact absurd hsome (by simp)
    | some route =>
      rw [hroute] at hsome
      obtain ⟨route', hroute'⟩ := Option.isSome_iff_exists.1 (hsome.1 rfl)
      obtain ⟨horigin, hdestination, hchain⟩ := h.isChain_of_route? hnode hroute
      obtain ⟨horigin', hdestination', hchain'⟩ := h'.isChain_of_route? hnode' hroute'
      rw [hroute', Route.eq_of_isChain (hvalid.rooted rank) hchain horigin hchain' horigin'
        (hdestination.trans hdestination'.symm)]

end Forming

end Fabric

end MeshFormation
