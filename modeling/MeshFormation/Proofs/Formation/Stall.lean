import MeshFormation.Proofs.Formation.Begin
import MeshFormation.Proofs.Router.Step
import Mathlib.Data.Finset.Card

/-!
# Missing cables

An ensemble that lacks some of its cables waits for them. Whatever is delivered next, no node fails,
answers an error or turns a channel down. A node that lacks a cable of its chassis or the one to its
partner is never ready, and no node of a cube is ready before both chassis hold two links to each
other.
-/

namespace MeshFormation

/-- Some pairs of nodes in a chassis are linked, and links with different ends lead from one chassis
of a partition to the other one, in a cube at most two. -/
structure PartlyCabled (topology : Topology) (links : List Link) : Prop where
  simple : Cabling.Simple links
  member : ∀ link ∈ links, topology.hasMember link.1 = true ∧ topology.hasMember link.2 = true ∧
    topology.sharePartition link.1 link.2 = true
  apart : (Blueprint.crossLinks ⟨topology, links⟩).Pairwise Blueprint.Apart
  few : topology.profile = .cube → (Blueprint.crossLinks ⟨topology, links⟩).length ≤ 2

instance (topology : Topology) (links : List Link) : Decidable (PartlyCabled topology links) :=
  decidable_of_iff (Cabling.Simple links ∧
    (links.all fun link => topology.hasMember link.1 && (topology.hasMember link.2 &&
      topology.sharePartition link.1 link.2)) = true ∧
    (Blueprint.crossLinks ⟨topology, links⟩).Pairwise Blueprint.Apart ∧
    (topology.profile = .cube → (Blueprint.crossLinks ⟨topology, links⟩).length ≤ 2)) <| by
      rw [List.all_eq_true]
      simp only [Bool.and_eq_true]
      exact ⟨fun ⟨simple, member, apart, few⟩ => ⟨simple, member, apart, few⟩,
        fun ⟨simple, member, apart, few⟩ => ⟨simple, member, apart, few⟩⟩

theorem PartlyCabled.valid {topology : Topology} {links : List Link}
    (h : PartlyCabled topology links) (hfault : topology.fault? = none)
    (hprofile : topology.profile ≠ .pair) :
    Blueprint.Valid ⟨topology, links⟩ :=
  ⟨hfault, hprofile, h.member, h.simple, h.apart, h.few⟩

/-! ## Data that crosses -/

namespace Blueprint.Valid

variable {b : Blueprint} {source near far node : Rank} (h : b.Valid)
include h

/-- The two outer nodes of a chassis hold a link each. -/
theorem fellow?_eq_none_of_few (hfew : b.crossLinks.length < 2) (node : Rank) :
    b.fellow? node = none := by
  cases hfellow : b.fellow? node with
  | none => rfl
  | some fellow =>
    obtain ⟨-, hnode, hmate, hother⟩ := h.fellow?_eq_some_iff.1 hfellow
    obtain ⟨hne, hshare⟩ := mem_mates_iff.1 hmate
    obtain ⟨_, hnode⟩ := Option.isSome_iff_exists.1 hnode
    obtain ⟨_, hother⟩ := Option.isSome_iff_exists.1 hother
    obtain ⟨first, hfirst, hend⟩ := exists_crossLink hnode
    obtain ⟨second, hsecond, hend'⟩ := exists_crossLink hother
    have hdistinct : [first, second].Nodup := by
      rw [List.nodup_cons, List.mem_singleton]
      refine ⟨?_, List.nodup_singleton _⟩
      rintro rfl
      exact hne (ne_of_oppositeEnd? hfirst hend hend' hshare).symm
    have hsubset : [first, second] ⊆ b.crossLinks := by simp [hfirst, hsecond]
    have hlength := (List.subperm_of_subset hdistinct hsubset).length_le
    simp only [List.length_cons, List.length_nil] at hlength
    omega

/-- With one link between the chassis, only the node at its end is heard in the other chassis. -/
theorem isSome_partner?_of_feeds (hfew : b.crossLinks.length < 2) (hfeeds : b.Feeds source near far)
    (hcross : b.topology.shareChassis source far = false) : (b.partner? source).isSome = true := by
  have hnone := h.fellow?_eq_none_of_few hfew near
  cases hfeeds with
  | direct joined =>
    exact Option.isSome_iff_exists.2 ⟨far, h.partner?_eq_some_iff.2 ⟨joined, hcross⟩⟩
  | fanout partner mate => exact Option.isSome_iff_exists.2 ⟨near, h.partner?_comm partner⟩
  | uplink partner inner =>
    obtain ⟨fellow, hfellow, -⟩ := mem_inners_iff.1 inner
    exact absurd hfellow (by simp [hnone])
  | cross chosen inner =>
    obtain ⟨fellow, hfellow, -⟩ := mem_inners_iff.1 inner
    exact absurd hfellow (by simp [hnone])

/-- Four peers of a node sit in the other chassis. -/
theorem exists_across (hmember : b.topology.hasMember node = true) : ∃ first second,
    first ≠ second ∧ first ∈ b.topology.peers node ∧ second ∈ b.topology.peers node ∧
      b.topology.shareChassis node first = false ∧ b.topology.shareChassis node second = false := by
  have hinside : ((b.topology.peers node).filter (b.topology.shareChassis node)).length ≤ 3 := by
    have hsubset :
        (b.topology.peers node).filter (b.topology.shareChassis node) ⊆ b.mates node := by
      intro other hmem
      obtain ⟨hpeer, hshare⟩ := List.mem_filter.1 hmem
      exact mem_mates_iff.2 ⟨(Topology.mem_peers_iff.1 hpeer).1, hshare⟩
    have hnodup := (b.topology.nodup_peers node).filter (b.topology.shareChassis node)
    have hlength := (List.subperm_of_subset hnodup hsubset).length_le
    rwa [h.length_mates hmember] at hlength
  have hpeers := (h.balanced hmember).length_peers hmember
  rw [List.length_eq_length_filter_add (b.topology.shareChassis node)] at hpeers
  have hnodup := (b.topology.nodup_peers node).filter (!b.topology.shareChassis node ·)
  have hacross : 1 < ((b.topology.peers node).filter
      (!b.topology.shareChassis node ·)).toFinset.card := by
    rw [List.toFinset_card_of_nodup hnodup]
    omega
  obtain ⟨first, hfirst, second, hsecond, hne⟩ := Finset.one_lt_card.1 hacross
  simp only [List.mem_toFinset, List.mem_filter, Bool.not_eq_true'] at hfirst hsecond
  exact ⟨first, second, hne, hfirst.1, hsecond.1, hfirst.2, hsecond.2⟩

/-- With one link between the chassis of a cube, not all of the other chassis is heard. -/
theorem exists_unfed (hcube : b.topology.profile = .cube) (hfew : b.crossLinks.length < 2)
    (hmember : b.topology.hasMember far = true) : ∃ source ∈ b.topology.peers far,
      ∀ near, ¬b.Feeds source near far := by
  obtain ⟨first, second, hne, hfirst, hsecond, hcross, hcross'⟩ := h.exists_across hmember
  refine Classical.byContradiction fun hall => ?_
  have houter : ∀ source ∈ b.topology.peers far, b.topology.shareChassis far source = false →
      (b.partner? source).isSome = true := by
    intro source hpeer hcross
    rw [Topology.shareChassis_comm] at hcross
    obtain ⟨near, hfeeds⟩ : ∃ near, b.Feeds source near far := by
      refine Classical.byContradiction fun hnone => hall ⟨source, hpeer, fun near hfeeds => ?_⟩
      exact hnone ⟨near, hfeeds⟩
    exact h.isSome_partner?_of_feeds hfew hfeeds hcross
  have hgroup : ∀ source ∈ b.topology.peers far, source ∈ b.topology.group far :=
    fun source hpeer => Topology.mem_group_iff.2 (Topology.mem_peers_iff.1 hpeer).2
  have hshare : b.topology.shareChassis first second = true := by
    rcases (h.balanced hmember).shareChassis_or hmember (hgroup _ hfirst)
      (hgroup _ hsecond) hcross with hsame | hsame
    · exact absurd hsame (by simp [hcross'])
    · exact hsame
  have hfellow : b.fellow? first = some second :=
    h.fellow?_eq_some_iff.2 ⟨hcube, houter first hfirst hcross,
      mem_mates_iff.2 ⟨hne.symm, hshare⟩, houter second hsecond hcross'⟩
  exact absurd hfellow (by simp [h.fellow?_eq_none_of_few hfew])

end Blueprint.Valid

namespace Fabric

variable {b : Installation} {start fabric next rest : Fabric} {before behind : List Parcel}
  {near far mate target : Rank} {site : Site} {event : Event} {delivery : Delivery} {count : Nat}

/-! ## Nodes that are never ready -/

namespace Forming

variable (h : Forming b fabric) (hvalid : b.Valid)
include h hvalid

theorem not_ready_of_unlinked_mate (hsite : fabric.sites.get? near = some site)
    (hmate : mate ∈ b.mates near) (hmissing : ¬b.Joined near mate) :
    site.node.progress.phase ≠ .ready := by
  intro hready
  have hrested := h.rested hsite
  obtain ⟨hne, hshare⟩ := Blueprint.Valid.mem_mates_iff.1 hmate
  have hpeer : mate ∈ b.topology.peers near := Topology.mem_peers_iff.2
    ⟨hne, (Topology.hasMember_of_shareChassis hshare).2,
      Topology.sharePartition_of_shareChassis hshare⟩
  obtain ⟨channel, far, hbound, hfeeds⟩ :=
    hrested.exists_feeds_of_locked (hrested.ready hready).1 hpeer
  rw [Topology.shareChassis_comm] at hshare
  obtain rfl := hvalid.eq_of_feeds_of_shareChassis hfeeds hshare
  exact hmissing (hrested.joined hbound)

/-- A node of a hypercube counts seven transmits and makes three of them without a partner. -/
theorem not_ready_of_alone (hhypercube : b.topology.profile = .hypercube)
    (hsite : fabric.sites.get? near = some site) (halone : b.partner? near = none) :
    site.node.progress.phase ≠ .ready := by
  intro hready
  have hrested := h.rested hsite
  have hknown : site.service.router.forwarding.crossPartner? = none := by
    cases hknown : site.service.router.forwarding.crossPartner? with
    | none => rfl
    | some partner => exact absurd (hrested.partner.1 hknown).1 (by simp [halone])
  have hrequests := hrested.length_requests_le_of_alone hvalid (h.hasMember hsite) hknown
  have hdeparts := h.departs hsite
  have hmesh := hrested.locked (hrested.ready hready).1
  simp only [Expected.meshDone, Bool.and_eq_true, beq_iff_eq] at hmesh
  have hlimit : site.service.router.forwarding.limit = 7 := by
    rw [Forwarding.limit, hrested.profile, hhypercube]
  have htx : site.node.progress.expected.tx = 0 := hmesh.2
  have hsame : site.service.router.node.journal.requests = site.node.journal.requests := rfl
  rw [hsame] at hrequests
  omega

theorem not_ready_of_few (hcube : b.topology.profile = .cube) (hfew : b.crossLinks.length < 2)
    (hsite : fabric.sites.get? near = some site) : site.node.progress.phase ≠ .ready := by
  intro hready
  have hrested := h.rested hsite
  obtain ⟨source, hpeer, hunfed⟩ := hvalid.exists_unfed hcube hfew (h.hasMember hsite)
  obtain ⟨channel, far, -, hfeeds⟩ := hrested.exists_feeds_of_locked (hrested.ready hready).1 hpeer
  exact hunfed far hfeeds

end Forming

/-! ## Channels that are turned down -/

/-- An event that can reach a node at rest leads to no channel that the node turns down. -/
theorem asks_of_permits {router : Router} {wiring : Wiring} (h : b.Rested near router)
    (hvalid : b.Valid) (hpermits : b.Permits near wiring router event) (backend : Backend) :
    router.node.Asks (·.isDisable = false) (router.handle backend event).1.node := by
  have hstep := Router.step_handle backend event h.working
  rcases hstep.asks_or_rejects with hasks | ⟨known, rfl, -, hrejects, -⟩
  · exact hasks
  cases hpermits with
  | channel hconnected hwired hfree halone hjoined hchassis hunlocked =>
    have hfresh := h.screening_fresh hvalid hfree halone hjoined hchassis hunlocked
    have hadmitted := h.rejection?_eq_none hvalid halone hjoined
    rcases hrejects with ⟨reason, hreason⟩ | ⟨-, hreason⟩
    · exact absurd (hfresh.symm.trans hreason) (by simp)
    · exact absurd hreason (by simp [hadmitted])

/-- No node has disabled a channel. -/
def KeepsChannels (fabric : Fabric) : Prop :=
  ∀ near site, fabric.sites.get? near = some site →
    ∀ attempt ∈ site.node.journal.attempts, attempt.call.isDisable = false

theorem Occurs.keepsChannels {front : List Parcel} {parcel : Parcel} {outbox : Outbox}
    (hforming : Forming b fabric) (hvalid : b.Valid)
    (h : Occurs b fabric next front before parcel behind target site event outbox)
    (hkeeps : fabric.KeepsChannels) : next.KeepsChannels := by
  intro rank other hother attempt hmem
  rcases h.site_cases hother with ⟨-, rfl⟩ | ⟨-, hother⟩
  · rw [Site.node_after, Node.sending] at hmem
    obtain ⟨made, hmade, hkind⟩ :=
      asks_of_permits (hforming.rested h.hosts) hvalid h.permits site.wiring.backend
    rcases List.mem_append.1 hmem with hhandled | hsent
    · rw [show (site.handled event).1.node.journal.attempts = _ from hmade] at hhandled
      rcases List.mem_append.1 hhandled with hbefore | hmade
      · exact hkeeps target site h.hosts attempt hbefore
      · exact hkind attempt hmade
    · obtain ⟨outbound, -, rfl⟩ := List.mem_map.1 hsent
      rfl
  · exact hkeeps rank other hother attempt hmem

theorem Created.keepsChannels {members : List Member} {request : ProfileRequest} {links : List Link}
    (h : Created members request links fabric) : fabric.KeepsChannels := by
  intro near site hsite
  obtain ⟨topology, -, hosts, hnode⟩ := h.node? (node?_of_site hsite)
  rw [hnode]
  simp

/-! ## Every order of deliveries -/

/-- The ensemble works and waits: a node that lacks a cable of its chassis or the one to its partner
is not ready, and in a cube with less than two links between the chassis no node is. -/
structure WaitsForCables (topology : Topology) (links : List Link) (fabric : Fabric) : Prop where
  working : ∀ {rank node}, fabric.node? rank = some node → node.progress.phase ≠ .failed
  errors : fabric.errors = []
  kept : ∀ {rank node}, fabric.node? rank = some node →
    ∀ attempt ∈ node.journal.attempts, attempt.call.isDisable = false
  mated : ∀ {rank node mate}, fabric.node? rank = some node → mate ≠ rank →
    topology.shareChassis rank mate = true → ¬Cabling.Joined links rank mate →
      node.progress.phase ≠ .ready
  partnered : topology.profile = .hypercube → ∀ {rank node}, fabric.node? rank = some node →
    (∀ link ∈ Blueprint.crossLinks ⟨topology, links⟩, link.1 ≠ rank ∧ link.2 ≠ rank) →
      node.progress.phase ≠ .ready
  bridged : topology.profile = .cube → (Blueprint.crossLinks ⟨topology, links⟩).length < 2 →
    ∀ {rank node}, fabric.node? rank = some node → node.progress.phase ≠ .ready

theorem Forming.waitsForCables {topology : Topology} {links : List Link}
    (hvalid : Blueprint.Valid ⟨topology, links⟩) (h : Forming hvalid.installation fabric)
    (hkeeps : fabric.KeepsChannels) : WaitsForCables topology links fabric := by
  constructor
  case working =>
    intro rank node hnode hfailed
    apply h.not_anyFailed
    exact ⟨rank, node, hnode, by simp [Node.isFailed, Progress.isFailed, hfailed]⟩
  case errors => exact h.errors
  case kept =>
    intro rank node hnode
    obtain ⟨site, hsite, rfl⟩ := exists_site_of_node? hnode
    exact hkeeps rank site hsite
  case mated =>
    intro rank node mate hnode hne hshare hmissing
    obtain ⟨site, hsite, rfl⟩ := exists_site_of_node? hnode
    have hmate : mate ∈ Blueprint.mates ⟨topology, links⟩ rank :=
      Blueprint.Valid.mem_mates_iff.2 ⟨hne, hshare⟩
    exact h.not_ready_of_unlinked_mate hvalid hsite hmate hmissing
  case partnered =>
    intro hhypercube rank node hnode hnone
    obtain ⟨site, hsite, rfl⟩ := exists_site_of_node? hnode
    apply h.not_ready_of_alone hvalid hhypercube hsite
    rw [Blueprint.partner?, List.findSome?_eq_none_iff]
    intro link hlink
    obtain ⟨hfirst, hsecond⟩ := hnone link hlink
    rw [Blueprint.oppositeEnd?, if_neg hfirst, if_neg hsecond]
  case bridged =>
    intro hcube hfew rank node hnode
    obtain ⟨site, hsite, rfl⟩ := exists_site_of_node? hnode
    exact h.not_ready_of_few hvalid hcube hfew hsite

/-- An ensemble with some of its cables waits for the others, whatever is delivered next. -/
theorem waits_in_any_order {members : List Member} {request : ProfileRequest} {links : List Link}
    {topology : Topology} {localRank : Rank}
    (htopology : Topology.ofMembers members localRank request = .ok topology)
    (hprofile : topology.profile ≠ .pair)
    (hhosts : topology.profile = .hypercube → ∀ node ∈ topology.ranks,
      ∀ peer ∈ topology.counterparts node,
        ((topology.member? peer).bind (·.hostname)).isSome = true)
    (hcabled : PartlyCabled topology links) :
    ∃ start, create members request links = .ok start ∧
      ∀ {count fabric}, start.Proceeds count fabric → WaitsForCables topology links fabric := by
  have hnames : ∀ {near peer}, topology.hasMember near = true → peer ∈ topology.counterparts near →
      ((topology.member? peer).bind (·.hostname)).isSome = true := by
    intro near peer hmember hpeer
    cases hhypercube : topology.profile with
    | hypercube => exact hhosts hhypercube near (Topology.mem_ranks_iff.2 hmember) peer hpeer
    | pair | cube => exact absurd hpeer (by simp [Topology.counterparts, hhypercube])
  obtain ⟨start, hcreate⟩ := exists_create htopology hnames
  have hcreated := created_of_create hcreate
  have hvalid := hcabled.valid (Topology.fault?_of_ofMembers htopology) hprofile
  have hforming := hcreated.forming htopology hvalid
  refine ⟨start, hcreate, fun hrun => ?_⟩
  obtain ⟨hnow, -⟩ := hrun.forming hforming hvalid
  apply hnow.waitsForCables hvalid
  apply hrun.keeps hforming hvalid _ hcreated.keepsChannels
  exact fun hforming hoccurs => hoccurs.keepsChannels hforming hvalid

theorem waits_in_any_order_of_cube_eight :
    ∃ (topology : Topology) (links : List Link) (start : Fabric),
      Topology.ofMembers (Layout.members 8) 0 .auto = .ok topology ∧ topology.profile = .cube ∧
      PartlyCabled topology links ∧ ¬Cabling.Joined links 0 1 ∧
        (Blueprint.crossLinks ⟨topology, links⟩).length < 2 ∧
          create (Layout.members 8) .auto links = .ok start ∧
            ∀ {count fabric}, start.Proceeds count fabric →
              WaitsForCables topology links fabric := by
  have hcheck : ((Topology.ofMembers (Layout.members 8) 0 .auto).toOption.map fun topology =>
      let links := (Layout.links .cube 8).filter fun link => link ≠ (0, 1) && link ≠ (1, 5)
      decide (topology.profile = .cube ∧ PartlyCabled topology links ∧ ¬Cabling.Joined links 0 1 ∧
        (Blueprint.crossLinks ⟨topology, links⟩).length < 2)) = some true := by decide +kernel
  obtain ⟨topology, htopology, hfacts⟩ := Option.map_eq_some_iff.1 hcheck
  obtain ⟨hcube, hcabled, hmissing, hfew⟩ := of_decide_eq_true hfacts
  have htopology := eq_ok_of_toOption htopology
  obtain ⟨start, hcreate, hwaits⟩ := waits_in_any_order htopology (by simp [hcube])
    (fun hhypercube => absurd (hcube.symm.trans hhypercube) (by simp)) hcabled
  exact ⟨topology, _, start, htopology, hcube, hcabled, hmissing, hfew, hcreate, hwaits⟩

end Fabric

end MeshFormation
