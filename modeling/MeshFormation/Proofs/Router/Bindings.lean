import MeshFormation.Layout
import MeshFormation.Proofs.Router.Attachment
import MeshFormation.Proofs.Router.Readiness

/-!
# Bindings, retired channels and roles

A bound peer has a ledger entry, and a channel that was lost is bound to nobody again. Together with
what keeps the channels of a router apart this makes the two lookups of its bindings inverse to each
other, and ties its role to the one bound peer that may lie outside the chassis. The rules are asked
for a role only as long as they have none.
-/

namespace MeshFormation

namespace Ledger

variable {ledger : Ledger} {peer other : Rank} {entry : Connectivity}

theorem contains_put :
    (ledger.put peer entry).contains other = true ↔
      other = peer ∨ ledger.contains other = true := by
  rw [contains, put, Table.contains_eq_isSome, Table.get?_insert]
  split <;> simp_all [contains, Table.contains_eq_isSome]

end Ledger

namespace Node

variable {node next : Node} {channel : Channel} {peer bound source : Rank} {ledger : Ledger}

theorem contains_of_ledgerAfter {direction : Direction}
    (h : node.ledgerAfter direction channel source = .ok (bound, ledger))
    (hpeer : node.ledger.contains peer = true) : ledger.contains peer = true := by
  cases direction with
  | rx =>
    obtain ⟨-, hput⟩ := Ledger.recordInput_eq_ok_iff.1 (ledgerAfter_rx_eq_ok h).2.2.2
    rw [hput]
    exact Ledger.contains_put.2 (.inr hpeer)
  | tx =>
    have houtput : (node.ledger.recordOutput bound channel).contains peer = true :=
      Ledger.contains_put.2 (.inr hpeer)
    rw [(ledgerAfter_tx_eq_ok h).2.2.2]
    split
    · exact Ledger.contains_put.2 (.inr houtput)
    · exact houtput

/-- The bound peers of a node have ledger entries, and the channels that it lost have no peers. -/
structure Tracks (node : Node) : Prop where
  entry : ∀ {channel peer}, node.boundPeer? channel = some peer → node.ledger.contains peer = true
  lost : ∀ {channel}, node.lostChannels.contains channel = true → node.boundPeer? channel = none

namespace Tracks

theorem of_advances (h : node.Tracks) (hadvances : node.Advances next) : next.Tracks := by
  constructor
  case entry =>
    intro channel peer hbound
    rw [boundPeer?, hadvances.bindings] at hbound
    rw [hadvances.ledger]
    exact h.entry hbound
  case lost =>
    intro channel hlost
    rw [hadvances.lostChannels] at hlost
    rw [boundPeer?, hadvances.bindings]
    exact h.lost hlost

theorem record (h : node.Tracks) {progress : Progress}
    (hgrows : ∀ {peer}, node.ledger.contains peer = true → ledger.contains peer = true) :
    Tracks { node with ledger, progress } :=
  ⟨fun hbound => hgrows (h.entry hbound), fun hlost => h.lost hlost⟩

theorem bind (h : node.Tracks) (hkept : node.lostChannels.contains channel = false) :
    (node.bind channel peer).Tracks := by
  constructor
  case entry =>
    intro other bound hbound
    rw [boundPeer?_bind] at hbound
    split at hbound
    · exact Ledger.contains_put.2 (.inl (Option.some.inj hbound).symm)
    · exact Ledger.contains_put.2 (.inr (h.entry hbound))
  case lost =>
    intro other hlost
    rw [boundPeer?_bind, if_neg]
    · exact h.lost hlost
    · rintro rfl
      exact absurd (hlost.symm.trans hkept) (by simp)

theorem erase (h : node.Tracks) (channel : Channel) : Tracks { node with
    bindings := node.bindings.erase channel
    lostChannels := node.lostChannels.add channel } := by
  constructor
  case entry =>
    intro other bound hbound
    rw [boundPeer?, Table.get?_erase] at hbound
    split at hbound
    · exact absurd hbound (by simp)
    · exact h.entry hbound
  case lost =>
    intro other hlost
    rw [boundPeer?, Table.get?_erase]
    split
    · rfl
    · rename_i hother
      rw [KeySet.contains_add, Bool.or_eq_true, beq_iff_eq] at hlost
      exact h.lost (hlost.resolve_left hother)

end Tracks

theorem not_lost_of_fresh {event : ChannelEvent} (h : node.screening event = .fresh) :
    node.lostChannels.contains event.channel = false :=
  (screening_eq_fresh_iff.1 h).1.kept

end Node

namespace Router

variable {router next start : Router} {backend : Backend} {event : Event} {known : ChannelEvent}
  {result : Except RouterError Outbox} {profile : Profile} {topology : Topology}

theorem Writes.tracks {node : Node} (h : router.Writes event node) (hrouter : router.node.Tracks) :
    node.Tracks := by
  cases h with
  | counts => exact hrouter.record id
  | binds admits => exact hrouter.bind (Node.not_lost_of_fresh admits.fresh)
  | unbinds => exact hrouter.erase _
  | records phase recorded => exact hrouter.record (Node.contains_of_ledgerAfter recorded)
  | learns => exact hrouter.record fun hpeer => Ledger.contains_put.2 (.inr hpeer)

theorem Step.tracks (h : router.Step backend event next result) (hrouter : router.node.Tracks) :
    next.node.Tracks := by
  obtain ⟨node, hwrites, hadvances⟩ := h.writes
  exact (hwrites.tracks hrouter).of_advances hadvances

theorem tracks_run (h : (create profile topology).2 = .ok start) (backend : Backend)
    (events : List Event) : (start.run backend events).node.Tracks := by
  have hstart : start.node.Tracks := by
    obtain ⟨-, hosts, hnode⟩ := create_eq_ok h
    rw [hnode]
    exact ⟨fun hbound => absurd hbound (by simp [Node.boundPeer?, Node.start]),
      fun _ => Table.get?_empty _⟩
  exact run_invariant hstart (fun hrouter _ hstep => hstep.tracks hrouter) events

theorem profile_run (h : (create profile topology).2 = .ok start) (backend : Backend)
    (events : List Event) : (start.run backend events).forwarding.profile = profile := by
  have hstart : start.forwarding.profile = profile := by
    rw [(fresh_create h).profile_eq, profile_of_create h]
  exact run_invariant hstart (fun hrouter _ hstep => hstep.profile_eq.trans hrouter) events

theorem partner_run {partner : Rank} (h : router.forwarding.crossPartner? = some partner)
    (backend : Backend) (events : List Event) :
    (router.run backend events).forwarding.crossPartner? = some partner :=
  run_invariant h (fun hpartner _ hstep => hstep.partner_mono hpartner) events

/-! ## The assignment of a role -/

/-- The rules of a working router are asked for a role: a channel out of the chassis passes all
checks, and the direct transmit on it is accepted. -/
structure Assigns (router : Router) (backend : Backend) (known : ChannelEvent) : Prop where
  working : router.node.isFailed = false
  profile : router.forwarding.profile ≠ .pair
  admits : router.Admits known
  across : router.node.topology.shareChassis router.rank known.peer = false
  established : ((router.node.bind known.channel known.peer).establish backend router.node.rank
    known.channel).2 = true

theorem Admits.handle {node : Node} (h : router.Admits known)
    (hworking : router.node.isFailed = false)
    (haccepted : (router.node.bind known.channel known.peer).establish backend router.node.rank
      known.channel = (node, true)) :
    (router.handle backend (.channel known)).1 =
      ⟨(router.forwarding.channelBound node known).2.1,
        (router.forwarding.channelBound node known).1⟩ := by
  rw [Router.handle, if_neg (by simp [hworking])]
  simp only [channelChanged, h.connected, h.fresh, h.admitted, haccepted, Bool.not_true,
    Bool.false_eq_true, if_false]

/-- Rules that are asked for a role have none yet, and take the one that the channel gives them. -/
theorem Assigns.crossPartner? (h : router.Assigns backend known) :
    router.forwarding.crossPartner? = none ∧
      (router.handle backend (.channel known)).1.forwarding.crossPartner? = some known.peer := by
  obtain ⟨node, haccepted⟩ : ∃ node, (router.node.bind known.channel known.peer).establish backend
      router.node.rank known.channel = (node, true) := ⟨_, Prod.ext rfl h.established⟩
  have htopology : node.topology = router.node.topology :=
    (Node.advances_of_establish haccepted).topology
  rw [h.admits.handle h.working haccepted]
  rcases (h.admits.joins haccepted).partner with ⟨-, hpair | hinside⟩ | ⟨hunset, hpartner, -⟩
  · exact absurd hpair h.profile
  · rw [htopology, show node.rank = router.rank from congrArg Topology.localRank htopology,
      h.across] at hinside
    exact absurd hinside (by simp)
  · exact ⟨hunset, hpartner⟩

/-! ## Every reachable state -/

/-- A router whose bindings and role are consistent. Apart from a pair, the role of a working router
names the one bound peer outside the chassis, and no event asks for a second one. -/
structure Moored (router : Router) (backend : Backend) : Prop where
  inverse : ∀ {channel peer}, router.node.boundChannel? peer = some channel ↔
    router.node.boundPeer? channel = some peer
  peer : ∀ {channel peer}, router.node.boundPeer? channel = some peer → peer ≠ router.rank ∧
    router.node.topology.hasMember peer = true ∧
      router.node.topology.sharePartition router.rank peer = true ∧
        router.node.ledger.contains peer = true
  lost : ∀ {channel}, router.node.lostChannels.contains channel = true →
    router.node.boundPeer? channel = none
  across : router.forwarding.profile ≠ .pair → ∀ {channel other peer second},
    router.node.boundPeer? channel = some peer → router.node.boundPeer? other = some second →
      router.node.topology.shareChassis router.rank peer = false →
        router.node.topology.shareChassis router.rank second = false →
          channel = other ∧ peer = second
  partner : router.forwarding.profile ≠ .pair → router.phase ≠ .failed → ∀ {peer},
    router.forwarding.crossPartner? = some peer ↔
      (∃ channel, router.node.boundPeer? channel = some peer) ∧
        router.node.topology.shareChassis router.rank peer = false
  assigned : ∀ {known}, router.Assigns backend known → router.forwarding.crossPartner? = none ∧
    (router.handle backend (.channel known)).1.forwarding.crossPartner? = some known.peer

theorem Attached.moored (h : router.Attached) (htracks : router.node.Tracks) (backend : Backend) :
    router.Moored backend := by
  constructor
  case inverse =>
    intro channel peer
    refine ⟨fun hfound => ?_, h.apart.boundChannel?_eq⟩
    obtain ⟨bound, hbound, hsame⟩ := Table.get?_of_firstKey? hfound
    rwa [beq_iff_eq.1 hsame] at hbound
  case peer =>
    intro channel peer hbound
    obtain ⟨hother, hmember, hpartition⟩ := Topology.mem_peers_iff.1 (h.apart.peer hbound)
    exact ⟨hother, hmember, hpartition, htracks.entry hbound⟩
  case lost => exact htracks.lost
  case across =>
    intro hprofile channel other peer second hpeer hsecond hout hout'
    obtain rfl := h.apart.across hprofile hpeer hsecond hout hout'
    exact ⟨h.apart.once hpeer hsecond, rfl⟩
  case partner =>
    intro hprofile hphase peer
    constructor
    · exact fun hpartner => ⟨h.bound (working_of_phase hphase) hpartner, (h.chosen hpartner).2⟩
    · rintro ⟨⟨channel, hbound⟩, hacross⟩
      exact h.known (working_of_phase hphase) hprofile hbound hacross
  case assigned => exact Assigns.crossPartner?

/-- In every run of a router the bindings and the role are consistent, and a role stays as it is. -/
theorem moored_run (h : (create profile topology).2 = .ok start) (backend : Backend)
    (events : List Event) : (start.run backend events).forwarding.profile = profile ∧
      (start.run backend events).Moored backend ∧ ∀ {partner},
        (start.run backend events).forwarding.crossPartner? = some partner → ∀ more,
          (start.run backend (events ++ more)).forwarding.crossPartner? = some partner := by
  refine ⟨profile_run h backend events,
    (attached_run h backend events).moored (tracks_run h backend events) backend, ?_⟩
  intro partner hpartner more
  rw [run_append]
  exact partner_run hpartner backend more

/-- Channel 2 leads to a peer that has a channel, channel 8 to a second peer outside the chassis;
both are turned down. Then the channel of the partner is lost. -/
def mooringTurns : List Event :=
  [.channel ⟨1, 1, "p0-a", true⟩, .channel ⟨2, 1, "p0-a", true⟩, .channel ⟨9, 4, "p0-b", true⟩,
    .channel ⟨8, 5, "p0-b", true⟩, .channel ⟨9, 4, "p0-b", false⟩]

theorem moored_run_eight : ∃ topology start,
    Topology.ofMembers (Layout.members 8) 0 .auto = .ok topology ∧
      (create .cube topology).2 = .ok start ∧
        (start.run .accepting (mooringTurns.take 4)).node.bindings.rows = [(1, 1), (9, 4)] ∧
        (start.run .accepting mooringTurns).node.bindings.rows = [(1, 1)] ∧
        (start.run .accepting mooringTurns).node.lostChannels.keys = [9] ∧
        (start.run .accepting (mooringTurns.take 4)).Moored .accepting ∧
        (start.run .accepting mooringTurns).Moored .accepting ∧
        (start.run .accepting mooringTurns).forwarding.crossPartner? = some 4 := by
  obtain ⟨topology, start, hvalid, hcreate, hbefore, hpartner, hafter, hlost⟩ : ∃ topology start,
      Topology.ofMembers (Layout.members 8) 0 .auto = .ok topology ∧
        (create .cube topology).2 = .ok start ∧
          (start.run .accepting (mooringTurns.take 4)).node.bindings.rows = [(1, 1), (9, 4)] ∧
          (start.run .accepting (mooringTurns.take 4)).forwarding.crossPartner? = some 4 ∧
          (start.run .accepting mooringTurns).node.bindings.rows = [(1, 1)] ∧
          (start.run .accepting mooringTurns).node.lostChannels.keys = [9] :=
    exists_created (by decide +kernel)
  obtain ⟨-, hmoored, hstays⟩ := moored_run hcreate .accepting (mooringTurns.take 4)
  exact ⟨topology, start, hvalid, hcreate, hbefore, hafter, hlost, hmoored,
    (moored_run hcreate .accepting mooringTurns).2.1, hstays hpartner (mooringTurns.drop 4)⟩

end Router

end MeshFormation
