import MeshFormation.Proofs.Router.Writes
import MeshFormation.Proofs.Topology.Chassis

/-!
# The peers of a router

A router binds a channel to a peer of its own partition, and no peer to a second channel. Its rules
admit at most one channel to the other chassis, and the peer at the far end of it is the partner
that the rules know of. A router that loses a channel keeps the others apart as before.
-/

namespace MeshFormation

theorem length_le_one_of_nodup {α : Type} {list : List α} (h : list.Nodup)
    (hsame : ∀ first ∈ list, ∀ second ∈ list, first = second) : list.length ≤ 1 := by
  cases list with
  | nil => exact Nat.zero_le 1
  | cons first rest =>
    cases rest with
    | nil => exact Nat.le_refl 1
    | cons second others =>
      obtain rfl := hsame first (by simp) second (by simp)
      exact absurd h (by simp)

namespace Table

variable {α : Type} {table : Table α}

theorem mem_values_iff {value : α} : value ∈ table.values ↔ ∃ key, table.get? key = some value := by
  rw [values, List.mem_map]
  constructor
  · rintro ⟨row, hrow, rfl⟩
    exact ⟨row.1, get?_eq_some_iff.2 hrow⟩
  · rintro ⟨key, hkey⟩
    exact ⟨(key, value), get?_eq_some_iff.1 hkey, rfl⟩

/-- A table that no value occurs in twice lists its values once each. -/
theorem nodup_values (h : ∀ {key other value}, table.get? key = some value →
    table.get? other = some value → key = other) : table.values.Nodup := by
  apply List.Nodup.map_on
  · intro row hrow other hother hsame
    have hkey : row.1 = other.1 := by
      apply h (get?_eq_some_iff.2 hrow)
      rw [hsame]
      exact get?_eq_some_iff.2 hother
    exact Prod.ext hkey hsame
  · apply table.ascending.imp
    rintro row _ hlt rfl
    exact UInt32.lt_irrefl _ hlt

end Table

namespace Node

variable {node : Node} {event : ChannelEvent} {channel : Channel} {peer : Rank}

/-- What the shared checks find out of a channel that they let pass. -/
theorem of_screening_fresh (h : node.screening event = .fresh) :
    event.peer ∈ node.topology.peers node.rank ∧ node.boundPeer? event.channel = none ∧
      ∀ channel, node.boundPeer? channel ≠ some event.peer := by
  obtain ⟨hrecognises, hunused, -, hunbound⟩ := screening_eq_fresh_iff.1 h
  exact ⟨hrecognises.peer, hunused, hunbound⟩

theorem boundPeer?_bind (node : Node) (channel other : Channel) (peer : Rank) :
    (node.bind channel peer).boundPeer? other =
      if other = channel then some peer else node.boundPeer? other :=
  Table.get?_insert node.bindings channel peer other

/-- The channels of a node lead to different peers of its partition. Unless it is one of a pair, at
most one of them leaves its chassis. -/
structure Apart (node : Node) (profile : Profile) : Prop where
  once : ∀ {channel other peer}, node.boundPeer? channel = some peer →
    node.boundPeer? other = some peer → channel = other
  peer : ∀ {channel peer}, node.boundPeer? channel = some peer →
    peer ∈ node.topology.peers node.rank
  across : profile ≠ .pair → ∀ {channel other peer second}, node.boundPeer? channel = some peer →
    node.boundPeer? other = some second → node.topology.shareChassis node.rank peer = false →
      node.topology.shareChassis node.rank second = false → peer = second

namespace Apart

variable {next : Node} {profile : Profile}

/-- Fewer channels are apart as well. -/
theorem mono (h : node.Apart profile) (htopology : next.topology = node.topology)
    (hbound : ∀ {channel peer}, next.boundPeer? channel = some peer →
      node.boundPeer? channel = some peer) : next.Apart profile := by
  have hrank : next.rank = node.rank := congrArg Topology.localRank htopology
  constructor
  case once => exact fun hfirst hsecond => h.once (hbound hfirst) (hbound hsecond)
  case peer =>
    intro channel peer hpeer
    rw [htopology, hrank]
    exact h.peer (hbound hpeer)
  case across =>
    intro hprofile channel other peer second hpeer hsecond
    rw [htopology, hrank]
    exact h.across hprofile (hbound hpeer) (hbound hsecond)

theorem of_advances (h : node.Apart profile) (hadvances : node.Advances next) :
    next.Apart profile := by
  apply h.mono hadvances.topology
  intro channel peer hpeer
  rwa [boundPeer?, hadvances.bindings] at hpeer

theorem bind (h : node.Apart profile) (hfresh : node.screening event = .fresh)
    (hacross : profile ≠ .pair → node.topology.shareChassis node.rank event.peer = false →
      ∀ {channel peer}, node.boundPeer? channel = some peer →
        node.topology.shareChassis node.rank peer = true) :
    (node.bind event.channel event.peer).Apart profile := by
  obtain ⟨hmember, -, hunbound⟩ := of_screening_fresh hfresh
  have hcases : ∀ {channel peer},
      (node.bind event.channel event.peer).boundPeer? channel = some peer →
        channel = event.channel ∧ peer = event.peer ∨ node.boundPeer? channel = some peer := by
    intro channel peer hpeer
    rw [boundPeer?_bind] at hpeer
    split at hpeer
    · rename_i hchannel
      exact .inl ⟨hchannel, (Option.some.inj hpeer).symm⟩
    · exact .inr hpeer
  constructor
  case once =>
    intro channel other peer hfirst hsecond
    rcases hcases hfirst with ⟨rfl, rfl⟩ | hfirst <;>
      rcases hcases hsecond with ⟨rfl, hpeer⟩ | hsecond
    · rfl
    · exact absurd hsecond (hunbound other)
    · rw [hpeer] at hfirst
      exact absurd hfirst (hunbound channel)
    · exact h.once hfirst hsecond
  case peer =>
    intro channel peer hpeer
    rcases hcases hpeer with ⟨-, rfl⟩ | hpeer
    · exact hmember
    · exact h.peer hpeer
  case across =>
    intro hprofile channel other peer second hpeer hsecond hout hout'
    rcases hcases hpeer with ⟨-, rfl⟩ | hpeer <;> rcases hcases hsecond with ⟨-, rfl⟩ | hsecond
    · rfl
    · exact absurd (hacross hprofile hout hsecond) (Bool.eq_false_iff.1 hout')
    · exact absurd (hacross hprofile hout' hpeer) (Bool.eq_false_iff.1 hout)
    · exact h.across hprofile hpeer hsecond hout hout'

/-- A peer has no more than one channel. -/
theorem boundChannel?_eq (h : node.Apart profile) (hbound : node.boundPeer? channel = some peer) :
    node.boundChannel? peer = some channel := by
  cases hfound : node.boundChannel? peer with
  | none => exact absurd hbound (boundChannel?_eq_none_iff.1 hfound channel)
  | some other =>
    obtain ⟨value, hvalue, hsame⟩ := Table.get?_of_firstKey? hfound
    rw [beq_iff_eq] at hsame
    rw [h.once hbound (hsame ▸ hvalue)]

/-- A node with three chassis mates has four channels at most. -/
theorem size_le (h : node.Apart profile) (hprofile : profile ≠ .pair)
    (hmates : (node.topology.chassisMates node.rank).length = 3) : node.bindings.size ≤ 4 := by
  have hnodup : node.bindings.values.Nodup := Table.nodup_values h.once
  have hbound : ∀ {peer}, peer ∈ node.bindings.values →
      ∃ channel, node.boundPeer? channel = some peer :=
    Table.mem_values_iff.1
  have hinside :
      (node.bindings.values.filter (node.topology.shareChassis node.rank)).length ≤ 3 := by
    rw [← hmates]
    apply (List.subperm_of_subset (hnodup.filter _) _).length_le
    intro peer hpeer
    obtain ⟨hvalue, hshare⟩ := List.mem_filter.1 hpeer
    obtain ⟨channel, hchannel⟩ := hbound hvalue
    exact Topology.mem_chassisMates_iff.2 ⟨(Topology.mem_peers_iff.1 (h.peer hchannel)).1, hshare⟩
  have hacross : (node.bindings.values.filter
      fun peer => !node.topology.shareChassis node.rank peer).length ≤ 1 := by
    apply length_le_one_of_nodup (hnodup.filter _)
    intro peer hpeer second hsecond
    obtain ⟨hvalue, hout⟩ := List.mem_filter.1 hpeer
    obtain ⟨hvalue', hout'⟩ := List.mem_filter.1 hsecond
    obtain ⟨channel, hchannel⟩ := hbound hvalue
    obtain ⟨other, hother⟩ := hbound hvalue'
    exact h.across hprofile hchannel hother (by simpa using hout) (by simpa using hout')
  have hsplit : node.bindings.values.length = _ :=
    List.length_eq_length_filter_add (node.topology.shareChassis node.rank)
  have hsize : node.bindings.values.length = node.bindings.size := List.length_map _
  omega

end Apart

end Node

namespace Forwarding

variable {forwarding : Forwarding} {node : Node} {event : ChannelEvent}

/-- Apart from a pair, the rules take a channel out of the chassis only as long as they know no
partner. -/
theorem unset_of_admitted (h : forwarding.rejection? node event = none)
    (hprofile : forwarding.profile ≠ .pair)
    (hacross : node.topology.shareChassis node.rank event.peer = false) :
    forwarding.crossPartner? = none := by
  cases forwarding with
  | pair => exact absurd rfl hprofile
  | cube rules =>
    simpa [rejection?, CubeForwarding.rejection?, crossPartner?, hacross] using h
  | hypercube rules =>
    simpa [rejection?, HypercubeForwarding.rejection?, crossPartner?, hacross] using h

end Forwarding

namespace Router

variable {router next start : Router} {backend : Backend} {event : Event}
  {result : Except RouterError Outbox} {profile : Profile} {topology : Topology}

/-- The channels of a router are apart, and while it works, its rules know the peer at the far end
of the one that leaves the chassis. -/
structure Attached (router : Router) : Prop where
  apart : router.node.Apart router.forwarding.profile
  chosen : ∀ {partner}, router.forwarding.crossPartner? = some partner →
    partner ∈ router.node.topology.peers router.rank ∧
      router.node.topology.shareChassis router.rank partner = false
  known : router.node.isFailed = false → router.forwarding.profile ≠ .pair →
    ∀ {channel peer}, router.node.boundPeer? channel = some peer →
      router.node.topology.shareChassis router.rank peer = false →
        router.forwarding.crossPartner? = some peer
  bound : router.node.isFailed = false → ∀ {partner},
    router.forwarding.crossPartner? = some partner →
      ∃ channel, router.node.boundPeer? channel = some partner

theorem Writes.apart {node : Node} (h : router.Writes event node) (hrouter : router.Attached)
    (hworking : router.node.isFailed = false) : node.Apart router.forwarding.profile := by
  cases h with
  | counts | records | learns => exact hrouter.apart.mono rfl id
  | @binds known admits =>
    apply hrouter.apart.bind admits.fresh
    intro hprofile hacross channel peer hpeer
    have hunset := Forwarding.unset_of_admitted admits.admitted hprofile hacross
    rw [← Bool.not_eq_false]
    intro hother
    exact absurd (hrouter.known hworking hprofile hpeer hother) (by simp [hunset])
  | unbinds =>
    apply Node.Apart.mono hrouter.apart
    · rfl
    · intro channel peer hpeer
      rw [Node.boundPeer?, Table.get?_erase] at hpeer
      split at hpeer
      · exact absurd hpeer (by simp)
      · exact hpeer

/-- Only an admitted channel with an accepted transmit changes the bindings of a router that goes on
to work, and nothing else makes it know a partner. -/
theorem Step.keeps_or_joins (h : router.Step backend event next result) :
    (next.forwarding.profile = router.forwarding.profile ∧
      next.forwarding.crossPartner? = router.forwarding.crossPartner? ∧
        (next.node.isFailed = true ∨ next.node.bindings = router.node.bindings)) ∨
      ∃ known node, router.Admits known ∧ node.topology = router.node.topology ∧
        node.bindings = router.node.bindings.insert known.channel known.peer ∧
          router.forwarding.Joins node known next.forwarding next.node := by
  cases h with
  | unheard | unlinked | repeated | free | live => exact .inl ⟨rfl, rfl, .inr rfl⟩
  | @rejected known =>
    obtain ⟨accepted, hcalls⟩ := router.node.calls_refuseChannel backend known.channel
    exact .inl ⟨rfl, rfl, .inr hcalls.bindings⟩
  | unestablished admits refused =>
    cases Node.calls_of_establish refused with
    | refused calls => exact .inl ⟨rfl, rfl, .inl (Node.isFailed_fail _ _)⟩
  | @bound known node admits accepted =>
    have hadvances := Node.advances_of_establish accepted
    exact .inr ⟨known, node, admits, hadvances.topology, hadvances.bindings, admits.joins accepted⟩
  | lost | broken | violated | surplus => exact .inl ⟨rfl, rfl, .inl (Node.isFailed_fail _ _)⟩
  | surplusLink hypercube =>
    exact .inl ⟨by rw [hypercube]; rfl, by rw [hypercube]; rfl, .inl (Node.isFailed_fail _ _)⟩
  | linked hypercube =>
    exact .inl ⟨by rw [hypercube]; rfl, by rw [hypercube]; rfl,
      .inr (Node.advances_signalReadiness _).bindings⟩
  | @absorbed event middle outbox absorbs =>
    have hkeeps := absorbs.keepsLinks.trans (keepsLinks_proceed middle backend)
    exact .inl ⟨hkeeps.profile, hkeeps.partner,
      .inr ((advances_proceed middle backend).bindings.trans absorbs.bindings)⟩

/-- A router that goes on to work keeps its channels. -/
theorem Step.boundPeer?_mono {channel : Channel} {peer : Rank}
    (h : router.Step backend event next result) (hnext : next.node.isFailed = false)
    (hbound : router.node.boundPeer? channel = some peer) :
    next.node.boundPeer? channel = some peer := by
  rcases h.keeps_or_joins with ⟨-, -, hfailed | hbindings⟩ |
    ⟨known, node, admits, -, hbindings, hjoins⟩
  · exact absurd (hfailed.symm.trans hnext) (by simp)
  · rwa [Node.boundPeer?, hbindings]
  · have hunused := (Node.of_screening_fresh admits.fresh).2.1
    rw [Node.boundPeer?, hjoins.advances.bindings, hbindings, Table.get?_insert, if_neg]
    · exact hbound
    · rintro rfl
      exact absurd (hunused.symm.trans hbound) (by simp)

/-- A partner that the rules know stays. -/
theorem Step.partner_mono {partner : Rank} (h : router.Step backend event next result)
    (hpartner : router.forwarding.crossPartner? = some partner) :
    next.forwarding.crossPartner? = some partner := by
  rcases h.keeps_or_joins with ⟨-, hsame, -⟩ | ⟨known, node, -, -, -, hjoins⟩
  · exact hsame.trans hpartner
  · rcases hjoins.partner with ⟨hsame, -⟩ | ⟨hunset, -⟩
    · exact hsame.trans hpartner
    · exact absurd (hunset.symm.trans hpartner) (by simp)

theorem Step.profile_eq (h : router.Step backend event next result) :
    next.forwarding.profile = router.forwarding.profile := by
  rcases h.keeps_or_joins with ⟨hprofile, -, -⟩ | ⟨known, node, -, -, -, hjoins⟩
  · exact hprofile
  · exact hjoins.profile_eq

theorem Attached.keep (hrouter : router.Attached) (hworking : router.node.isFailed = false)
    (hapart : next.node.Apart next.forwarding.profile)
    (htopology : next.node.topology = router.node.topology)
    (hprofile : next.forwarding.profile = router.forwarding.profile)
    (hpartner : next.forwarding.crossPartner? = router.forwarding.crossPartner?)
    (hbindings : next.node.isFailed = true ∨ next.node.bindings = router.node.bindings) :
    next.Attached := by
  have hrank : next.rank = router.rank := congrArg Topology.localRank htopology
  have hsame : next.node.isFailed = false → ∀ channel,
      next.node.boundPeer? channel = router.node.boundPeer? channel := by
    intro hnext channel
    rcases hbindings with hfailed | hbindings
    · exact absurd (hfailed.symm.trans hnext) (by simp)
    · rw [Node.boundPeer?, hbindings]
      rfl
  constructor
  case apart => exact hapart
  case chosen =>
    intro partner hchosen
    rw [htopology, hrank]
    exact hrouter.chosen (hpartner.symm.trans hchosen)
  case known =>
    intro hnext hkind channel peer hpeer hacross
    rw [hsame hnext] at hpeer
    rw [htopology, hrank] at hacross
    exact hpartner.trans (hrouter.known hworking (hprofile ▸ hkind) hpeer hacross)
  case bound =>
    intro hnext partner hchosen
    obtain ⟨channel, hchannel⟩ := hrouter.bound hworking (hpartner.symm.trans hchosen)
    exact ⟨channel, (hsame hnext channel).trans hchannel⟩

theorem Attached.join {known : ChannelEvent} {node : Node} (hrouter : router.Attached)
    (hworking : router.node.isFailed = false) (hapart : next.node.Apart next.forwarding.profile)
    (admits : router.Admits known) (htopology : node.topology = router.node.topology)
    (hbindings : node.bindings = router.node.bindings.insert known.channel known.peer)
    (hjoins : router.forwarding.Joins node known next.forwarding next.node) : next.Attached := by
  have hnext : next.node.topology = router.node.topology := hjoins.advances.topology.trans htopology
  have hrank : next.rank = router.rank := congrArg Topology.localRank hnext
  have hbound : ∀ channel, next.node.boundPeer? channel =
      if channel = known.channel then some known.peer else router.node.boundPeer? channel := by
    intro channel
    rw [Node.boundPeer?, hjoins.advances.bindings, hbindings]
    exact Table.get?_insert _ _ _ _
  obtain ⟨hmember, hunused, -⟩ := Node.of_screening_fresh admits.fresh
  have hpartner := hjoins.partner
  rw [htopology, show node.rank = router.node.rank from congrArg Topology.localRank htopology]
    at hpartner
  constructor
  case apart => exact hapart
  case chosen =>
    intro partner hchosen
    rw [hnext, hrank]
    rcases hpartner with ⟨hsame, -⟩ | ⟨-, hnew, hacross⟩
    · exact hrouter.chosen (hsame.symm.trans hchosen)
    · obtain rfl := Option.some.inj (hnew.symm.trans hchosen)
      exact ⟨hmember, hacross⟩
  case known =>
    intro _ hkind channel peer hpeer hout
    rw [hnext, hrank] at hout
    rw [hjoins.profile_eq] at hkind
    rw [hbound] at hpeer
    rcases hpartner with ⟨hsame, hinside⟩ | ⟨hunset, hnew, hacross⟩
    · split at hpeer
      · rw [← Option.some.inj hpeer] at hout
        exact absurd (hinside.resolve_left hkind) (Bool.eq_false_iff.1 hout)
      · exact hsame.trans (hrouter.known hworking hkind hpeer hout)
    · split at hpeer
      · rw [hnew, Option.some.inj hpeer]
      · have hold := hrouter.known hworking hkind hpeer hout
        exact absurd (hunset.symm.trans hold) (by simp)
  case bound =>
    intro _ partner hchosen
    rcases hpartner with ⟨hsame, -⟩ | ⟨-, hnew, -⟩
    · obtain ⟨channel, hchannel⟩ := hrouter.bound hworking (hsame.symm.trans hchosen)
      refine ⟨channel, (hbound channel).trans ?_⟩
      rw [if_neg, hchannel]
      rintro rfl
      exact absurd (hunused.symm.trans hchannel) (by simp)
    · refine ⟨known.channel, (hbound _).trans ?_⟩
      rw [if_pos rfl, ← hnew, hchosen]

theorem Step.attached (hrouter : router.Attached) (hworking : router.node.isFailed = false)
    (h : router.Step backend event next result) : next.Attached := by
  obtain ⟨written, hwrites, hadvances⟩ := h.writes
  have hapart : next.node.Apart next.forwarding.profile := by
    rw [h.profile_eq]
    exact (hwrites.apart hrouter hworking).of_advances hadvances
  rcases h.keeps_or_joins with ⟨hprofile, hpartner, hbindings⟩ |
    ⟨known, node, admits, hnode, hbindings, hjoins⟩
  · exact hrouter.keep hworking hapart h.topology_eq hprofile hpartner hbindings
  · exact hrouter.join hworking hapart admits hnode hbindings hjoins

theorem attached_create (h : (create profile topology).2 = .ok start) : start.Attached := by
  obtain ⟨hpartner, hosts, hnode⟩ := create_eq_ok h
  have hunbound : ∀ channel, start.node.boundPeer? channel = none := by
    intro channel
    rw [hnode]
    rfl
  constructor
  case apart =>
    constructor
    case once => exact fun hpeer => absurd hpeer (by simp [hunbound])
    case peer => exact fun hpeer => absurd hpeer (by simp [hunbound])
    case across => exact fun _ _ _ _ _ hpeer => absurd hpeer (by simp [hunbound])
  case chosen => exact fun hchosen => absurd hchosen (by simp [hpartner])
  case known => exact fun _ _ _ _ hpeer => absurd hpeer (by simp [hunbound])
  case bound => exact fun _ _ hchosen => absurd hchosen (by simp [hpartner])

theorem attached_run (h : (create profile topology).2 = .ok start) (backend : Backend)
    (events : List Event) : (start.run backend events).Attached :=
  run_invariant (attached_create h) (fun hrouter hworking hstep => hstep.attached hrouter hworking)
    events

end Router

end MeshFormation
