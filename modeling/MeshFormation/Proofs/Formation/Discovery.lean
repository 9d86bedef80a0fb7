import MeshFormation.Proofs.Formation.Events
import MeshFormation.Proofs.Forwarding.Announcements

/-!
# A node discovers a peer

A node at rest that finds a peer on a free channel binds the channel and transmits its own data
there. If the channel leads to the other chassis, the node has found its partner; in a cube it then
expects further transmits and announces itself to the peers that it reaches.
-/

namespace MeshFormation

namespace Blueprint

variable {b : Blueprint} {near far source peer partner : Rank} {router next : Router}
  {rule : RelayRule} {channel : Channel} {wiring : Wiring} {event : ChannelEvent} {outbox : Outbox}

/-- The data of whom a rule assigns comes on a bound channel once the rule is due. -/
theorem Consistent.bound_of_assigned {node : Node} {forwarding : Forwarding}
    (h : b.Consistent near node forwarding) (hvalid : b.Valid)
    (hdue : b.Due near node.ledger forwarding rule) (hassigned : b.Assigned near rule source far) :
    ∃ channel, node.boundPeer? channel = some far := by
  have hmate : ∀ {mate}, mate ∈ b.mates near → (node.ledger.input? mate).isSome = true →
      ∃ channel, node.boundPeer? channel = some mate := by
    intro mate hmate hinput
    obtain ⟨channel, hchannel⟩ := Option.isSome_iff_exists.1 hinput
    exact ⟨channel, hvalid.bound_of_mate h hmate hchannel⟩
  cases rule with
  | fanout =>
    obtain ⟨partner, -, -, hmates⟩ := hdue
    exact hmate hassigned.2 (Ledger.exchangesDirectly_iff.1 (hmates far hassigned.2)).1
  | uplink =>
    obtain ⟨partner, hknown, -⟩ := hdue.partner
    obtain ⟨hpartner, hbound⟩ := h.partner.1 hknown
    obtain rfl := Option.some.inj (hpartner.symm.trans hassigned.1)
    exact hbound
  | cross => exact hmate (Valid.mem_mates_of_mem_inners hassigned.2) (hdue.1.2.2 far hassigned.2)

theorem Steady.screening_fresh (h : b.Steady near router) (hvalid : b.Valid)
    (hfree : router.node.boundPeer? event.channel = none)
    (halone : ∀ channel, router.node.boundPeer? channel ≠ some event.peer)
    (hjoined : b.Joined near event.peer)
    (hchassis : b.topology.chassis? event.peer = some event.chassis)
    (hunlocked : router.node.progress.locked = false) :
    router.node.screening event = .fresh := by
  obtain ⟨hne, -, hmember, hshare⟩ := hvalid.of_joined hjoined
  have hrecognises : router.node.Recognises event := by
    constructor
    case kept => exact h.lost _
    case peer =>
      rw [h.rank_eq, h.topology]
      exact Topology.mem_peers_iff.2 ⟨hne.symm, hmember, hshare⟩
    case chassis =>
      rw [h.topology]
      exact hchassis
  exact Node.screening_eq_fresh_iff.2 ⟨hrecognises, hfree, hunlocked, halone⟩

theorem Steady.crossPartner?_eq_none (h : b.Steady near router) (hvalid : b.Valid)
    (halone : ∀ channel, router.node.boundPeer? channel ≠ some event.peer)
    (hjoined : b.Joined near event.peer)
    (hcross : b.topology.shareChassis near event.peer = false) :
    router.forwarding.crossPartner? = none := by
  cases hknown : router.forwarding.crossPartner? with
  | none => rfl
  | some partner =>
    obtain ⟨hpartner, channel, hbound⟩ := h.partner.1 hknown
    have hpeer := hvalid.partner?_eq_some_iff.2 ⟨hjoined, hcross⟩
    obtain rfl := Option.some.inj (hpartner.symm.trans hpeer)
    exact absurd hbound (halone channel)

theorem Steady.shareChassis_eq (h : b.Steady near router) (peer : Rank) :
    router.node.topology.shareChassis router.node.rank peer =
      b.topology.shareChassis near peer := by
  rw [h.rank_eq, h.topology]
  rfl

/-- A node has not used another link to the other chassis when it finds the one to its partner. -/
theorem Steady.rejection?_eq_none (h : b.Steady near router) (hvalid : b.Valid)
    (halone : ∀ channel, router.node.boundPeer? channel ≠ some event.peer)
    (hjoined : b.Joined near event.peer) :
    router.forwarding.rejection? router.node event = none := by
  have hpartner := h.crossPartner?_eq_none hvalid halone hjoined
  cases hforwarding : router.forwarding with
  | pair => rfl
  | cube rules =>
    rw [hforwarding] at hpartner
    rw [Forwarding.rejection?, CubeForwarding.rejection?, h.shareChassis_eq]
    cases hcross : b.topology.shareChassis near event.peer with
    | true => rfl
    | false =>
      have hnone : rules.role.partner? = none := hpartner hcross
      simp [hnone]
  | hypercube rules =>
    rw [hforwarding] at hpartner
    rw [Forwarding.rejection?, HypercubeForwarding.rejection?, h.shareChassis_eq]
    cases hcross : b.topology.shareChassis near event.peer with
    | true => rfl
    | false =>
      have hnone : rules.partner.value = none := hpartner hcross
      simp [hnone]

/-- The node that bound a channel, transmits there, and expects some more transmits. -/
def joining (node : Node) (event : ChannelEvent) (extra : Nat) : Node :=
  { (node.bind event.channel event.peer).asking [(node.rank, event.channel)] with
    progress := { node.progress with expected :=
      { node.progress.expected with tx := node.progress.expected.tx + extra } } }

section Joining

variable {node : Node} {extra : Nat}

theorem boundPeer?_joining (hfree : node.boundPeer? event.channel = none) :
    (joining node event extra).boundPeer? channel = some far ↔
      (channel = event.channel ∧ far = event.peer) ∨ node.boundPeer? channel = some far := by
  rw [Node.boundPeer?]
  change (node.bindings.insert event.channel event.peer).get? channel = some far ↔ _
  rw [Table.get?_insert]
  split
  · rename_i heq
    subst heq
    simp [hfree, eq_comm]
  · rename_i hne
    simp [hne, Node.boundPeer?]

theorem input?_joining (peer : Rank) :
    (joining node event extra).ledger.input? peer = node.ledger.input? peer :=
  Ledger.input?_track _ _ _

theorem reaches_joining (peer : Rank) :
    (joining node event extra).ledger.reaches peer = node.ledger.reaches peer := by
  rw [Ledger.reaches_eq, Ledger.reaches_eq]
  exact congrArg _ (Ledger.route?_track _ _ _)

theorem requests_joining : (joining node event extra).journal.requests =
    node.journal.requests ++ [(node.rank, event.channel)] :=
  Node.requests_asking (node.bind event.channel event.peer) _

theorem locks_joining : (joining node event extra).journal.locks = node.journal.locks :=
  Node.locks_asking (node.bind event.channel event.peer) _

theorem due_joining_iff {forwarding : Forwarding} :
    b.Due near (joining node event extra).ledger forwarding rule ↔
      b.Due near node.ledger forwarding rule := by
  constructor
  · refine Due.mono (fun peer => ?_) (fun peer => ?_) (fun _ => id) fun _ => id
    · rw [input?_joining]
      exact id
    · rw [reaches_joining]
      exact id
  · refine Due.mono (fun peer => ?_) (fun peer => ?_) (fun _ => id) fun _ => id
    · rw [input?_joining]
      exact id
    · rw [reaches_joining]
      exact id

end Joining

/-- The rules of a node take note of a new channel: one to the other chassis names the partner. -/
structure Notes (b : Blueprint) (near : Rank) (router : Router) (event : ChannelEvent)
    (forwarding : Forwarding) (extra : Nat) : Prop where
  profile : forwarding.profile = router.forwarding.profile
  partner : forwarding.crossPartner? = if b.topology.shareChassis near event.peer then
    router.forwarding.crossPartner? else some event.peer
  hears : forwarding.hears = router.forwarding.hears
  requestedLinks : forwarding.requestedLinks = router.forwarding.requestedLinks
  links : forwarding.links = router.forwarding.links
  ran : forwarding.ran = router.forwarding.ran
  tells : ∀ peer, forwarding.tells peer =
    (forwarding.speaks && router.node.ledger.reaches peer)
  limit : forwarding.limit = router.forwarding.limit + extra

section Notes

variable {forwarding : Forwarding} {extra : Nat}

theorem Notes.consistent (hnotes : b.Notes near router event forwarding extra)
    (h : b.Steady near router) (hvalid : b.Valid)
    (hfree : router.node.boundPeer? event.channel = none)
    (halone : ∀ channel, router.node.boundPeer? channel ≠ some event.peer)
    (hjoined : b.Joined near event.peer) :
    b.Consistent near (joining router.node event extra) forwarding := by
  constructor
  case topology => exact h.topology
  case profile => exact hnotes.profile.trans h.profile
  case joined =>
    intro channel far hbound
    rcases (boundPeer?_joining hfree).1 hbound with ⟨-, rfl⟩ | hbound
    · exact hjoined
    · exact h.joined hbound
  case once =>
    intro channel other far hbound hother
    rcases (boundPeer?_joining hfree).1 hbound with ⟨rfl, rfl⟩ | hbound <;>
      rcases (boundPeer?_joining hfree).1 hother with ⟨rfl, heq⟩ | hother
    · rfl
    · exact absurd hother (halone other)
    · subst heq
      exact absurd hbound (halone channel)
    · exact h.once hbound hother
  case input =>
    intro source channel hinput
    rw [input?_joining] at hinput
    obtain ⟨peer, hbound, hfeeds⟩ := h.input hinput
    exact ⟨peer, (boundPeer?_joining hfree).2 (.inr hbound), hfeeds⟩
  case reached =>
    intro far hreached
    rw [reaches_joining] at hreached
    obtain ⟨channel, hbound⟩ := h.reached hreached
    exact ⟨channel, (boundPeer?_joining hfree).2 (.inr hbound)⟩
  case partner =>
    intro partner
    rw [hnotes.partner]
    split
    · rename_i hshare
      rw [h.partner]
      apply and_congr_right
      intro hknown
      constructor
      · rintro ⟨channel, hbound⟩
        exact ⟨channel, (boundPeer?_joining hfree).2 (.inr hbound)⟩
      · rintro ⟨channel, hbound⟩
        rcases (boundPeer?_joining hfree).1 hbound with ⟨-, rfl⟩ | hbound
        · rw [(hvalid.partner?_eq_some_iff.1 hknown).2] at hshare
          exact absurd hshare (by simp)
        · exact ⟨channel, hbound⟩
    · rename_i hcross
      have hpeer := hvalid.partner?_eq_some_iff.2 ⟨hjoined, by simpa using hcross⟩
      constructor
      · intro hsome
        obtain rfl := Option.some.inj hsome
        exact ⟨hpeer, event.channel, (boundPeer?_joining hfree).2 (.inl ⟨rfl, rfl⟩)⟩
      · rintro ⟨hknown, -⟩
        exact hpeer.symm.trans hknown
  case heard =>
    intro other hheard
    rw [hnotes.hears] at hheard
    exact h.heard hheard

/-- A partner that was found just now has not sent its data yet, so no rule becomes due. -/
theorem Notes.due (hnotes : b.Notes near router event forwarding extra) (h : b.Steady near router)
    (hvalid : b.Valid) (halone : ∀ channel, router.node.boundPeer? channel ≠ some event.peer)
    (hjoined : b.Joined near event.peer) (hdue : b.Due near router.node.ledger forwarding rule) :
    b.Due near router.node.ledger router.forwarding rule := by
  have hsame : forwarding.crossPartner? = router.forwarding.crossPartner? := by
    obtain ⟨partner, hknown, hinput⟩ := hdue.partner
    rw [hnotes.partner] at hknown ⊢
    split
    · rfl
    · rename_i hcross
      rw [if_neg hcross] at hknown
      obtain rfl := Option.some.inj hknown
      obtain ⟨channel, hchannel⟩ := Option.isSome_iff_exists.1 hinput
      have hpeer := hvalid.partner?_eq_some_iff.2 ⟨hjoined, by simpa using hcross⟩
      exact absurd (hvalid.bound_of_partner h.toConsistent hpeer hchannel) (halone channel)
  refine hdue.mono (fun _ => id) (fun _ => id) (fun partner hknown => ?_) fun other hheard => ?_
  · rw [← hsame]
    exact hknown
  · rwa [hnotes.hears] at hheard

theorem Notes.steady (hnotes : b.Notes near router event forwarding extra)
    (h : b.Steady near router) (hvalid : b.Valid)
    (hfree : router.node.boundPeer? event.channel = none)
    (halone : ∀ channel, router.node.boundPeer? channel ≠ some event.peer)
    (hjoined : b.Joined near event.peer) (hunlocked : router.node.progress.locked = false) :
    b.Steady near ⟨joining router.node event extra, forwarding⟩ := by
  have hconsistent := hnotes.consistent h hvalid hfree halone hjoined
  constructor
  case toConsistent => exact hconsistent
  case lost => exact h.lost
  case working => exact h.working
  case nodup =>
    rw [requests_joining, List.nodup_append]
    refine ⟨h.nodup, by simp, fun request hmem other hother heq => ?_⟩
    obtain rfl := heq.trans (List.mem_singleton.1 hother)
    obtain ⟨far, hbound, -⟩ := h.asked.1 hmem
    rw [hfree] at hbound
    exact absurd hbound (by simp)
  case asked =>
    intro source channel
    have hcharged : ∀ {far}, b.Charged near forwarding source far ↔
        b.Charged near router.forwarding source far := by
      intro far
      rw [Charged, hnotes.ran, Charged]
    rw [requests_joining, List.mem_append, List.mem_singleton, Prod.mk.injEq, h.asked, h.rank_eq]
    constructor
    · rintro (⟨far, hbound, hcharge⟩ | ⟨rfl, rfl⟩)
      · exact ⟨far, (boundPeer?_joining hfree).2 (.inr hbound), hcharged.2 hcharge⟩
      · exact ⟨event.peer, (boundPeer?_joining hfree).2 (.inl ⟨rfl, rfl⟩), .inl rfl⟩
    · rintro ⟨far, hbound, hcharge⟩
      rcases (boundPeer?_joining hfree).1 hbound with ⟨rfl, rfl⟩ | hbound
      · rcases hcharged.1 hcharge with rfl | ⟨rule, hran, hassigned⟩
        · exact .inr ⟨rfl, rfl⟩
        · obtain ⟨channel, hbound⟩ :=
            h.toConsistent.bound_of_assigned hvalid (h.ran hran) hassigned
          exact absurd hbound (halone channel)
      · exact .inl ⟨far, hbound, hcharged.1 hcharge⟩
  case ran =>
    intro rule hran
    rw [hnotes.ran] at hran
    apply due_joining_iff.2
    refine (h.ran hran).mono (fun _ => id) (fun _ => id) (fun partner hknown => ?_)
      fun other hheard => ?_
    · obtain ⟨hpartner, channel, hbound⟩ := h.partner.1 hknown
      exact hconsistent.partner.2 ⟨hpartner, channel, (boundPeer?_joining hfree).2 (.inr hbound)⟩
    · rwa [hnotes.hears]
  case tells =>
    intro peer
    rw [reaches_joining]
    exact hnotes.tells peer
  case receive =>
    simp only [input?_joining]
    exact h.receive
  case transmit =>
    rw [hnotes.limit]
    exact Nat.add_le_add_right h.transmit extra
  case wanted =>
    intro peer
    rw [hnotes.requestedLinks]
    exact h.wanted peer
  case network =>
    rw [hnotes.links]
    exact h.network
  case locked => exact fun hlocked => absurd (hunlocked.symm.trans hlocked) Bool.false_ne_true
  case ready => exact fun hready => absurd hready (h.phase_ne_ready hunlocked)
  case locks =>
    rw [locks_joining]
    exact h.locks
  case signals => exact h.signals

theorem Notes.rested (hnotes : b.Notes near router event forwarding extra)
    (h : b.Rested near router) (hvalid : b.Valid)
    (hfree : router.node.boundPeer? event.channel = none)
    (halone : ∀ channel, router.node.boundPeer? channel ≠ some event.peer)
    (hjoined : b.Joined near event.peer) (hunlocked : router.node.progress.locked = false) :
    b.Rested near ⟨joining router.node event extra, forwarding⟩ := by
  have hworking : router.node.progress.expected.meshDone = false := by
    rw [Bool.eq_false_iff]
    intro hdone
    rw [h.complete hdone] at hunlocked
    exact absurd hunlocked (by simp)
  have hopen : (joining router.node event extra).progress.expected.meshDone = false := by
    simp only [Expected.meshDone, joining, Bool.and_eq_false_iff, beq_eq_false_iff_ne] at hworking ⊢
    omega
  constructor
  case toSteady => exact hnotes.steady h.toSteady hvalid hfree halone hjoined hunlocked
  case complete => exact fun hdone => absurd (hdone.symm.trans hopen) (by simp)
  case signalled =>
    intro hdone
    rw [Expected.allDone, Bool.and_eq_true] at hdone
    exact absurd (hdone.1.symm.trans hopen) (by simp)
  case due =>
    intro rule _ hdue
    rw [hnotes.ran]
    exact h.due hunlocked (hnotes.due h.toSteady hvalid halone hjoined (due_joining_iff.1 hdue))

end Notes

/-! ## The event -/

theorem Steady.not_tells (h : b.Steady near router)
    (hnone : router.forwarding.crossPartner? = none) (peer : Rank) :
    router.forwarding.tells peer = false := by
  rw [h.tells, Forwarding.speaks, hnone]
  simp

/-- The peers that a node reaches are other members of its partition. -/
theorem Steady.length_le_of_reaches (h : b.Steady near router) (hvalid : b.Valid)
    (hmember : b.topology.hasMember near = true) {peers : List Rank} (hnodup : peers.Nodup)
    (hreaches : ∀ peer ∈ peers, router.node.ledger.reaches peer = true) : peers.length ≤ 7 := by
  have hsubset : peers ⊆ b.topology.peers near := by
    intro peer hpeer
    obtain ⟨channel, hbound⟩ := h.reached (hreaches peer hpeer)
    obtain ⟨hne, -, hpeer', hshare⟩ := hvalid.of_joined (h.joined hbound)
    exact Topology.mem_peers_iff.2 ⟨hne.symm, hpeer', hshare⟩
  have hlength := (List.subperm_of_subset hnodup hsubset).length_le
  rw [(hvalid.balanced hmember).length_peers hmember] at hlength
  exact hlength

/-- What the rules of a node make of a new channel, and which messages the node sends. -/
def Heeds (b : Blueprint) (near : Rank) (router : Router) (event : ChannelEvent) : Prop :=
  ∃ forwarding extra outbox, router.forwarding.channelBound
      ((router.node.bind event.channel event.peer).asking [(router.node.rank, event.channel)])
      event = (forwarding, joining router.node event extra, outbox) ∧
    b.Notes near router event forwarding extra ∧ outbox.length ≤ 7 ∧
    ∀ outbound, outbound ∈ outbox ↔ ∃ peer, forwarding.tells peer = true ∧
      router.forwarding.tells peer = false ∧
        outbound = ⟨peer, .outerAnnounce near router.node.topology.localChassis⟩

/-- A channel within the chassis is no concern of the rules. -/
theorem Steady.heeds_of_shareChassis (h : b.Steady near router)
    (hshare : b.topology.shareChassis near event.peer = true) : b.Heeds near router event := by
  have hnode : router.node.topology.shareChassis router.node.rank event.peer = true := by
    rw [h.shareChassis_eq, hshare]
  refine ⟨router.forwarding, 0, [], ?_, ⟨rfl, by rw [if_pos hshare], rfl, rfl, rfl, rfl, h.tells,
    rfl⟩, by simp, fun outbound => ?_⟩
  · cases router.forwarding with
    | pair => rfl
    | cube rules =>
      rw [Forwarding.channelBound, CubeForwarding.channelBound, if_pos]
      · rfl
      · exact hnode
    | hypercube rules =>
      rw [Forwarding.channelBound, HypercubeForwarding.channelBound, if_pos]
      · rfl
      · exact hnode
  · simp only [List.not_mem_nil, false_iff]
    rintro ⟨peer, htells, hnot, -⟩
    rw [htells] at hnot
    exact absurd hnot (by simp)

/-- The count is small, so that the 64-bit word does not overflow. -/
theorem Steady.raiseTransmits_joining (h : b.Steady near router) (event : ChannelEvent) :
    ((router.node.bind event.channel event.peer).asking
      [(router.node.rank, event.channel)]).raiseTransmits outerExtraTx =
        joining router.node event outerExtraTx := by
  have htx := h.transmit
  have hle := router.forwarding.limit_le
  have hmod : (router.node.progress.expected.tx + outerExtraTx) % UInt64.size =
      router.node.progress.expected.tx + outerExtraTx := by
    apply Nat.mod_eq_of_lt
    rw [outerExtraTx, UInt64.size]
    omega
  simp only [Node.raiseTransmits, Progress.raiseTransmits, Expected.raiseTransmits, joining,
    Node.bind, Node.asking, hmod]

/-- A node of a cube that finds its partner expects further transmits and tells all peers that it
reaches. -/
theorem Steady.heeds_of_cube (h : b.Steady near router) (hvalid : b.Valid)
    (hmember : b.topology.hasMember near = true)
    (hcross : b.topology.shareChassis near event.peer = false) {rules : CubeForwarding}
    (hrules : router.forwarding = .cube rules) (hnone : router.forwarding.crossPartner? = none) :
    b.Heeds near router event := by
  have hnot := h.not_tells hnone
  have hjoining := h.raiseTransmits_joining event
  rw [hrules] at hnone hnot
  have hrole : rules.role = .undetermined := by
    have hpartner : rules.role.partner? = none := hnone
    cases hrole : rules.role with
    | undetermined => rfl
    | outer partner => simp [hrole, Role.partner?] at hpartner
  have hnode : router.node.topology.shareChassis router.node.rank event.peer = false := by
    rw [h.shareChassis_eq, hcross]
  have hreached := (joining router.node event outerExtraTx).ledger.nodup_directlyReached
  have hmem : ∀ peer, peer ∈ (joining router.node event outerExtraTx).ledger.directlyReached ↔
      router.node.ledger.reaches peer = true := by
    intro peer
    rw [Ledger.mem_directlyReached_iff, reaches_joining]
  obtain ⟨informed, hall, hinformed⟩ := CubeForwarding.announceAll_eq
    { rules with role := .outer event.peer } (joining router.node event outerExtraTx) hreached
    fun peer _ => hnot peer
  have htells : ∀ peer, informed.contains peer = router.node.ledger.reaches peer := by
    intro peer
    have hbefore : rules.informed.contains peer = false := hnot peer
    rw [hinformed, hbefore, Bool.false_or, Bool.eq_iff_iff, List.contains_iff_mem, hmem]
  refine ⟨.cube { rules with role := .outer event.peer, informed }, outerExtraTx,
    (joining router.node event outerExtraTx).ledger.directlyReached.map fun peer =>
      ⟨peer, .outerAnnounce router.node.rank router.node.topology.localChassis⟩, ?_, ?_, ?_,
    fun outbound => ?_⟩
  · rw [hrules, Forwarding.channelBound, CubeForwarding.channelBound, if_neg]
    · rw [hrole]
      simp only [Role.becomeOuter]
      rw [hjoining, hall]
      rfl
    · change ¬ router.node.topology.shareChassis router.node.rank event.peer = true
      simp [hnode]
  · constructor
    case profile => rw [hrules]; rfl
    case partner =>
      rw [hcross]
      rfl
    case hears => rw [hrules]; rfl
    case requestedLinks => rw [hrules]; rfl
    case links => rw [hrules]; rfl
    case ran =>
      rw [hrules]
      funext rule
      cases rule <;> rfl
    case tells => exact fun peer => htells peer
    case limit =>
      rw [hrules, Forwarding.limit, Forwarding.limit, hnone]
      rfl
  · rw [List.length_map]
    exact h.length_le_of_reaches hvalid hmember hreached fun peer hpeer => (hmem peer).1 hpeer
  · rw [List.mem_map, h.rank_eq]
    constructor
    · rintro ⟨peer, hpeer, rfl⟩
      rw [hrules]
      exact ⟨peer, (htells peer).trans ((hmem peer).1 hpeer), hnot peer, rfl⟩
    · rintro ⟨peer, htold, -, rfl⟩
      exact ⟨peer, (hmem peer).2 ((htells peer).symm.trans htold), rfl⟩

/-- A node of a hypercube that finds its partner takes note of it. -/
theorem Steady.heeds_of_hypercube (h : b.Steady near router)
    (hcross : b.topology.shareChassis near event.peer = false) {rules : HypercubeForwarding}
    (hrules : router.forwarding = .hypercube rules)
    (hnone : router.forwarding.crossPartner? = none) : b.Heeds near router event := by
  have hnode : router.node.topology.shareChassis router.node.rank event.peer = false := by
    rw [h.shareChassis_eq, hcross]
  rw [hrules] at hnone
  have hpartner : rules.partner.value = none := hnone
  refine ⟨.hypercube { rules with partner := ⟨some event.peer⟩ }, 0, [], ?_, ?_, by simp,
    fun outbound => ?_⟩
  · rw [hrules, Forwarding.channelBound, HypercubeForwarding.channelBound, if_neg]
    · rw [OnceRank.set, hpartner]
      rfl
    · change ¬ router.node.topology.shareChassis router.node.rank event.peer = true
      simp [hnode]
  · constructor
    case profile => rw [hrules]; rfl
    case partner =>
      rw [hcross]
      rfl
    case hears => rw [hrules]; rfl
    case requestedLinks => rw [hrules]; rfl
    case links => rw [hrules]; rfl
    case ran =>
      rw [hrules]
      funext rule
      cases rule <;> rfl
    case tells => exact fun _ => rfl
    case limit => rw [hrules]; rfl
  · simp only [List.not_mem_nil, false_iff]
    rintro ⟨peer, htells, -⟩
    exact absurd htells (by simp [Forwarding.tells])

theorem Steady.heeds (h : b.Steady near router) (hvalid : b.Valid)
    (halone : ∀ channel, router.node.boundPeer? channel ≠ some event.peer)
    (hjoined : b.Joined near event.peer) : b.Heeds near router event := by
  obtain ⟨-, hmember, -, -⟩ := hvalid.of_joined hjoined
  cases hshare : b.topology.shareChassis near event.peer with
  | true => exact h.heeds_of_shareChassis hshare
  | false =>
    have hnone := h.crossPartner?_eq_none hvalid halone hjoined hshare
    cases hrules : router.forwarding with
    | pair =>
      have hprofile := h.profile
      rw [hrules] at hprofile
      exact absurd hprofile.symm hvalid.profile
    | cube rules => exact h.heeds_of_cube hvalid hmember hshare hrules hnone
    | hypercube rules => exact h.heeds_of_hypercube hshare hrules hnone

theorem Steady.chassis?_eq (h : b.Steady near router) (hmember : b.topology.hasMember near = true) :
    b.topology.chassis? near = some router.node.topology.localChassis := by
  obtain ⟨name, hname⟩ := Topology.exists_chassis?_iff.2 hmember
  have hlocal : router.node.topology.chassis? router.node.topology.localRank = some name := by
    rw [h.topology]
    exact hname
  rw [Topology.localChassis, hlocal, hname]
  rfl

theorem Notes.moves {forwarding : Forwarding} {extra : Nat} {outbox : Outbox}
    (hnotes : b.Notes near router event forwarding extra) (h : b.Steady near router)
    (hfree : router.node.boundPeer? event.channel = none)
    (hmember : b.topology.hasMember near = true) (hlength : outbox.length ≤ 7)
    (houtbox : ∀ outbound, outbound ∈ outbox ↔ ∃ peer, forwarding.tells peer = true ∧
      router.forwarding.tells peer = false ∧
        outbound = ⟨peer, .outerAnnounce near router.node.topology.localChassis⟩) :
    b.Moves near router (.channel event) outbox ⟨joining router.node event extra, forwarding⟩ := by
  constructor
  case binding =>
    intro channel peer
    rw [boundPeer?_joining hfree, Event.binding?, Option.some.injEq, Prod.mk.injEq, or_comm]
    simp only [eq_comm]
  case input =>
    intro source channel
    rw [input?_joining]
    simp [Event.arrival?]
  case hears =>
    intro other
    rw [hnotes.hears]
    simp [Event.announcer?]
  case links =>
    intro peer
    rw [hnotes.links]
    simp [Event.link?]
  case transmit =>
    have hlimit := hnotes.limit
    have htx : (joining router.node event extra).progress.expected.tx =
        router.node.progress.expected.tx + extra := rfl
    rw [htx, hlimit]
    simp only [Event.departure?, Option.isSome_none, Bool.false_eq_true, if_false]
    omega
  case forwards =>
    intro receiver forwarder far
    simp [Event.departure?, houtbox]
  case announces =>
    intro receiver announcer chassis hmem
    obtain ⟨peer, htells, -, heq⟩ := (houtbox _).1 hmem
    obtain ⟨rfl, hmessage⟩ := AddressedMessage.mk.inj heq
    obtain ⟨rfl, rfl⟩ := ControlMessage.outerAnnounce.inj hmessage
    exact ⟨rfl, h.chassis?_eq hmember, htells⟩
  case told =>
    intro receiver htells
    cases hbefore : router.forwarding.tells receiver with
    | true => exact .inl rfl
    | false => exact .inr ⟨_, (houtbox _).2 ⟨receiver, htells, hbefore, rfl⟩⟩
  case share => exact hlength

theorem Rested.applies_channel (h : b.Rested near router) (hvalid : b.Valid)
    (hpermits : b.Permits near wiring router (.channel event)) :
    b.Applies near wiring router (.channel event) := by
  cases hpermits with
  | channel hconnected hwired hfree halone hjoined hchassis hunlocked =>
  obtain ⟨-, hmember, -, -⟩ := hvalid.of_joined hjoined
  obtain ⟨forwarding, extra, outbox, hbound, hnotes, hlength, houtbox⟩ :=
    h.toSteady.heeds hvalid halone hjoined
  refine ⟨⟨joining router.node event extra, forwarding⟩, outbox, ?_,
    hnotes.rested h hvalid hfree halone hjoined hunlocked, ?_⟩
  · have hestablish : (router.node.bind event.channel event.peer).establish wiring.backend
        router.node.rank event.channel = ((router.node.bind event.channel event.peer).asking
          [(router.node.rank, event.channel)], true) := Node.establish_backend hwired
    rw [Router.handle, if_neg (by simp [h.working])]
    simp only [Router.channelChanged, hconnected, Bool.not_true, Bool.false_eq_true, if_false]
    rw [h.screening_fresh hvalid hfree halone hjoined hchassis hunlocked]
    dsimp only
    rw [h.rejection?_eq_none hvalid halone hjoined]
    dsimp only
    rw [hestablish]
    dsimp only
    rw [hbound]
  · exact hnotes.moves h.toSteady hfree hmember hlength houtbox

end Blueprint

end MeshFormation
