import MeshFormation.Proofs.Formation.Play
import MeshFormation.Proofs.Router.Readiness

/-!
# The result of every order

A play ends after at most twenty-three events, and it can always be played to the end. By then the
node has all that the three rules wait for, whichever event came last. It has asked for its eleven
transmits, has locked its backend once, has told its delegate once that it is ready, and has
announced itself once to each peer.
-/

namespace MeshFormation.OuterSeat

variable {topology : Topology} {seat : OuterSeat topology} {delivered pending : List Event}
  {router start : Router} {source peer : Rank} {channel : Channel}

/-- The transmits that the node asks for in the end. -/
def requests (seat : OuterSeat topology) : List (Rank × Channel) :=
  seat.duties.map fun duty => (duty.1, seat.channel duty.2)

/-- The node at the end of a play, and the messages that it sent. -/
structure Outcome (seat : OuterSeat topology) (router : Router) (sent : Outbox) : Prop where
  ready : router.phase = .ready
  expected : router.expected = ⟨0, 0, 0⟩
  locks : router.node.journal.locks = 1
  signals : router.node.journal.readySignals = 1
  requests : router.node.journal.requests.Perm seat.requests
  announced : sent.announcements.Perm
    (seat.peers.map fun peer => ⟨peer, .outerAnnounce topology.localRank topology.localChassis⟩)

/-- Rank 0 of eight members has a seat, with its peers on the channels 11 to 14. -/
theorem exists_seat_eight : ∃ topology start, ∃ seat : OuterSeat topology,
    Topology.ofMembers (Layout.members 8) 0 .auto = .ok topology ∧
      (Router.create .cube topology).2 = .ok start ∧
        topology.localRank = 0 ∧ topology.localChassis = "p0-a" ∧ seat.peers = [1, 2, 3, 4] ∧
        seat.requests = [(0, 11), (0, 12), (0, 13), (0, 14), (4, 11), (4, 12), (4, 13), (2, 14),
          (3, 14), (7, 12), (7, 13)] := by
  obtain ⟨topology, start, hmembers, hcreate, hcube, hrank, hmates, hranks, hchassis⟩ :
      ∃ topology start, Topology.ofMembers (Layout.members 8) 0 .auto = .ok topology ∧
        (Router.create .cube topology).2 = .ok start ∧
          start.node.topology.profile = .cube ∧ start.node.topology.localRank = 0 ∧
          start.node.topology.chassisMates start.node.topology.localRank = [1, 2, 3] ∧
          start.node.topology.ranks = [0, 1, 2, 3, 4, 5, 6, 7] ∧
          start.node.topology.localChassis = "p0-a" :=
    Router.exists_created (by decide +kernel)
  have htopology : start.node.topology = topology := Router.topology_run hcreate .accepting []
  rw [htopology] at hcube hrank hmates hranks hchassis
  refine ⟨topology, start,
    { fellow := 1, first := 2, second := 3, partner := 4, across := 5, left := 6, right := 7
      channel := (· + 10)
      cube := hcube
      mates := by rw [hmates]
      members := by rw [hranks, hrank]
      distinct := by decide }, hmembers, hcreate, hrank, hchassis, rfl, ?_⟩
  simp only [requests, duties, relayed, hrank]
  rfl

/-! ## Every play ends -/

theorem Playing.length_le (h : Playing seat delivered pending router)
    (hvalid : seat.blueprint.Valid) :
    delivered.length + pending.length ≤ 23 := by
  have hlength := h.events.length_eq
  have hscript : seat.script.length = 12 := rfl
  have hrequests := h.rested.length_requests_le hvalid seat.hasMember_localRank
  have hlimit := router.forwarding.limit_le
  rw [List.length_append, agenda, List.length_append, List.length_map] at hlength
  omega

/-- As long as events are left one of them may come next: a channel event, or any other one. -/
theorem Play.exists_next (h : seat.Play start delivered pending) (hpending : pending ≠ []) :
    ∃ event left, seat.Play start (delivered ++ [event]) left := by
  by_cases hchannel : ∃ known, .channel known ∈ pending
  · obtain ⟨known, hmem⟩ := hchannel
    exact ⟨_, _, h.deliver (List.perm_cons_erase hmem) fun completed heq => absurd heq (by simp)⟩
  · obtain ⟨event, rest, rfl⟩ := List.exists_cons_of_ne_nil hpending
    exact ⟨event, _, h.deliver (List.Perm.refl _) fun _ _ known hmem =>
      absurd ⟨known, List.mem_cons_of_mem _ hmem⟩ hchannel⟩

section Start

variable {members : List Member} {localRank : Rank} {request : ProfileRequest}
  (hmembers : Topology.ofMembers members localRank request = .ok topology)
  (hcreate : (Router.create .cube topology).2 = .ok start)
include hmembers hcreate

/-- The induction is on the number of events that may still be delivered. -/
theorem Play.exists_end (h : seat.Play start delivered pending) :
    ∃ more, seat.Play start (delivered ++ more) [] := by
  have hvalid := seat.valid (Topology.fault?_of_ofMembers hmembers)
  induction hleft : 23 - delivered.length generalizing delivered pending with
  | zero =>
    have hlength := (h.playing hmembers hcreate).1.length_le hvalid
    obtain rfl : pending = [] := List.length_eq_zero_iff.1 (by omega)
    exact ⟨[], by rwa [List.append_nil]⟩
  | succ left ih =>
    by_cases hpending : pending = []
    · subst hpending
      exact ⟨[], by rwa [List.append_nil]⟩
    · obtain ⟨event, rest, hnext⟩ := h.exists_next hpending
      obtain ⟨more, hmore⟩ := ih hnext (by rw [List.length_append, List.length_singleton]; omega)
      exact ⟨event :: more, by rwa [List.append_assoc, List.singleton_append] at hmore⟩

end Start

/-! ## The end of a play -/

namespace Playing

variable (h : Playing seat delivered [] router)
include h

theorem mem_delivered {event : Event} (hmem : event ∈ seat.agenda router.node.journal.requests) :
    event ∈ delivered := by
  have hdelivered := h.events.mem_iff.2 hmem
  rwa [List.append_nil] at hdelivered

theorem bound_at_end (hpeer : peer ∈ seat.peers) :
    router.node.boundPeer? (seat.channel peer) = some peer :=
  h.boundPeer?_of_discovery (h.mem_delivered (List.mem_append_left _
    (List.mem_append_left _ (List.mem_append_left _ (List.mem_map_of_mem hpeer)))))

theorem input_at_end (hinput : (source, peer) ∈ seat.inputs) :
    (router.node.ledger.input? source).isSome = true := by
  have hknown : router.node.ledger.input? source = some (seat.channel peer) :=
    h.input.2 ⟨seat.arrival (source, peer), h.mem_delivered (List.mem_append_left _
      (List.mem_append_left _ (List.mem_append_right _ (List.mem_map_of_mem hinput)))), rfl⟩
  rw [hknown]
  rfl

theorem hears_at_end : router.forwarding.hears seat.fellow = true :=
  h.hears.2 ⟨seat.announcement, h.mem_delivered (List.mem_append_left _
    (List.mem_append_right _ (List.mem_singleton_self _))), rfl⟩

/-- The transmits of the own data were asked for and are complete. -/
theorem reaches_at_end (hpeer : peer ∈ seat.peers) : router.node.ledger.reaches peer = true := by
  have hbound := h.bound_at_end hpeer
  have hrequest := h.rested.asked.2 ⟨peer, hbound, .inl rfl⟩
  obtain ⟨other, hother, hreaches⟩ := h.reached ⟨completion (topology.localRank, seat.channel peer),
    h.mem_delivered (List.mem_append_right _ (List.mem_map_of_mem hrequest)), rfl⟩
  rwa [Option.some.inj (hbound.symm.trans hother)]

theorem exchanges_at_end (hpeer : peer ∈ seat.peers) :
    router.node.ledger.exchangesDirectly peer = true :=
  Ledger.exchangesDirectly_iff.2 ⟨h.input_at_end (List.mem_append_left _
    (List.mem_map.2 ⟨peer, hpeer, rfl⟩)), h.reaches_at_end hpeer⟩

/-- No data is missing. -/
theorem receive_at_end : router.node.progress.expected.rx = 0 := by
  have hreceive := h.rested.receive
  have hall : (seat.blueprint.topology.peers topology.localRank).countP
      (fun peer => (router.node.ledger.input? peer).isSome) =
        (seat.blueprint.topology.peers topology.localRank).length := by
    rw [List.countP_eq_length]
    intro source hsource
    obtain ⟨peer, hinput⟩ := seat.mem_sources hsource
    exact h.input_at_end hinput
  omega

variable (hvalid : seat.blueprint.Valid)
include hvalid

theorem crossPartner?_at_end : router.forwarding.crossPartner? = some seat.partner :=
  h.rested.partner.2 ⟨seat.partner?_eq hvalid, _, h.bound_at_end (seat.mem_peers_iff.2 (by simp))⟩

theorem limit_at_end : router.forwarding.limit = 11 := by
  rw [Forwarding.limit, h.rested.profile, h.crossPartner?_at_end hvalid,
    show seat.blueprint.topology.profile = .cube from seat.cube]
  rfl

theorem transmit_at_end :
    router.node.progress.expected.tx + router.node.journal.requests.length = 11 := by
  have htransmit := h.transmit
  have hcount := h.events.countP_eq (·.departure?.isSome)
  rw [List.append_nil, countP_departure] at hcount
  rw [h.limit_at_end hvalid] at htransmit
  omega

/-- All rules are due in the end. -/
theorem due_at_end (rule : RelayRule) :
    seat.blueprint.Due topology.localRank router.node.ledger router.forwarding rule := by
  have hknown := h.crossPartner?_at_end hvalid
  have hpartner : (router.node.ledger.input? seat.partner).isSome = true :=
    (Ledger.exchangesDirectly_iff.1 (h.exchanges_at_end (seat.mem_peers_iff.2 (by simp)))).1
  have hprimed : seat.blueprint.Primed topology.localRank router.node.ledger router.forwarding := by
    refine ⟨⟨_, seat.fellow?_eq hvalid, h.hears_at_end⟩, ⟨_, hknown, hpartner⟩,
      fun inner hinner => ?_⟩
    have hpeer : inner ∈ seat.peers := by
      rcases (seat.mem_inners_iff hvalid).1 hinner with rfl | rfl <;>
        exact seat.mem_peers_iff.2 (by simp)
    exact (Ledger.exchangesDirectly_iff.1 (h.exchanges_at_end hpeer)).1
  cases rule with
  | fanout =>
    refine ⟨_, hknown, h.exchanges_at_end (seat.mem_peers_iff.2 (by simp)), fun mate hmate => ?_⟩
    apply h.exchanges_at_end
    have hcases := seat.mem_mates_iff.1 hmate
    exact seat.mem_peers_iff.2 (by tauto)
  | uplink => exact hprimed
  | cross =>
    refine ⟨hprimed, _, hknown, fun inner hinner => ?_⟩
    have hpeer : (inner, seat.partner) ∈ seat.inputs := by
      rcases (seat.mem_inners_partner_iff hvalid).1 hinner with rfl | rfl <;> simp [inputs]
    exact h.input_at_end hpeer

/-- A node that is charged with all its duties asked for all of them. -/
theorem length_le_of_ran (hran : ∀ rule, router.forwarding.ran rule = true) :
    11 ≤ router.node.journal.requests.length := by
  have hsubset : seat.duties ⊆ Blueprint.sent router.node := by
    rintro ⟨source, far⟩ hduty
    obtain ⟨hpeer, hcharged⟩ := seat.charged_of_mem_duties hvalid hduty
    refine h.rested.mem_sent_iff.2 ⟨⟨_, h.bound_at_end hpeer⟩, ?_⟩
    rcases hcharged with rfl | ⟨rule, hassigned⟩
    · exact .inl rfl
    · exact .inr ⟨rule, hran rule, hassigned⟩
  have hlength := (List.subperm_of_subset seat.nodup_duties hsubset).length_le
  rwa [h.rested.length_sent] at hlength

/-- As long as the node is not locked its rules run, and after the last one nothing is missing. -/
theorem locked_at_end : router.node.progress.locked = true := by
  by_contra hunlocked
  rw [Bool.not_eq_true] at hunlocked
  have hlength := h.length_le_of_ran hvalid fun rule =>
    h.rested.due hunlocked (h.due_at_end hvalid rule)
  have htransmit := h.transmit_at_end hvalid
  have hmesh : router.node.progress.expected.meshDone = true := by
    rw [Expected.meshDone, h.receive_at_end, show router.node.progress.expected.tx = 0 by omega]
    rfl
  rw [h.rested.complete hmesh] at hunlocked
  exact absurd hunlocked (by simp)

theorem expected_at_end : router.node.progress.expected = ⟨0, 0, 0⟩ := by
  have hmesh := h.rested.locked (h.locked_at_end hvalid)
  have hnetwork := h.rested.network
  have hnone : seat.blueprint.topology.counterparts topology.localRank = [] := by
    rw [Topology.counterparts, show seat.blueprint.topology.profile = .cube from seat.cube]
  rw [hnone, List.countP_nil, List.length_nil, Nat.add_zero] at hnetwork
  simp only [Expected.meshDone, Bool.and_eq_true, beq_iff_eq] at hmesh
  cases hexpected : router.node.progress.expected
  simp_all

theorem sent_perm_at_end : (Blueprint.sent router.node).Perm seat.duties := by
  have hsubset : Blueprint.sent router.node ⊆ seat.duties := by
    rintro ⟨source, far⟩ hsent
    rcases h.rested.mem_inward_or_outward hvalid hsent with hmem | ⟨partner, hknown, hmem⟩
    · exact seat.mem_duties_of_inward hmem
    · obtain rfl := Option.some.inj ((h.crossPartner?_at_end hvalid).symm.trans hknown)
      exact seat.mem_duties_of_outward hvalid hmem
  refine (List.subperm_of_subset h.rested.nodup_sent hsubset).perm_of_length_le ?_
  have htransmit := h.transmit_at_end hvalid
  rw [h.expected_at_end hvalid, Nat.zero_add] at htransmit
  rw [h.rested.length_sent, htransmit]
  rfl

/-- The transmits that were asked for are the duties, each on the channel to its receiver. -/
theorem requests_perm_at_end : router.node.journal.requests.Perm seat.requests := by
  have hsame : (Blueprint.sent router.node).map (fun duty => (duty.1, seat.channel duty.2)) =
      router.node.journal.requests := by
    rw [Blueprint.sent, List.map_filterMap]
    refine (List.filterMap_congr ?_).trans List.filterMap_some
    rintro ⟨source, channel⟩ hmem
    obtain ⟨far, hbound, -⟩ := h.rested.asked.1 hmem
    rw [hbound, (h.of_boundPeer? hbound).2.1]
    rfl
  rw [← hsame]
  exact (h.sent_perm_at_end hvalid).map _

/-- The events of a play, once none is left: the twelve of the script and eleven completions. -/
theorem length_at_end : delivered.length = 23 := by
  have hlength := h.events.length_eq
  have hscript : seat.script.length = 12 := rfl
  have hrequests : router.node.journal.requests.length = 11 :=
    (h.requests_perm_at_end hvalid).length_eq
  rw [List.append_nil, agenda, List.length_append, List.length_map] at hlength
  omega

/-- The peers that were told in the end. -/
theorem tells_at_end : router.forwarding.tells peer = true ↔ peer ∈ seat.peers := by
  have hspeaks : router.forwarding.speaks = true := by
    rw [Forwarding.speaks, h.rested.profile, h.crossPartner?_at_end hvalid,
      show seat.blueprint.topology.profile = .cube from seat.cube]
    rfl
  rw [h.rested.tells, hspeaks, Bool.true_and]
  constructor
  · intro hreaches
    obtain ⟨channel, hbound⟩ := h.rested.reached hreaches
    exact (h.of_boundPeer? hbound).1
  · exact h.reaches_at_end

end Playing

section Start

variable {members : List Member} {localRank : Rank} {request : ProfileRequest}
  (hmembers : Topology.ofMembers members localRank request = .ok topology)
  (hcreate : (Router.create .cube topology).2 = .ok start)
include hmembers hcreate

theorem announced_at_end (h : Playing seat delivered [] (start.run .accepting delivered)) :
    (start.sent .accepting delivered).announcements.Perm
      (seat.peers.map fun peer =>
        ⟨peer, .outerAnnounce topology.localRank topology.localChassis⟩) := by
  have hvalid := seat.valid (Topology.fault?_of_ofMembers hmembers)
  obtain ⟨told, hsent, htold, -⟩ := Router.told_run hcreate .accepting delivered
  have hpeers : told.Perm seat.peers := by
    refine (List.perm_ext_iff_of_nodup htold.nodup seat.nodup_peers).2 fun peer => ?_
    rw [← htold.tells, h.tells_at_end hvalid]
  have htopology : start.node.topology = topology := Router.topology_run hcreate .accepting []
  have hannouncement : start.node.announcement =
      fun peer => ⟨peer, .outerAnnounce topology.localRank topology.localChassis⟩ := by
    funext peer
    rw [← htopology]
    rfl
  rw [hsent, hannouncement]
  exact hpeers.map _

theorem outcome_at_end (h : Playing seat delivered [] (start.run .accepting delivered)) :
    seat.Outcome (start.run .accepting delivered) (start.sent .accepting delivered) := by
  have hvalid := seat.valid (Topology.fault?_of_ofMembers hmembers)
  have hexpected := h.expected_at_end hvalid
  have hready : (start.run .accepting delivered).phase = .ready :=
    h.rested.signalled (by rw [hexpected]; rfl)
  constructor
  case ready => exact hready
  case expected => exact hexpected
  case locks => rw [h.rested.locks, h.locked_at_end hvalid, if_pos rfl]
  case signals => exact h.rested.signals.trans (if_pos hready)
  case requests => exact h.requests_perm_at_end hvalid
  case announced => exact announced_at_end hmembers hcreate h

/-- Every play of the events of an outer node has the same result. -/
theorem settles_in_any_order (seat : OuterSeat topology) (h : seat.Play start delivered pending) :
    (∀ before event after, delivered = before ++ event :: after →
      ∃ outbox, ((start.run .accepting before).handle .accepting event).2 = .ok outbox) ∧
    (start.run .accepting delivered).phase ≠ .failed ∧
    (start.run .accepting delivered).node.journal.failures = [] ∧
    (∃ more, seat.Play start (delivered ++ more) []) ∧
    (pending = [] → delivered.length = 23 ∧
      seat.Outcome (start.run .accepting delivered) (start.sent .accepting delivered)) := by
  have hvalid := seat.valid (Topology.fault?_of_ofMembers hmembers)
  obtain ⟨hplaying, hanswers⟩ := h.playing hmembers hcreate
  have hphase : (start.run .accepting delivered).phase ≠ .failed := fun hfailed =>
    Bool.false_ne_true (hplaying.rested.working.symm.trans (Progress.isFailed_iff.2 hfailed))
  refine ⟨hanswers, hphase, ?_, h.exists_end hmembers hcreate, ?_⟩
  · have hfailures := (Router.reported_run hcreate .accepting delivered).failures
    exact List.length_eq_zero_iff.1 (hfailures.trans (if_neg hphase))
  · rintro rfl
    exact ⟨hplaying.length_at_end hvalid, outcome_at_end hmembers hcreate hplaying⟩

end Start

/-- A play of rank 0 of eight members, from the first event to the end. -/
theorem settles_in_any_order_eight : ∃ topology start, ∃ seat : OuterSeat topology, ∃ delivered,
    Topology.ofMembers (Layout.members 8) 0 .auto = .ok topology ∧
      (Router.create .cube topology).2 = .ok start ∧
        seat.Play start delivered [] ∧
        delivered.length = 23 ∧
        (start.run .accepting delivered).phase = .ready ∧
        (start.run .accepting delivered).node.journal.failures = [] ∧
        (start.run .accepting delivered).node.journal.requests.Perm
          [(0, 11), (0, 12), (0, 13), (0, 14), (4, 11), (4, 12), (4, 13), (2, 14), (3, 14),
            (7, 12), (7, 13)] ∧
        (start.sent .accepting delivered).announcements.Perm
          ([1, 2, 3, 4].map fun peer => ⟨peer, .outerAnnounce 0 "p0-a"⟩) := by
  obtain ⟨topology, start, seat, hmembers, hcreate, hrank, hchassis, hpeers, hrequests⟩ :=
    exists_seat_eight
  obtain ⟨-, -, -, ⟨delivered, hplay⟩, -⟩ := settles_in_any_order hmembers hcreate seat .start
  obtain ⟨-, -, hfailures, -, hend⟩ := settles_in_any_order hmembers hcreate seat hplay
  obtain ⟨hlength, houtcome⟩ := hend rfl
  have hannounced := houtcome.announced
  rw [hrank, hchassis, hpeers] at hannounced
  exact ⟨topology, start, seat, _, hmembers, hcreate, hplay, hlength, houtcome.ready, hfailures,
    hrequests ▸ houtcome.requests, hannounced⟩

end MeshFormation.OuterSeat
