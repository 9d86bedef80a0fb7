import MeshFormation.FaultPlan
import MeshFormation.Proofs.Router.Announcements

/-!
# What a router tells of its relays

A router that relays the data of a node tells this node who gets it. The message is due once the
transmit is recorded and counted, and is not taken back where the rules or the lock fail afterwards.
A node of a pair has nothing to relay: there is no third node whose data it could send to the other
one.
-/

namespace MeshFormation

def ControlMessage.isForward : ControlMessage → Bool
  | forward _ _ => true
  | outerAnnounce _ _ => false

/-- Announcements do not tell of relays. -/
theorem Outbox.Announces.not_isForward {outbox : Outbox} {rank : Rank} (h : outbox.Announces rank)
    {outbound : AddressedMessage} (hmem : outbound ∈ outbox) :
    outbound.message.isForward = false := by
  obtain ⟨chassis, hmessage⟩ := h outbound hmem
  rw [hmessage]
  rfl

/-- In a pair there is one peer. -/
theorem Topology.eq_of_pair {members : List Member} {localRank first second : Rank}
    {request : ProfileRequest} {topology : Topology}
    (h : ofMembers members localRank request = .ok topology) (hprofile : topology.profile = .pair)
    (hfirst : first ∈ topology.others) (hsecond : second ∈ topology.others) : first = second := by
  have hsingle : topology.partitionCount = 1 := by rw [partitionCount, hprofile]
  have hlength : topology.others.length = 1 := by
    rw [← peers_eq_others h hsingle, length_peers h (hasMember_localRank h), receiveCount, hprofile]
  obtain ⟨only, honly⟩ := List.length_eq_one_iff.1 hlength
  rw [honly, List.mem_singleton] at hfirst hsecond
  rw [hfirst, hsecond]

namespace Router

variable {router next start : Router} {backend : Backend} {event : Event} {channel : Channel}
  {source receiver : Rank} {result : Except RouterError Outbox} {profile : Profile}
  {topology : Topology}

/-! ## One event -/

/-- An event completes a relay: the data of another member now goes to the peer on a channel, which
is not its source. -/
inductive Hands (router : Router) : Event → Rank → Rank → Prop where
  | transmit {channel : Channel} {source receiver : Rank}
      (bound : router.node.boundPeer? channel = some receiver)
      (member : router.node.topology.hasMember source = true) (other : source ≠ router.rank)
      (away : source ≠ receiver) :
      Hands router (.connection ⟨.tx, channel, source, true⟩) source receiver

/-- An event makes a router tell of a relay that it completes, and of nothing else, or it makes it
tell of no relay at all. -/
theorem Step.tells (h : router.Step backend event next result) :
    (∀ outbound ∈ outboxOf result, outbound.message.isForward = false) ∨
      ∃ source receiver, router.Hands event source receiver ∧
        result = .ok [⟨source, .forward router.rank receiver⟩] := by
  have hnothing : ∀ outbound ∈ ([] : Outbox), outbound.message.isForward = false :=
    fun _ hmem => absurd hmem List.not_mem_nil
  cases h with
  | unheard | unlinked | violated | surplus | surplusLink => exact .inl hnothing
  | repeated | free | live | rejected | unestablished | lost | broken | linked =>
    exact .inl hnothing
  | bound admits accepted =>
    exact .inl fun outbound => (router.forwarding.announces_channelBound _ _).not_isForward
  | absorbed absorbs =>
    cases absorbs with
    | receive | forward | announce => exact .inl hnothing
    | @transmit channel source bound ledger progress _ _ recorded counted informed =>
      unfold transmitCompleted at informed
      split at informed
      · obtain ⟨-, rfl⟩ := Prod.mk.inj informed
        exact .inl fun outbound => (router.forwarding.announces_transmitDone _ _).not_isForward
      · rename_i hother
        obtain ⟨-, rfl⟩ := Prod.mk.inj informed
        obtain ⟨hbound, hmember, haway, -⟩ := Node.ledgerAfter_tx_eq_ok recorded
        exact .inr ⟨source, bound, .transmit hbound hmember hother haway, rfl⟩

/-- A completed transmit of the data of another node is answered by an error or told of. -/
theorem Step.tells_of_ok {outbox : Outbox} (hother : source ≠ router.rank)
    (h : router.Step backend (.connection ⟨.tx, channel, source, true⟩) next (.ok outbox)) :
    ∃ receiver, outbox = [⟨source, .forward router.rank receiver⟩] := by
  cases h with
  | broken breaks =>
    cases breaks with
    | connection lost => exact absurd lost (by simp)
  | absorbed absorbs =>
    cases absorbs with
    | transmit recorded counted informed =>
      rw [transmitCompleted, if_neg (by exact hother)] at informed
      exact ⟨_, (Prod.mk.inj informed).2.symm⟩

theorem Step.nothing_of_pair (h : router.Step backend event next result)
    (hpair : router.forwarding = .pair)
    (hnobody : ∀ {source receiver}, ¬router.Hands event source receiver) :
    outboxOf result = [] := by
  cases h with
  | unheard | unlinked | violated | surplus | surplusLink => rfl
  | repeated | free | live | rejected | unestablished | lost | broken | linked => rfl
  | bound admits accepted =>
    rw [hpair]
    rfl
  | absorbed absorbs =>
    cases absorbs with
    | receive | forward | announce => rfl
    | transmit recorded counted informed =>
      unfold transmitCompleted at informed
      split at informed
      · obtain ⟨-, rfl⟩ := Prod.mk.inj informed
        dsimp only
        rw [hpair]
        rfl
      · rename_i hother
        obtain ⟨hbound, hmember, haway, -⟩ := Node.ledgerAfter_tx_eq_ok recorded
        exact absurd (.transmit hbound hmember hother haway) hnobody

/-- What a router tells of its relays in the answer to one event. -/
structure AccountsForRelays (router : Router) (backend : Backend) (event : Event) : Prop where
  tells : (∃ outbound ∈ outboxOf (router.handle backend event).2,
      outbound.message.isForward = true) ↔
    ∃ channel source, event = .connection ⟨.tx, channel, source, true⟩ ∧ router.phase ≠ .failed ∧
      source ≠ router.rank ∧ (router.handle backend event).2.isOk = true
  names : ∀ outbound ∈ outboxOf (router.handle backend event).2, outbound.message.isForward = true →
    ∃ channel receiver, event = .connection ⟨.tx, channel, outbound.receiver, true⟩ ∧
      router.node.boundPeer? channel = some receiver ∧
        outbound.message = .forward router.rank receiver ∧
          router.node.topology.hasMember outbound.receiver = true ∧
            outbound.receiver ≠ router.rank ∧ outbound.receiver ≠ receiver ∧
              outboxOf (router.handle backend event).2 = [outbound]
  recorded : ∀ channel source receiver, event = .connection ⟨.tx, channel, source, true⟩ →
    router.phase ≠ .failed → source ≠ router.rank →
      (router.node.completeConnection .tx channel source).2 = .ok receiver →
        (router.handle backend event).2 = .ok [⟨source, .forward router.rank receiver⟩]

/-- What was recorded is told of, whatever comes after. -/
theorem handle_of_recorded (hworking : router.node.isFailed = false) (hother : source ≠ router.rank)
    (hrecorded : (router.node.completeConnection .tx channel source).2 = .ok receiver) :
    (router.handle backend (.connection ⟨.tx, channel, source, true⟩)).2 =
      .ok [⟨source, .forward router.rank receiver⟩] := by
  rcases completeConnection_cases router.node .tx channel source with ⟨violation, heq⟩ |
    ⟨bound, ledger, -, ⟨violation, heq⟩ | ⟨progress, -, heq⟩⟩
  · rw [heq] at hrecorded
    exact absurd hrecorded (by simp [Node.refuse])
  · rw [heq] at hrecorded
    exact absurd hrecorded (by simp [Node.refuse])
  · rw [heq] at hrecorded
    obtain rfl := Except.ok.inj hrecorded
    have hrank : ({ router with node := { router.node with ledger, progress } } : Router).rank =
        router.rank := rfl
    simp only [handle, hworking, connectionChanged, heq, transmitCompleted, hrank, if_neg hother,
      Bool.false_eq_true, Bool.not_true, if_false]

theorem accountsForRelays_handle (router : Router) (backend : Backend) (event : Event) :
    router.AccountsForRelays backend event := by
  cases hworking : router.node.isFailed with
  | true =>
    have hphase : router.phase = .failed := Node.isFailed_iff.1 hworking
    have hanswer := handle_of_isFailed hworking backend event
    constructor
    case tells =>
      rw [hanswer]
      simp [outboxOf, hphase]
    case names =>
      rw [hanswer]
      exact fun _ hmem => absurd hmem List.not_mem_nil
    case recorded => exact fun _ _ _ _ hnot => absurd hphase hnot
  | false =>
    have hphase := phase_of_working hworking
    have hstep := step_handle backend event hworking
    constructor
    case names =>
      intro outbound hmem hforward
      rcases hstep.tells with hquiet | ⟨source, receiver, hhands, hanswer⟩
      · exact absurd ((hquiet outbound hmem).symm.trans hforward) (by simp)
      · rw [hanswer, outboxOf] at hmem ⊢
        obtain rfl := List.mem_singleton.1 hmem
        cases hhands with
        | @transmit channel _ _ bound member other away =>
          exact ⟨channel, receiver, rfl, bound, rfl, member, other, away, rfl⟩
    case tells =>
      constructor
      · rintro ⟨outbound, hmem, hforward⟩
        rcases hstep.tells with hquiet | ⟨source, receiver, hhands, hanswer⟩
        · exact absurd ((hquiet outbound hmem).symm.trans hforward) (by simp)
        · rw [hanswer]
          cases hhands with
          | @transmit channel _ _ bound member other away =>
            exact ⟨channel, source, rfl, hphase, other, rfl⟩
      · rintro ⟨channel, source, rfl, -, hother, hok⟩
        cases hanswer : (router.handle backend (.connection ⟨.tx, channel, source, true⟩)).2 with
        | error error =>
          rw [hanswer] at hok
          exact absurd hok (by simp [Except.isOk, Except.toBool])
        | ok outbox =>
          rw [hanswer] at hstep
          obtain ⟨receiver, rfl⟩ := hstep.tells_of_ok hother
          exact ⟨_, List.mem_singleton_self _, rfl⟩
    case recorded =>
      rintro channel source receiver rfl - hother hrecorded
      exact handle_of_recorded hworking hother hrecorded

/-! ## Runs -/

/-- A router of a pair relays nothing, for the only other member is the peer itself. -/
theorem not_hands_of_pair {members : List Member} {localRank : Rank} {request : ProfileRequest}
    (htopology : Topology.ofMembers members localRank request = .ok topology)
    (h : (create .pair topology).2 = .ok start) (events : List Event) :
    ¬(start.run backend events).Hands event source receiver := by
  rintro ⟨bound, member, other, away⟩
  have hpeer := (attached_run h backend events).apart.peer bound
  have hfixed := topology_run h backend events
  rw [rank, Node.rank, hfixed] at other
  rw [Node.rank, hfixed] at hpeer
  rw [hfixed] at member
  obtain ⟨hne, hknown, -⟩ := Topology.mem_peers_iff.1 hpeer
  exact away (Topology.eq_of_pair htopology (profile_of_create h)
    (Topology.mem_others_iff.2 ⟨member, other⟩) (Topology.mem_others_iff.2 ⟨hknown, hne⟩))

theorem sent_of_pair {members : List Member} {localRank : Rank} {request : ProfileRequest}
    (htopology : Topology.ofMembers members localRank request = .ok topology)
    (h : (create .pair topology).2 = .ok start) (backend : Backend) (events : List Event) :
    start.sent backend events = [] := by
  induction events using List.reverseRecOn with
  | nil => rfl
  | append_singleton before event ih =>
    rw [sent_concat, ih, List.nil_append]
    cases hworking : (start.run backend before).node.isFailed with
    | true => rw [handle_of_isFailed hworking, outboxOf]
    | false =>
      apply (step_handle backend event hworking).nothing_of_pair
      · exact Forwarding.eq_pair (profile_run h backend before)
      · exact not_hands_of_pair htopology h before

/-- In every state of every run a router tells of the relays that it completes, and of no others. A
router of a pair sends nothing at all. -/
theorem accountsForRelays_run {members : List Member} {localRank : Rank} {request : ProfileRequest}
    (htopology : Topology.ofMembers members localRank request = .ok topology)
    (h : (create profile topology).2 = .ok start) (backend : Backend) (events : List Event) :
    (∀ event, (start.run backend events).AccountsForRelays backend event) ∧
      (profile = .pair → start.sent backend events = []) := by
  refine ⟨accountsForRelays_handle _ backend, ?_⟩
  rintro rfl
  exact sent_of_pair htopology h backend events

/-- In a hypercube the outer node hears the three peers behind its mates, and relays rank 4 to two
of the mates. -/
def relayTurns : List Event :=
  outerExchange ++ [.connection ⟨.rx, 1, 5, true⟩, .connection ⟨.rx, 2, 6, true⟩,
    .connection ⟨.rx, 3, 7, true⟩, .connection ⟨.tx, 1, 4, true⟩, .connection ⟨.tx, 2, 4, true⟩]

/-- The last relay completes the mesh. The backend then refuses the lock, and rank 4 is told all the
same. A pair tells nobody of anything. -/
theorem accountsForRelays_run_eight :
    (∃ topology start,
      Topology.ofMembers (Layout.members 8) 0 (.exact .hypercube) = .ok topology ∧
        (create .hypercube topology).2 = .ok start ∧
          (start.run (FaultPlan.empty.refuseAll "lock").backend relayTurns).phase = .forming ∧
          (start.run (FaultPlan.empty.refuseAll "lock").backend
            (relayTurns ++ [.connection ⟨.tx, 3, 4, true⟩])).phase = .failed ∧
          ((start.run (FaultPlan.empty.refuseAll "lock").backend relayTurns).handle
              (FaultPlan.empty.refuseAll "lock").backend (.connection ⟨.tx, 3, 4, true⟩)).2 =
            .ok [⟨4, .forward 0 3⟩] ∧
          ∀ event,
            (start.run (FaultPlan.empty.refuseAll "lock").backend relayTurns).AccountsForRelays
              (FaultPlan.empty.refuseAll "lock").backend event) ∧
      ∃ topology start, Topology.ofMembers (Layout.members 2) 0 .auto = .ok topology ∧
        (create .pair topology).2 = .ok start ∧ start.phase = .forming ∧
          ∀ events, start.sent .accepting events = [] := by
  constructor
  · obtain ⟨topology, start, hvalid, hcreate, hforming, hfailed, hanswer⟩ : ∃ topology start,
        Topology.ofMembers (Layout.members 8) 0 (.exact .hypercube) = .ok topology ∧
          (create .hypercube topology).2 = .ok start ∧
            (start.run (FaultPlan.empty.refuseAll "lock").backend relayTurns).phase = .forming ∧
            (start.run (FaultPlan.empty.refuseAll "lock").backend
              (relayTurns ++ [.connection ⟨.tx, 3, 4, true⟩])).phase = .failed ∧
            ((start.run (FaultPlan.empty.refuseAll "lock").backend relayTurns).handle
                (FaultPlan.empty.refuseAll "lock").backend (.connection ⟨.tx, 3, 4, true⟩)).2 =
              .ok [⟨4, .forward 0 3⟩] := exists_created (by decide +kernel)
    exact ⟨topology, start, hvalid, hcreate, hforming, hfailed, hanswer,
      (accountsForRelays_run hvalid hcreate _ _).1⟩
  · obtain ⟨topology, start, hvalid, hcreate, hforming⟩ : ∃ topology start,
        Topology.ofMembers (Layout.members 2) 0 .auto = .ok topology ∧
          (create .pair topology).2 = .ok start ∧ start.phase = .forming :=
      exists_created (by decide +kernel)
    exact ⟨topology, start, hvalid, hcreate, hforming,
      fun events => (accountsForRelays_run hvalid hcreate .accepting events).2 rfl⟩

end Router

end MeshFormation
