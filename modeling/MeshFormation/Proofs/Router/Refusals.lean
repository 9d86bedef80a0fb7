import MeshFormation.Proofs.Router.Conservation

/-!
# What a refused event leaves on record

An event that breaks the delivery contract fails the router. All but one kind of them are refused
before anything is written. The exception is a completed connection that the ledger can take while
none of its direction is outstanding: the ledger is written first and the count is lowered
afterwards, so the refusal comes when the connection is on record already.
-/

namespace MeshFormation

namespace Ledger

variable {ledger next : Ledger} {peer : Rank} {channel : Channel}

/-- The number of inputs and outputs that a list of transfers holds. -/
def transferCount (transfers : List (Rank × Option Channel × List Channel)) : Nat :=
  transfers.countP (·.2.1.isSome) + (transfers.map (·.2.2.length)).sum

theorem transferCount_transfers (ledger : Ledger) :
    transferCount ledger.transfers = ledger.inputCount + ledger.outputCount := by
  rw [transferCount, transfers, List.countP_map, List.map_map, inputCount, outputCount, total,
    Table.values, List.countP_map, List.map_map]
  rfl

end Ledger

namespace Node

variable {node : Node} {direction : Direction} {channel : Channel} {source peer : Rank}
  {ledger : Ledger}

/-- A connection that is recorded is one transfer more. -/
theorem transfers_ne_of_ledgerAfter
    (h : node.ledgerAfter direction channel source = .ok (peer, ledger)) :
    ledger.transfers ≠ node.ledger.transfers := by
  intro hsame
  have hcount : ledger.inputCount + ledger.outputCount =
      node.ledger.inputCount + node.ledger.outputCount := by
    rw [← Ledger.transferCount_transfers, hsame, Ledger.transferCount_transfers]
  cases direction with
  | rx =>
    obtain ⟨hinputs, houtputs⟩ := Ledger.counts_of_recordInput (ledgerAfter_rx_eq_ok h).2.2.2
    omega
  | tx =>
    obtain ⟨-, -, -, rfl⟩ := ledgerAfter_tx_eq_ok h
    split at hcount <;> simp at hcount

theorem exists_ledgerAfter_rx (hbound : node.boundPeer? channel = some peer)
    (hmember : node.topology.hasMember source = true) (hother : source ≠ node.rank)
    (hunheard : node.ledger.input? source = none) :
    ∃ ledger, node.ledgerAfter .rx channel source = .ok (peer, ledger) := by
  have hrecord : node.ledger.recordInput source channel =
      .ok (node.ledger.put source { node.ledger.entry source with input := some channel }) :=
    Ledger.recordInput_eq_ok_iff.2 ⟨hunheard, rfl⟩
  simp [ledgerAfter, hbound, hmember, hother, hrecord]

theorem exists_ledgerAfter_tx (hbound : node.boundPeer? channel = some peer)
    (hmember : node.topology.hasMember source = true) (hother : source ≠ peer) :
    ∃ ledger, node.ledgerAfter .tx channel source = .ok (peer, ledger) := by
  simp only [ledgerAfter, hbound, hmember, Bool.not_true, Bool.false_eq_true, if_false,
    if_neg hother]
  split <;> exact ⟨_, rfl⟩

end Node

/-- The ranks that announced themselves as outer nodes, ascending. -/
def Forwarding.announcers : Forwarding → List Rank
  | cube rules => rules.announcers.keys
  | _ => []

/-- All that a router has on record of its peers and its connections. -/
structure Records where
  transfers : List (Rank × Option Channel × List Channel)
  routes : List (Rank × String)
  expected : Expected
  bindings : Table Rank
  crossPartner : Option Rank
  announcers : List Rank
  liveLinks : List Rank
deriving DecidableEq

namespace Router

variable {router next start : Router} {backend : Backend} {event : Event}
  {result : Except RouterError Outbox} {rank : Rank} {violation : Violation} {profile : Profile}
  {topology : Topology}

def records (router : Router) : Records where
  transfers := router.node.ledger.transfers
  routes := router.node.ledger.routes
  expected := router.expected
  bindings := router.node.bindings
  crossPartner := router.forwarding.crossPartner?
  announcers := router.forwarding.announcers
  liveLinks := router.forwarding.liveLinks

/-- A completed connection that the ledger can take comes when none of its direction is
outstanding. -/
inductive Overfills (router : Router) : Event → Prop where
  | receive {channel : Channel} {source peer : Rank}
      (bound : router.node.boundPeer? channel = some peer)
      (member : router.node.topology.hasMember source = true) (other : source ≠ router.rank)
      (unheard : router.node.ledger.input? source = none) (done : router.expected.rx = 0) :
      Overfills router (.connection ⟨.rx, channel, source, true⟩)
  | transmit {channel : Channel} {source peer : Rank}
      (bound : router.node.boundPeer? channel = some peer)
      (member : router.node.topology.hasMember source = true) (other : source ≠ peer)
      (done : router.expected.tx = 0) :
      Overfills router (.connection ⟨.tx, channel, source, true⟩)

theorem overfills_of_surplus {direction : Direction} {channel : Channel} {source peer : Rank}
    {ledger : Ledger} {surplus : SurplusCompletion}
    (hrecorded : router.node.ledgerAfter direction channel source = .ok (peer, ledger))
    (hexhausted : router.node.progress.complete direction.counter = .error surplus) :
    router.Overfills (.connection ⟨direction, channel, source, true⟩) := by
  have hdone := (count_of_surplus hexhausted).1
  cases direction with
  | rx =>
    obtain ⟨hbound, hmember, hother, hrecord⟩ := Node.ledgerAfter_rx_eq_ok hrecorded
    exact .receive hbound hmember hother (Ledger.recordInput_eq_ok_iff.1 hrecord).1 hdone
  | tx =>
    obtain ⟨hbound, hmember, hother, -⟩ := Node.ledgerAfter_tx_eq_ok hrecorded
    exact .transmit hbound hmember hother hdone

/-- Where a connection overfills, the ledger takes it and the count refuses it. -/
theorem handle_of_overfills (hworking : router.node.isFailed = false) (h : router.Overfills event)
    (backend : Backend) : ∃ ledger surplus, ledger.transfers ≠ router.node.ledger.transfers ∧
      router.handle backend event =
        (⟨{ router.node with ledger }.fail (.protocolViolation (.surplusCompletion surplus)),
          router.forwarding⟩,
          .error (.protocolViolation router.rank (.surplusCompletion surplus))) := by
  obtain ⟨direction, channel, source, peer, ledger, rfl, hrecorded, hdone⟩ :
      ∃ direction channel source peer ledger,
        event = .connection ⟨direction, channel, source, true⟩ ∧
        router.node.ledgerAfter direction channel source = .ok (peer, ledger) ∧
        router.node.progress.expected.count direction.counter = 0 := by
    cases h with
    | receive bound member other unheard done =>
      obtain ⟨ledger, hrecorded⟩ := Node.exists_ledgerAfter_rx bound member other unheard
      exact ⟨_, _, _, _, ledger, rfl, hrecorded, done⟩
    | transmit bound member other done =>
      obtain ⟨ledger, hrecorded⟩ := Node.exists_ledgerAfter_tx bound member other
      exact ⟨_, _, _, _, ledger, rfl, hrecorded, done⟩
  have hexhausted : router.node.progress.complete direction.counter =
      .error ⟨direction.counter⟩ := by
    simp [Progress.complete, Expected.complete, hdone]
  refine ⟨ledger, ⟨direction.counter⟩, Node.transfers_ne_of_ledgerAfter hrecorded, ?_⟩
  simp [handle, hworking, connectionChanged, Node.completeConnection, hrecorded,
    hexhausted, Node.refuse, rank, Node.rank]

/-- What becomes of a router that refuses an event. It has failed, and keeps all its records but for
the transfers and the routes; and these as well, unless the event overfills. -/
structure Disregards (router : Router) (backend : Backend) (event : Event) : Prop where
  failed : (router.handle backend event).1.phase = .failed
  others : { (router.handle backend event).1.records with
    transfers := router.records.transfers
    routes := router.records.routes } = router.records
  records : (router.handle backend event).1.records = router.records ↔ ¬router.Overfills event

/-- A failure keeps all that is on record. -/
theorem records_fail (router : Router) (reason : FailureReason) :
    records { router with node := router.node.fail reason } = router.records := by
  simp [records, expected]

theorem Counted.disregards (hrouter : router.Counted topology)
    (hworking : router.node.isFailed = false)
    (hrefused : (router.handle backend event).2 = .error (.protocolViolation rank violation)) :
    router.Disregards backend event := by
  by_cases hoverfills : router.Overfills event
  · obtain ⟨ledger, surplus, htransfers, hhandle⟩ := handle_of_overfills hworking hoverfills backend
    constructor
    case failed =>
      rw [hhandle]
      exact Node.isFailed_iff.1 (Node.isFailed_fail _ _)
    case others =>
      rw [hhandle]
      simp [records, expected]
    case records =>
      refine iff_of_false (fun hrecords => htransfers ?_) (not_not.2 hoverfills)
      rw [hhandle] at hrecords
      simpa [records] using congrArg Records.transfers hrecords
  · suffices hkept : (router.handle backend event).1 =
        { router with node := router.node.fail (.protocolViolation violation) } by
      constructor
      case failed =>
        rw [hkept]
        exact Node.isFailed_iff.1 (Node.isFailed_fail _ _)
      case others => rw [hkept, records_fail]
      case records => exact iff_of_true (by rw [hkept, records_fail]) hoverfills
    have hstep := step_handle backend event hworking
    rw [hrefused] at hstep
    generalize (router.handle backend event).1 = next at hstep
    cases hstep with
    | violated => rfl
    | surplus recorded exhausted =>
      exact absurd (overfills_of_surplus recorded exhausted) hoverfills
    | surplusLink hypercube requested connected new exhausted =>
      have hcount : router.expected.network = 0 := (count_of_surplus exhausted).1
      exact absurd hcount (hrouter.outstanding hworking (by rwa [hypercube]) (by rwa [hypercube]))

/-- Whatever has happened before, an event that is refused as a violation leaves everything on
record as it was, if and only if it does not overfill; and where it does, the transfers and the
routes are all that can change. -/
theorem disregards_run (h : (create profile topology).2 = .ok start) (backend : Backend)
    (events : List Event)
    (hrefused : ((start.run backend events).handle backend event).2 =
      .error (.protocolViolation rank violation)) :
    (start.run backend events).Disregards backend event := by
  have hcounted : (start.run backend events).Counted topology :=
    run_invariant (counted_create h)
      (fun hrouter hworking hstep => hstep.counted hrouter hworking) events
  refine hcounted.disregards ?_ hrefused
  cases hfailed : (start.run backend events).node.isFailed with
  | false => rfl
  | true =>
    rw [handle_of_isFailed hfailed] at hrefused
    exact absurd hrefused (by simp)

/-- A channel to a chassis peer, and the one direct transmit on it. -/
def firstTransmit : List Event := [.channel ⟨5, 1, "p0-a", true⟩, .connection ⟨.tx, 5, 0, true⟩]

/-- In a pair a completion on a channel that was never seen is refused with all records kept. A
second transmit on the right channel overfills. -/
theorem disregards_run_pair : ∃ topology start,
    Topology.ofMembers (Layout.members 2) 0 .auto = .ok topology ∧
      (create .pair topology).2 = .ok start ∧
        (((start.run .accepting firstTransmit).handle .accepting
              (.connection ⟨.rx, 4, 1, true⟩)).2 =
            .error (.protocolViolation 0 (.undiscoveredChannel .rx 4)) ∧
          (start.run .accepting firstTransmit).Disregards .accepting
            (.connection ⟨.rx, 4, 1, true⟩) ∧
          ((start.run .accepting firstTransmit).handle .accepting
            (.connection ⟨.rx, 4, 1, true⟩)).1.records =
              (start.run .accepting firstTransmit).records) ∧
        ((start.run .accepting firstTransmit).handle .accepting (.connection ⟨.tx, 5, 0, true⟩)).2 =
            .error (.protocolViolation 0 (.surplusCompletion ⟨.tx⟩)) ∧
          (start.run .accepting firstTransmit).Disregards .accepting
            (.connection ⟨.tx, 5, 0, true⟩) := by
  obtain ⟨topology, start, hvalid, hcreate, hunknown, hunbound, hsurplus⟩ : ∃ topology start,
      Topology.ofMembers (Layout.members 2) 0 .auto = .ok topology ∧
        (create .pair topology).2 = .ok start ∧
          ((start.run .accepting firstTransmit).handle .accepting
              (.connection ⟨.rx, 4, 1, true⟩)).2 =
            .error (.protocolViolation 0 (.undiscoveredChannel .rx 4)) ∧
          (start.run .accepting firstTransmit).node.boundPeer? 4 = none ∧
          ((start.run .accepting firstTransmit).handle .accepting
              (.connection ⟨.tx, 5, 0, true⟩)).2 =
            .error (.protocolViolation 0 (.surplusCompletion ⟨.tx⟩)) :=
    exists_created (by decide +kernel)
  have hfirst := disregards_run hcreate .accepting firstTransmit hunknown
  refine ⟨topology, start, hvalid, hcreate, ⟨hunknown, hfirst, hfirst.records.2 ?_⟩, hsurplus,
    disregards_run hcreate .accepting firstTransmit hsurplus⟩
  intro hoverfills
  cases hoverfills with
  | receive bound => exact absurd (hunbound.symm.trans bound) (by simp)

/-- The transmit that comes once too often is refused, and stands in the ledger. -/
theorem not_keeps_records_pair : ∃ topology start,
    Topology.ofMembers (Layout.members 2) 0 .auto = .ok topology ∧
      (create .pair topology).2 = .ok start ∧
        ((start.run .accepting firstTransmit).handle .accepting (.connection ⟨.tx, 5, 0, true⟩)).2 =
          .error (.protocolViolation 0 (.surplusCompletion ⟨.tx⟩)) ∧
        ((start.run .accepting firstTransmit).handle .accepting
          (.connection ⟨.tx, 5, 0, true⟩)).1.records ≠
            (start.run .accepting firstTransmit).records ∧
        (start.run .accepting firstTransmit).records.transfers = [(1, none, [5])] ∧
        ((start.run .accepting firstTransmit).handle .accepting
          (.connection ⟨.tx, 5, 0, true⟩)).1.records.transfers = [(1, none, [5, 5])] :=
  exists_created (by decide +kernel)

end Router

end MeshFormation
