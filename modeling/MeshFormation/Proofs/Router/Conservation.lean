import MeshFormation.Layout
import MeshFormation.Proofs.Forwarding.Partner
import MeshFormation.Proofs.Ledger.Totals
import MeshFormation.Proofs.Router.Readiness
import MeshFormation.Proofs.Router.Writes

/-!
# What is recorded and what is outstanding

A node records a connection in its ledger and counts it down in its progress, and it keeps a network
link among the live ones and counts it down as well. As both happen in one event, what is recorded
and what is outstanding add up to what was expected from the start, and in a cube to eight transmits
more once the node knows its partner. No count is therefore lowered at zero.
-/

namespace MeshFormation

namespace Expected

variable {expected next : Expected} {counter : Counter}

/-- What an event may do to the counts: nothing, lower one that is not at zero, or raise the
transmits by those of an outer node. -/
inductive Moves (expected : Expected) : Expected → Prop where
  | still : Moves expected expected
  | lowered {next : Expected} {counter : Counter}
      (count : expected.count counter = next.count counter + 1)
      (others : ∀ other ≠ counter, next.count other = expected.count other) : Moves expected next
  | raised : Moves expected { expected with tx := expected.tx + outerExtraTx }

theorem moves_of_complete (h : expected.complete counter = .ok next) : expected.Moves next := by
  apply Moves.lowered
  · simpa using count_of_complete h counter
  · intro other hother
    simpa [hother] using (count_of_complete h other).symm

/-- A raise of a small count does not overflow. -/
theorem raiseTransmits_eq (h : expected.tx ≤ partitionSize) :
    expected.raiseTransmits outerExtraTx = { expected with tx := expected.tx + outerExtraTx } := by
  rw [partitionSize] at h
  rw [raiseTransmits, outerExtraTx, UInt64.size, Nat.mod_eq_of_lt (by omega)]

end Expected

namespace Forwarding

variable {forwarding next : Forwarding}

/-- The transmits that a node expects on top of those that are known from the start. -/
def extraTransmits : Forwarding → Nat
  | cube rules => if rules.role.isOuter then outerExtraTx else 0
  | _ => 0

theorem extraTransmits_eq (forwarding : Forwarding) : forwarding.extraTransmits =
    if forwarding.profile = .cube ∧ forwarding.crossPartner?.isSome then outerExtraTx else 0 := by
  cases forwarding with
  | pair => rfl
  | hypercube rules => rfl
  | cube rules =>
    simp only [extraTransmits, profile, crossPartner?, true_and]
    cases rules.role <;> rfl

theorem extraTransmits_of_undetermined {rules : CubeForwarding} (h : rules.role = .undetermined) :
    (cube rules).extraTransmits = 0 := by
  simp [extraTransmits, h, Role.isOuter]

theorem KeepsLinks.extraTransmits (h : forwarding.KeepsLinks next) :
    next.extraTransmits = forwarding.extraTransmits := by
  rw [extraTransmits_eq, extraTransmits_eq, h.profile, h.partner]

/-- A node that has seen no event wants all its links, has none and expects no more than from the
start. -/
theorem Fresh.links {topology : Topology} (h : forwarding.Fresh topology) :
    forwarding.requestedLinks.keys = topology.counterparts topology.localRank ∧
      forwarding.links = ∅ ∧ forwarding.extraTransmits = 0 := by
  cases h with
  | pair profile =>
    refine ⟨?_, rfl, rfl⟩
    rw [Topology.counterparts, profile]
    rfl
  | cube profile =>
    refine ⟨?_, rfl, rfl⟩
    rw [Topology.counterparts, profile]
    rfl
  | hypercube profile links => exact ⟨links, rfl, rfl⟩

theorem liveLinks_eq (forwarding : Forwarding) : forwarding.liveLinks = forwarding.links.keys := by
  cases forwarding <;> rfl

end Forwarding

namespace Router

variable {router middle next start : Router} {backend : Backend} {event : Event} {outbox : Outbox}
  {result : Except RouterError Outbox} {profile : Profile} {topology : Topology}

/-- What is recorded and what is outstanding add up to what is expected. -/
structure Conserved (router : Router) (topology : Topology) : Prop where
  inputs : router.node.ledger.inputCount + router.expected.rx = topology.receiveCount
  outputs : router.node.ledger.outputCount + router.expected.tx =
    topology.transmitCount + router.forwarding.extraTransmits
  links : router.forwarding.liveLinks.length + router.expected.network =
    (topology.counterparts topology.localRank).length

/-- A router that wants links to its partition partners only, and whose counts are right while it
works. -/
structure Counted (router : Router) (topology : Topology) : Prop where
  requested : router.forwarding.requestedLinks.keys = topology.counterparts topology.localRank
  live : ∀ {peer}, router.forwarding.links.contains peer = true →
    router.forwarding.requestedLinks.contains peer = true
  conserved : router.node.isFailed = false → router.Conserved topology

theorem transmitCount_le (topology : Topology) : topology.transmitCount ≤ partitionSize := by
  unfold Topology.transmitCount
  split <;> decide

/-! ## One event -/

/-- Counting a completion moves one from what is outstanding to what is done. -/
theorem counts_of_complete {progress next : Progress} {counter : Counter}
    (h : progress.complete counter = .ok next) (other : Counter) :
    progress.expected.count other =
      next.expected.count other + if other = counter then 1 else 0 := by
  obtain ⟨expected, hexpected, rfl⟩ := Progress.exists_expected_of_complete h
  exact Expected.count_of_complete hexpected other

theorem count_of_surplus {progress : Progress} {counter : Counter} {surplus : SurplusCompletion}
    (h : progress.complete counter = .error surplus) :
    progress.expected.count counter = 0 ∧ surplus = ⟨counter⟩ := by
  unfold Progress.complete at h
  split at h
  · rename_i other hother
    rw [← Except.error.inj h]
    exact Expected.complete_eq_error_iff.1 hother
  · exact absurd h (by simp)

/-- What is taken in is recorded and counted alike. -/
theorem Absorbs.balance (h : router.Absorbs event middle outbox) :
    middle.node.ledger.inputCount + middle.expected.rx =
        router.node.ledger.inputCount + router.expected.rx ∧
      middle.node.ledger.outputCount + middle.expected.tx =
        router.node.ledger.outputCount + router.expected.tx ∧
      middle.expected.network = router.expected.network := by
  suffices hsum : middle.node.ledger.inputCount + middle.expected.count .rx =
        router.node.ledger.inputCount + router.expected.count .rx ∧
      middle.node.ledger.outputCount + middle.expected.count .tx =
        router.node.ledger.outputCount + router.expected.count .tx ∧
      middle.expected.count .network = router.expected.count .network from hsum
  cases h with
  | @receive channel source bound ledger progress recorded counted =>
    obtain ⟨-, -, -, hrecord⟩ := Node.ledgerAfter_rx_eq_ok recorded
    obtain ⟨hinput, houtput⟩ := Ledger.counts_of_recordInput hrecord
    have hcount := counts_of_complete counted
    simp only [expected, hinput, houtput, hcount]
    simp
    omega
  | @transmit channel source bound ledger progress next outbox recorded counted informed =>
    obtain ⟨-, -, -, rfl⟩ := Node.ledgerAfter_tx_eq_ok recorded
    have hcount := counts_of_complete counted
    simp only [expected, (of_transmitCompleted informed).1, hcount]
    split <;> simp <;> omega
  | forward => simp [expected]
  | announce => exact ⟨rfl, rfl, rfl⟩

theorem Absorbs.conserved (h : router.Absorbs event middle outbox)
    (hrouter : router.Conserved topology) :
    middle.Conserved topology := by
  have hextra := h.keepsLinks.extraTransmits
  have hlive : middle.forwarding.liveLinks = router.forwarding.liveLinks := by
    rw [Forwarding.liveLinks_eq, Forwarding.liveLinks_eq, h.keepsLinks.links]
  obtain ⟨hinputs, houtputs, hlinks⟩ := hrouter
  obtain ⟨hrx, htx, hnetwork⟩ := h.balance
  constructor
  case inputs => exact hrx.trans hinputs
  case outputs => rw [hextra]; exact htx.trans houtputs
  case links =>
    rw [hlive, hnetwork]
    exact hlinks

theorem Conserved.congr (h : router.Conserved topology)
    (hinputs : next.node.ledger.inputCount = router.node.ledger.inputCount)
    (houtputs : next.node.ledger.outputCount = router.node.ledger.outputCount)
    (hexpected : next.expected = router.expected)
    (hforwarding : router.forwarding.KeepsLinks next.forwarding) : next.Conserved topology := by
  constructor
  case inputs => rw [hinputs, hexpected, h.inputs]
  case outputs => rw [houtputs, hexpected, h.outputs, hforwarding.extraTransmits]
  case links =>
    rw [Forwarding.liveLinks_eq, hforwarding.links, ← Forwarding.liveLinks_eq, hexpected, h.links]

theorem Counted.of_keepsLinks (h : router.Counted topology)
    (hforwarding : router.forwarding.KeepsLinks next.forwarding)
    (hconserved : next.node.isFailed = false → next.Conserved topology) :
    next.Counted topology := by
  constructor
  case requested => rw [hforwarding.requested, h.requested]
  case live =>
    intro peer hpeer
    rw [hforwarding.links] at hpeer
    rw [hforwarding.requested]
    exact h.live hpeer
  case conserved => exact hconserved

/-- A channel is bound before anything is recorded of it. -/
theorem Conserved.bound {channel : Channel} {peer : Rank} {node : Node} {kind : Call → Prop}
    {accepted : Bool} (h : router.Conserved topology)
    (hcalls : (router.node.bind channel peer).Calls kind (node, accepted)) :
    Conserved ⟨node, router.forwarding⟩ topology := by
  apply h.congr
  · rw [hcalls.ledger]
    exact Ledger.inputCount_track _ _
  · rw [hcalls.ledger]
    exact Ledger.outputCount_track _ _
  · exact hcalls.expected
  · exact .refl _

/-- Before a cube node knows its partner, it expects no more transmits than from the start. -/
theorem Conserved.tx_le {rules : CubeForwarding} (h : router.Conserved topology)
    (hprofile : router.forwarding = .cube rules) (hrole : rules.role = .undetermined) :
    router.expected.tx ≤ partitionSize := by
  have houtputs := h.outputs
  rw [hprofile, Forwarding.extraTransmits_of_undetermined hrole] at houtputs
  exact (Nat.le_add_left _ _).trans (houtputs.trans_le (transmitCount_le topology))

/-- A channel to the partner of a cube node raises what is expected and what was expected alike. -/
theorem Conserved.joins {forwarding after : Forwarding} {node last : Node} {known : ChannelEvent}
    (h : Conserved ⟨node, forwarding⟩ topology) (hjoins : forwarding.Joins node known after last) :
    Conserved ⟨last, after⟩ topology := by
  cases hjoins with
  | inside => exact h
  | pair profile =>
    subst profile
    exact h
  | hypercube profile =>
    subst profile
    exact ⟨h.inputs, h.outputs, h.links⟩
  | @cube rules informed profile across undetermined =>
    subst profile
    have hsmall := h.tx_le rfl undetermined
    obtain ⟨hinputs, houtputs, hlinks⟩ := h
    rw [Forwarding.extraTransmits_of_undetermined undetermined] at houtputs
    have hraised : (node.raiseTransmits outerExtraTx).progress.expected =
        { node.progress.expected with tx := node.progress.expected.tx + outerExtraTx } :=
      Expected.raiseTransmits_eq hsmall
    constructor
    case inputs =>
      rw [expected, hraised]
      exact hinputs
    case outputs =>
      rw [expected, hraised, ← Nat.add_assoc]
      exact congrArg (· + outerExtraTx) houtputs
    case links =>
      rw [expected, hraised]
      exact hlinks

/-- A link that comes up becomes live and is counted down. -/
theorem Conserved.linked {rules : HypercubeForwarding} {peer : Rank} {progress : Progress}
    (h : router.Conserved topology) (hypercube : router.forwarding = .hypercube rules)
    (hnew : rules.liveLinks.contains peer = false)
    (hcounted : router.node.progress.complete .network = .ok progress) :
    Conserved ⟨Node.signalReadiness { router.node with progress },
      .hypercube { rules with liveLinks := rules.liveLinks.add peer }⟩ topology := by
  obtain ⟨hinputs, houtputs, hlinks⟩ := h
  have hcount := counts_of_complete hcounted
  have hledger : (Node.signalReadiness { router.node with progress }).ledger = router.node.ledger :=
    (Node.advances_signalReadiness _).ledger
  have hexpected : (Node.signalReadiness { router.node with progress }).progress.expected =
      progress.expected := (Node.signals_signalReadiness _).expected
  rw [hypercube] at houtputs hlinks
  constructor
  case inputs =>
    rw [expected, hledger, hexpected]
    exact (congrArg _ (hcount .rx).symm).trans hinputs
  case outputs =>
    rw [expected, hledger, hexpected]
    exact (congrArg _ (hcount .tx).symm).trans houtputs
  case links =>
    have hsize : (rules.liveLinks.add peer).size = rules.liveLinks.size + 1 := by
      rw [KeySet.add, Table.size_insert, if_neg (by simp [hnew])]
    have hnetwork : router.expected.network = progress.expected.network + 1 := hcount .network
    simp only [Forwarding.liveLinks, Table.length_keys, hsize] at hlinks ⊢
    rw [expected, hexpected]
    omega

/-- While a wanted link is not live, a link is outstanding. -/
theorem Counted.outstanding {peer : Rank} (h : router.Counted topology)
    (hworking : router.node.isFailed = false)
    (hrequested : router.forwarding.requestedLinks.contains peer = true)
    (hnew : router.forwarding.links.contains peer = false) : router.expected.network ≠ 0 := by
  have hpeer : peer ∉ router.forwarding.links.keys := by
    rw [Table.mem_keys_iff, hnew]
    exact Bool.false_ne_true
  have hnodup : (peer :: router.forwarding.links.keys).Nodup :=
    List.nodup_cons.2 ⟨hpeer, (Table.pairwise_keys _).imp UInt32.ne_of_lt⟩
  have hsubset : peer :: router.forwarding.links.keys ⊆ router.forwarding.requestedLinks.keys := by
    intro other hother
    rw [Table.mem_keys_iff]
    rcases List.mem_cons.1 hother with rfl | hother
    · exact hrequested
    · exact h.live (Table.mem_keys_iff.1 hother)
  have hlength := (List.subperm_of_subset hnodup hsubset).length_le
  have hlinks := (h.conserved hworking).links
  rw [Forwarding.liveLinks_eq] at hlinks
  rw [h.requested, List.length_cons] at hlength
  omega

theorem Step.counted (hrouter : router.Counted topology) (hworking : router.node.isFailed = false)
    (h : router.Step backend event next result) : next.Counted topology := by
  have hconserved := hrouter.conserved hworking
  have hfails : ∀ {node : Node} {reason : FailureReason},
      Counted ⟨node.fail reason, router.forwarding⟩ topology :=
    hrouter.of_keepsLinks (.refl _) fun hfailed => absurd hfailed (by simp)
  cases h with
  | unheard | unlinked | repeated | free | live => exact hrouter
  | lost | broken | violated | surplus => exact hfails
  | @rejected known =>
    obtain ⟨accepted, hcalls⟩ := router.node.calls_refuseChannel backend known.channel
    refine hrouter.of_keepsLinks (.refl _) fun _ => ?_
    exact hconserved.congr (congrArg _ hcalls.ledger) (congrArg _ hcalls.ledger) hcalls.expected
      (.refl _)
  | @unestablished known node admits refused =>
    cases Node.calls_of_establish refused with
    | refused calls => exact hfails
  | @bound known node admits accepted =>
    have hbound := hconserved.bound (Node.calls_of_establish accepted)
    have hjoins := admits.joins accepted
    obtain ⟨hrequested, hlinks⟩ := hjoins.links
    constructor
    case requested => rw [hrequested, hrouter.requested]
    case live =>
      intro peer hpeer
      rw [hlinks] at hpeer
      rw [hrequested]
      exact hrouter.live hpeer
    case conserved => exact fun _ => hbound.joins hjoins
  | @surplusLink changed rules surplus hypercube requested connected new exhausted =>
    have hcount : router.expected.network = 0 := (count_of_surplus exhausted).1
    exact absurd hcount (hrouter.outstanding hworking (by rwa [hypercube]) (by rwa [hypercube]))
  | @linked changed rules progress hypercube requested connected new counted =>
    have hrequested : router.forwarding.requestedLinks = rules.requestedLinks := by
      rw [hypercube]
      rfl
    have hlinks : router.forwarding.links = rules.liveLinks := by
      rw [hypercube]
      rfl
    constructor
    case requested => exact hrequested ▸ hrouter.requested
    case live =>
      intro peer hpeer
      have hcases : peer = changed.peer ∨ rules.liveLinks.contains peer = true := by
        simpa [Forwarding.links] using hpeer
      rcases hcases with rfl | hknown
      · exact requested
      · exact hrequested ▸ hrouter.live (hlinks ▸ hknown)
    case conserved => exact fun _ => hconserved.linked hypercube new counted
  | @absorbed event middle outbox absorbs =>
    have hkeeps := absorbs.keepsLinks.trans (keepsLinks_proceed middle backend)
    have hadvances := advances_proceed middle backend
    refine hrouter.of_keepsLinks hkeeps fun _ => ?_
    exact (absorbs.conserved hconserved).congr (congrArg _ hadvances.ledger)
      (congrArg _ hadvances.ledger) (expected_proceed middle backend)
      (keepsLinks_proceed middle backend)

theorem Absorbs.moves (h : router.Absorbs event middle outbox) :
    router.expected.Moves middle.expected := by
  cases h with
  | receive recorded counted =>
    obtain ⟨lower, hlower, rfl⟩ := Progress.exists_expected_of_complete counted
    exact Expected.moves_of_complete hlower
  | transmit recorded counted informed =>
    obtain ⟨lower, hlower, rfl⟩ := Progress.exists_expected_of_complete counted
    rw [expected, expected, (of_transmitCompleted informed).1]
    exact Expected.moves_of_complete hlower
  | forward | announce => exact .still

theorem moves_of_joins {forwarding after : Forwarding} {node last : Node} {known : ChannelEvent}
    (h : Conserved ⟨node, forwarding⟩ topology) (hjoins : forwarding.Joins node known after last) :
    node.progress.expected.Moves last.progress.expected := by
  cases hjoins with
  | pair | inside | hypercube => exact .still
  | cube profile across undetermined =>
    have hraised : (node.raiseTransmits outerExtraTx).progress.expected =
        { node.progress.expected with tx := node.progress.expected.tx + outerExtraTx } :=
      Expected.raiseTransmits_eq (h.tx_le profile undetermined)
    rw [hraised]
    exact .raised

theorem Step.moves (hrouter : router.Counted topology) (hworking : router.node.isFailed = false)
    (h : router.Step backend event next result) : router.expected.Moves next.expected := by
  have hstill : ∀ {other : Router}, other.expected = router.expected →
      router.expected.Moves other.expected := fun hexpected => hexpected ▸ .still
  cases h with
  | unheard | unlinked | repeated | free | live => exact .still
  | lost | broken | violated | surplus | surplusLink => exact hstill (Node.expected_fail _ _)
  | @rejected known =>
    obtain ⟨accepted, hcalls⟩ := router.node.calls_refuseChannel backend known.channel
    exact hstill hcalls.expected
  | unestablished admits refused => exact hstill (Node.calls_of_establish refused).expected
  | @bound known node admits accepted =>
    have hcalls := Node.calls_of_establish accepted
    have hmoves := moves_of_joins (hrouter.conserved hworking |>.bound hcalls)
      (admits.joins accepted)
    rw [hcalls.expected] at hmoves
    exact hmoves
  | linked hypercube requested connected new counted =>
    obtain ⟨lower, hlower, rfl⟩ := Progress.exists_expected_of_complete counted
    rw [expected, expected, (Node.signals_signalReadiness _).expected]
    exact Expected.moves_of_complete hlower
  | @absorbed event middle outbox absorbs =>
    rw [expected_proceed]
    exact absorbs.moves

/-- A link that comes up never finds its count at zero. -/
theorem Step.ne_surplusLink (hrouter : router.Counted topology)
    (hworking : router.node.isFailed = false)
    (h : router.Step backend event next result) (rank : Rank) :
    result ≠ .error (.protocolViolation rank (.surplusCompletion ⟨.network⟩)) := by
  cases h with
  | unheard | unlinked | repeated | free | live | rejected | unestablished | bound | lost | broken
    | linked | absorbed => simp
  | violated other =>
    intro hsame
    exact other _ (RouterError.protocolViolation.inj (Except.error.inj hsame)).2
  | @surplus direction channel source bound ledger surplus recorded exhausted =>
    obtain ⟨-, rfl⟩ := count_of_surplus exhausted
    cases direction <;> simp [Direction.counter]
  | surplusLink hypercube requested connected new exhausted =>
    have hcount : router.expected.network = 0 := (count_of_surplus exhausted).1
    exact absurd hcount (hrouter.outstanding hworking (by rwa [hypercube]) (by rwa [hypercube]))

/-! ## Runs -/

theorem counted_create (h : (create profile topology).2 = .ok start) : start.Counted topology := by
  obtain ⟨-, hosts, hnode⟩ := create_eq_ok h
  have hexpected : start.expected = topology.expected := by
    rw [expected, hnode]
    rfl
  have hinputs : start.node.ledger.inputCount = 0 := by
    rw [hnode]
    rfl
  have houtputs : start.node.ledger.outputCount = 0 := by
    rw [hnode]
    rfl
  obtain ⟨hrequested, hlinks, hextra⟩ := (fresh_create h).links
  constructor
  case requested => exact hrequested
  case live =>
    intro peer hpeer
    rw [hlinks] at hpeer
    exact absurd hpeer (by simp [Table.contains_eq_isSome])
  case conserved =>
    intro _
    constructor
    case inputs => rw [hinputs, hexpected, Topology.expected, Nat.zero_add]
    case outputs => rw [houtputs, hexpected, hextra, Topology.expected, Nat.zero_add, Nat.add_zero]
    case links =>
      rw [Forwarding.liveLinks_eq, hlinks, hexpected, Topology.expected, Topology.networkLinkCount]
      exact Nat.zero_add _

/-- What holds of the counts of a router. While it works, what is recorded and what is outstanding
add up to what was expected. An event moves a count by one and never below zero, or raises the
transmits without overflow, and no network link is refused because none was outstanding. -/
structure Conserves (router : Router) (topology : Topology) (backend : Backend) : Prop where
  conserved : router.phase ≠ .failed → router.Conserved topology
  moves : ∀ event, router.expected.Moves (router.handle backend event).1.expected
  linkExpected : ∀ event rank, (router.handle backend event).2 ≠
    .error (.protocolViolation rank (.surplusCompletion ⟨.network⟩))

theorem conserves_run (h : (create profile topology).2 = .ok start) (backend : Backend)
    (events : List Event) : (start.run backend events).Conserves topology backend := by
  have hcounted : (start.run backend events).Counted topology :=
    run_invariant (counted_create h)
      (fun hrouter hworking hstep => hstep.counted hrouter hworking) events
  constructor
  case conserved => exact fun hphase => hcounted.conserved (working_of_phase hphase)
  case moves =>
    intro event
    cases hfailed : (start.run backend events).node.isFailed with
    | true =>
      rw [handle_of_isFailed hfailed]
      exact .still
    | false => exact (step_handle backend event hfailed).moves hcounted hfailed
  case linkExpected =>
    intro event rank
    cases hfailed : (start.run backend events).node.isFailed with
    | true =>
      rw [handle_of_isFailed hfailed]
      simp
    | false => exact (step_handle backend event hfailed).ne_surplusLink hcounted hfailed rank

theorem conserves_run_eight : ∃ topology start,
    Topology.ofMembers (Layout.members 8) 0 .auto = .ok topology ∧
      (create .cube topology).2 = .ok start ∧
        (start.run .accepting [.channel ⟨1, 1, "p0-a", true⟩, .connection ⟨.tx, 1, 0, true⟩,
          .channel ⟨9, 4, "p0-b", true⟩, .connection ⟨.rx, 9, 4, true⟩]).expected = ⟨6, 10, 0⟩ ∧
        (start.run .accepting [.channel ⟨1, 1, "p0-a", true⟩, .connection ⟨.tx, 1, 0, true⟩,
          .channel ⟨9, 4, "p0-b", true⟩, .connection ⟨.rx, 9, 4, true⟩]).Conserves topology
            .accepting := by
  obtain ⟨topology, start, hvalid, hcreate, hexpected⟩ : ∃ topology start,
      Topology.ofMembers (Layout.members 8) 0 .auto = .ok topology ∧
        (create .cube topology).2 = .ok start ∧
          (start.run .accepting [.channel ⟨1, 1, "p0-a", true⟩, .connection ⟨.tx, 1, 0, true⟩,
            .channel ⟨9, 4, "p0-b", true⟩, .connection ⟨.rx, 9, 4, true⟩]).expected = ⟨6, 10, 0⟩ :=
    exists_created (by decide +kernel)
  exact ⟨topology, start, hvalid, hcreate, hexpected, conserves_run hcreate _ _⟩

end Router

end MeshFormation
