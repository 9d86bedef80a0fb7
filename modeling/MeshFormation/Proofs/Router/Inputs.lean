import MeshFormation.Layout
import MeshFormation.Proofs.Ledger.Sources
import MeshFormation.Proofs.Router.Conservation
import MeshFormation.Proofs.Router.Entries

/-!
# Complete inputs

A node records an input once for each source, and only for other members. In a topology of one
partition, what it still expects to receive is therefore the number of members that it does not
hear: when nothing is outstanding it hears them all. The data of a further source could only be that
of a member that is heard already, so it is refused before it is recorded, and the count is never
lowered at zero.
-/

namespace MeshFormation

namespace Node

variable {node : Node} {channel : Channel} {source bound peer : Rank} {ledger : Ledger}

/-- A recorded input adds its source, which is another member, to those that are heard. -/
theorem mem_sources_of_ledgerAfter (h : node.ledgerAfter .rx channel source = .ok (bound, ledger)) :
    peer ∈ ledger.sources ↔ peer = source ∨ peer ∈ node.ledger.sources := by
  obtain ⟨-, -, -, hrecord⟩ := ledgerAfter_rx_eq_ok h
  obtain ⟨-, hinput, -⟩ := Ledger.of_recordInput hrecord
  rw [Ledger.mem_sources_iff, Ledger.mem_sources_iff, hinput]
  split
  · rename_i hpeer
    simp [hpeer]
  · rename_i hpeer
    simp [hpeer]

/-- While only other members are heard, an input can be recorded only if one of them is not. -/
theorem inputCount_lt_of_ledgerAfter {topology : Topology} (htopology : node.topology = topology)
    (hsources : node.ledger.sources ⊆ topology.others)
    (h : node.ledgerAfter .rx channel source = .ok (bound, ledger)) :
    node.ledger.inputCount < topology.others.length := by
  obtain ⟨-, hmember, hother, hrecord⟩ := ledgerAfter_rx_eq_ok h
  have hsource : source ∈ topology.others := by
    rw [rank, htopology] at hother
    rw [htopology] at hmember
    exact Topology.mem_others_iff.2 ⟨hmember, hother⟩
  have hafter : ledger.sources ⊆ topology.others := by
    intro peer hmem
    rcases (mem_sources_of_ledgerAfter h).1 hmem with rfl | hold
    · exact hsource
    · exact hsources hold
  have hle := Ledger.inputCount_le topology.nodup_others hafter
  have hcount := (Ledger.counts_of_recordInput hrecord).1
  omega

end Node

namespace Router

variable {router next start : Router} {backend : Backend} {event : Event}
  {result : Except RouterError Outbox} {profile : Profile} {members : List Member}
  {request : ProfileRequest} {localRank : Rank} {topology : Topology}

/-! ## One event -/

/-- An event records inputs and counts them alike, unless it records one where none is expected. -/
theorem Step.inputs_add_rx (h : router.Step backend event next result) :
    next.node.ledger.inputCount + next.expected.rx =
        router.node.ledger.inputCount + router.expected.rx ∨
      ∃ channel source bound ledger, router.expected.rx = 0 ∧
        router.node.ledgerAfter .rx channel source = .ok (bound, ledger) := by
  have hfail : ∀ {node : Node} {reason : FailureReason},
      (node.fail reason).ledger.inputCount + (node.fail reason).progress.expected.rx =
        node.ledger.inputCount + node.progress.expected.rx := by simp
  have hcalls : ∀ {node next : Node} {kind : Call → Prop} {accepted : Bool},
      node.Calls kind (next, accepted) → next.ledger.inputCount + next.progress.expected.rx =
        node.ledger.inputCount + node.progress.expected.rx := fun hcalls => by
    rw [hcalls.ledger, hcalls.expected]
  have hbind : ∀ channel peer, (router.node.bind channel peer).ledger.inputCount =
      router.node.ledger.inputCount := fun _ _ => Ledger.inputCount_track _ _
  have hbinds : ∀ {after : Forwarding} {node next : Node}, router.forwarding.Binds node after next →
      next.ledger.inputCount + next.progress.expected.rx =
        node.ledger.inputCount + node.progress.expected.rx := fun hbinds => by cases hbinds <;> rfl
  cases h with
  | unheard | unlinked | repeated | free | live => exact .inl rfl
  | lost | broken | violated | surplusLink => exact .inl hfail
  | @rejected known =>
    obtain ⟨accepted, hmade⟩ := router.node.calls_refuseChannel backend known.channel
    exact .inl (hcalls hmade)
  | @unestablished known node admits refused =>
    have hmade := hcalls (Node.calls_of_establish refused)
    rw [hbind] at hmade
    exact .inl hmade
  | @bound known node admits accepted =>
    have hmade := hcalls (Node.calls_of_establish accepted)
    rw [hbind] at hmade
    exact .inl ((hbinds (router.forwarding.binds_channelBound node known)).trans hmade)
  | @surplus direction channel source bound ledger surplus recorded exhausted =>
    cases direction with
    | rx => exact .inr ⟨channel, source, bound, ledger, (count_of_surplus exhausted).1, recorded⟩
    | tx =>
      obtain ⟨-, -, -, rfl⟩ := Node.ledgerAfter_tx_eq_ok recorded
      apply Or.inl
      refine hfail.trans ?_
      dsimp only
      split <;> simp [expected]
  | @linked changed rules progress hypercube requested connected new counted =>
    have hrx : router.expected.rx = progress.expected.rx := counts_of_complete counted .rx
    apply Or.inl
    rw [expected, (Node.signals_signalReadiness _).expected,
      (Node.advances_signalReadiness _).ledger, hrx]
  | @absorbed event middle outbox absorbs =>
    apply Or.inl
    rw [(advances_proceed middle backend).ledger, expected_proceed]
    exact absorbs.balance.1

/-! ## Runs -/

theorem Peopled.sources_subset (h : router.Peopled topology) :
    router.node.ledger.sources ⊆ topology.others :=
  fun _ hmem => h.others (Ledger.contains_of_mem_sources hmem)

/-- A router that hears only of other members and still expects an input of each that it does not
hear. -/
structure Tallied (router : Router) (topology : Topology) :
    Prop extends Peopled router topology where
  inputs : router.node.ledger.inputCount + router.expected.rx = topology.others.length

theorem Step.tallied (hrouter : router.Tallied topology) (hworking : router.node.isFailed = false)
    (h : router.Step backend event next result) : next.Tallied topology := by
  refine ⟨h.peopled hrouter.toPeopled hworking, ?_⟩
  rcases h.inputs_add_rx with hsame | ⟨channel, source, bound, ledger, hzero, hrecorded⟩
  · exact hsame.trans hrouter.inputs
  · -- All members are heard already, and the ledger takes no second input of any of them.
    have hinputs := hrouter.inputs
    have hlt := Node.inputCount_lt_of_ledgerAfter hrouter.fixed hrouter.sources_subset hrecorded
    omega

/-- In a topology of one partition all runs are tallied, also after a failure. -/
theorem tallied_run (hvalid : Topology.ofMembers members localRank request = .ok topology)
    (hsingle : topology.partitionCount = 1) (h : (create profile topology).2 = .ok start)
    (backend : Backend) (events : List Event) : (start.run backend events).Tallied topology := by
  have hstart : start.Tallied topology := by
    refine ⟨peopled_run h backend [], ?_⟩
    obtain ⟨-, hosts, hnode⟩ := create_eq_ok h
    rw [expected, hnode, ← Topology.peers_eq_others hvalid hsingle,
      Topology.length_peers hvalid (Topology.hasMember_localRank hvalid)]
    exact Nat.zero_add _
  exact run_invariant hstart (fun hrouter hworking hstep => hstep.tallied hrouter hworking) events

/-! ## What the count means -/

theorem Tallied.outstanding (h : router.Tallied topology) : router.expected.rx =
    (topology.others.filter fun peer => (router.node.ledger.input? peer).isNone).length := by
  have htotal := Ledger.inputCount_add_length_filter topology.nodup_others h.sources_subset
  have hinputs := h.inputs
  omega

theorem Tallied.heard (h : router.Tallied topology) (hrx : router.expected.rx = 0) {peer : Rank}
    (hpeer : peer ∈ topology.others) :
    ∃ channel, router.node.ledger.input? peer = some channel := by
  have hnone := List.eq_nil_of_length_eq_zero (h.outstanding.symm.trans hrx)
  have hinput := List.filter_eq_nil_iff.1 hnone peer hpeer
  simpa [Option.ne_none_iff_exists'] using hinput

/-- An input that is recorded is one that was expected. -/
theorem Tallied.expecting {channel : Channel} {source bound : Rank} {ledger : Ledger}
    (h : router.Tallied topology)
    (hrecorded : router.node.ledgerAfter .rx channel source = .ok (bound, ledger)) :
    router.expected.rx ≠ 0 := by
  have hlt := Node.inputCount_lt_of_ledgerAfter h.fixed h.sources_subset hrecorded
  have hinputs := h.inputs
  omega

/-- An incoming completion that cannot be recorded fails a working router and changes nothing
else. -/
theorem handle_rx_of_ledgerAfter {channel : Channel} {source : Rank} {violation : Violation}
    (hworking : router.node.isFailed = false)
    (h : router.node.ledgerAfter .rx channel source = .error violation) (backend : Backend) :
    router.handle backend (.connection ⟨.rx, channel, source, true⟩) =
      ({ router with node := router.node.fail (.protocolViolation violation) },
        .error (.protocolViolation router.rank violation)) := by
  simp [handle, hworking, connectionChanged, Node.completeConnection, h, Node.refuse, rank]

/-- A router whose expected inputs are the members that it does not hear. With none expected it
hears all, and a further completion is refused for another reason than its count, before anything is
recorded. -/
structure HearsAll (router : Router) (topology : Topology) (backend : Backend) : Prop where
  outstanding : router.expected.rx =
    (topology.others.filter fun peer => (router.node.ledger.input? peer).isNone).length
  heard : router.expected.rx = 0 ∨ router.node.progress.locked = true ∨ router.phase = .ready →
    ∀ peer ∈ topology.others, ∃ channel, router.node.ledger.input? peer = some channel
  counted : ∀ {channel source bound ledger},
    router.node.ledgerAfter .rx channel source = .ok (bound, ledger) →
      ∃ progress, router.node.progress.complete .rx = .ok progress
  refused : router.expected.rx = 0 → router.phase ≠ .failed → ∀ channel source, ∃ violation,
    (∀ surplus, violation ≠ .surplusCompletion surplus) ∧
      router.handle backend (.connection ⟨.rx, channel, source, true⟩) =
        ({ router with node := router.node.fail (.protocolViolation violation) },
          .error (.protocolViolation router.rank violation))
  kept : router.expected.rx = 0 → ∀ channel source,
    (router.handle backend (.connection ⟨.rx, channel, source, true⟩)).1.node.ledger =
      router.node.ledger

theorem Tallied.hearsAll (h : router.Tallied topology) (hsettled : router.node.progress.Settled)
    (backend : Backend) : router.HearsAll topology backend := by
  have hrefused : router.expected.rx = 0 → ∀ channel source, ∃ violation,
      router.node.ledgerAfter .rx channel source = .error violation := by
    intro hrx channel source
    cases hrecorded : router.node.ledgerAfter .rx channel source with
    | ok recorded => exact absurd hrx (h.expecting hrecorded)
    | error violation => exact ⟨violation, rfl⟩
  constructor
  case outstanding => exact h.outstanding
  case heard =>
    intro hdone peer hpeer
    apply h.heard _ hpeer
    rcases hdone with hrx | hlocked | hready
    · exact hrx
    · exact (Expected.meshDone_iff.1 (hsettled.mesh hlocked)).1
    · exact (Expected.meshDone_iff.1 (Expected.allDone_iff.1 (hsettled.ready hready)).1).1
  case counted =>
    intro channel source bound ledger hrecorded
    cases hcounted : router.node.progress.complete .rx with
    | ok progress => exact ⟨progress, rfl⟩
    | error surplus => exact absurd (count_of_surplus hcounted).1 (h.expecting hrecorded)
  case refused =>
    intro hrx hphase channel source
    obtain ⟨violation, hrecorded⟩ := hrefused hrx channel source
    exact ⟨violation, Node.ne_surplus_of_ledgerAfter hrecorded,
      handle_rx_of_ledgerAfter (working_of_phase hphase) hrecorded backend⟩
  case kept =>
    intro hrx channel source
    cases hfailed : router.node.isFailed with
    | true => rw [handle_of_isFailed hfailed]
    | false =>
      obtain ⟨violation, hrecorded⟩ := hrefused hrx channel source
      rw [handle_rx_of_ledgerAfter hfailed hrecorded]
      exact (router.node.advances_fail _).ledger

/-- In a topology of one partition every run, also one that failed, expects inputs of exactly the
members that are not heard yet, and refuses what goes beyond them. -/
theorem hearsAll_run (hvalid : Topology.ofMembers members localRank request = .ok topology)
    (hsingle : topology.partitionCount = 1) (h : (create profile topology).2 = .ok start)
    (backend : Backend) (events : List Event) :
    (start.run backend events).HearsAll topology backend :=
  (tallied_run hvalid hsingle h backend events).hearsAll
    (settled_run h backend events).progress backend

/-- All seven other members of a cube are heard over the channels to two of them. -/
def hearingTurns : List Event :=
  [.channel ⟨1, 1, "p0-a", true⟩, .channel ⟨9, 4, "p0-b", true⟩, .connection ⟨.rx, 1, 1, true⟩,
    .connection ⟨.rx, 1, 2, true⟩, .connection ⟨.rx, 1, 3, true⟩, .connection ⟨.rx, 9, 4, true⟩,
    .connection ⟨.rx, 9, 5, true⟩, .connection ⟨.rx, 9, 6, true⟩, .connection ⟨.rx, 9, 7, true⟩]

/-- Nothing is expected after these, so the next completion is refused, on whatever channel it
comes. -/
theorem hearsAll_run_eight : ∃ topology start,
    Topology.ofMembers (Layout.members 8) 0 .auto = .ok topology ∧ topology.partitionCount = 1 ∧
      (create .cube topology).2 = .ok start ∧
        (start.run .accepting hearingTurns).expected = ⟨0, 11, 0⟩ ∧
        (start.run .accepting hearingTurns).phase = .forming ∧
        (start.run .accepting hearingTurns).HearsAll topology .accepting := by
  obtain ⟨topology, start, hvalid, hcreate, hexpected, hforming⟩ : ∃ topology start,
      Topology.ofMembers (Layout.members 8) 0 .auto = .ok topology ∧
        (create .cube topology).2 = .ok start ∧
          (start.run .accepting hearingTurns).expected = ⟨0, 11, 0⟩ ∧
          (start.run .accepting hearingTurns).phase = .forming := exists_created (by decide +kernel)
  have hsingle : topology.partitionCount = 1 := by
    rw [Topology.partitionCount, profile_of_create hcreate]
  exact ⟨topology, start, hvalid, hsingle, hcreate, hexpected, hforming,
    hearsAll_run hvalid hsingle hcreate .accepting hearingTurns⟩

end Router

end MeshFormation
