import MeshFormation.Layout
import MeshFormation.Proofs.Router.Attachment
import MeshFormation.Proofs.Router.Readiness

/-!
# Completions that are delivered twice

A router that goes on to work remembers a completed connection: its channel stays bound, and the
data of an incoming one has its input channel, which is written once. An incoming completion is
therefore refused when it comes again. An outgoing one leaves no such mark. It is refused only where
no transmit is outstanding, and lowers the count of another transmit otherwise.
-/

namespace MeshFormation

namespace Node

variable {node next : Node} {direction : Direction} {channel : Channel} {source bound : Rank}
  {ledger : Ledger}

/-- What a working node knows of a completed connection that it took in. -/
structure Remembers (node : Node) (direction : Direction) (channel : Channel) (source peer : Rank) :
    Prop where
  bound : node.boundPeer? channel = some peer
  member : node.topology.hasMember source = true
  input : direction = .rx → source ≠ node.rank ∧ node.ledger.input? source = some channel
  output : direction = .tx → source ≠ peer

theorem remembers_of_ledgerAfter
    (h : node.ledgerAfter direction channel source = .ok (bound, ledger))
    (htopology : next.topology = node.topology) (hledger : next.ledger = ledger)
    (hbindings : next.bindings = node.bindings) :
    next.Remembers direction channel source bound := by
  have hrank : next.rank = node.rank := congrArg Topology.localRank htopology
  cases direction with
  | rx =>
    obtain ⟨hbound, hmember, hother, hrecorded⟩ := ledgerAfter_rx_eq_ok h
    obtain ⟨-, hput⟩ := Ledger.recordInput_eq_ok_iff.1 hrecorded
    refine ⟨?_, htopology ▸ hmember, fun _ => ⟨hrank ▸ hother, ?_⟩, by simp⟩
    · rwa [boundPeer?, hbindings]
    · rw [hledger, hput, Ledger.input?, Ledger.entry_put, if_pos rfl]
  | tx =>
    obtain ⟨hbound, hmember, hother, -⟩ := ledgerAfter_tx_eq_ok h
    refine ⟨?_, htopology ▸ hmember, by simp, fun _ => hother⟩
    rwa [boundPeer?, hbindings]

namespace Remembers

/-- The data of the source has its input already. -/
theorem ledgerAfter_rx (h : node.Remembers .rx channel source bound) :
    node.ledgerAfter .rx channel source = .error (.inputClash ⟨source, channel⟩) := by
  obtain ⟨hother, hinput⟩ := h.input rfl
  have hclash : node.ledger.recordInput source channel = .error ⟨source, channel⟩ := by
    rw [Ledger.input?] at hinput
    rw [Ledger.recordInput, hinput]
  rw [ledgerAfter, h.bound]
  simp only [h.member, Bool.not_true, Bool.false_eq_true, if_false, if_neg hother, hclash]

/-- Nothing tells a transmit from the same transmit a second time. -/
theorem exists_ledgerAfter_tx (h : node.Remembers .tx channel source bound) :
    ∃ ledger, node.ledgerAfter .tx channel source = .ok (bound, ledger) := by
  rw [ledgerAfter, h.bound]
  simp only [h.member, Bool.not_true, Bool.false_eq_true, if_false, if_neg (h.output rfl)]
  split
  · exact ⟨_, rfl⟩
  · exact ⟨_, rfl⟩

end Remembers

end Node

namespace Router

variable {router next : Router} {backend : Backend} {event : Event}
  {result : Except RouterError Outbox} {direction : Direction} {channel : Channel}
  {source bound : Rank} {outbox : Outbox}

theorem Step.remembers
    (h : router.Step backend (.connection ⟨direction, channel, source, true⟩) next (.ok outbox)) :
    ∃ bound, next.node.Remembers direction channel source bound := by
  cases h with
  | broken breaks =>
    cases breaks with
    | connection lost => exact absurd lost (by simp)
  | @absorbed _ middle _ absorbs =>
    have hadvances := advances_proceed middle backend
    cases absorbs with
    | receive recorded counted =>
      exact ⟨_, Node.remembers_of_ledgerAfter recorded hadvances.topology hadvances.ledger
        hadvances.bindings⟩
    | transmit recorded counted informed =>
      obtain ⟨hnode, -⟩ := of_transmitCompleted informed
      rw [hnode] at hadvances
      exact ⟨_, Node.remembers_of_ledgerAfter recorded hadvances.topology hadvances.ledger
        hadvances.bindings⟩

/-- A router that goes on to work forgets no connection. -/
theorem Step.keepsRemembering (h : router.Step backend event next result)
    (hworking : next.node.isFailed = false)
    (hrouter : router.node.Remembers direction channel source bound) :
    next.node.Remembers direction channel source bound := by
  have hrank : next.node.rank = router.node.rank := congrArg Topology.localRank h.topology_eq
  obtain ⟨written, hwrites, hadvances⟩ := h.writes
  constructor
  case bound => exact h.boundPeer?_mono hworking hrouter.bound
  case member => exact h.topology_eq ▸ hrouter.member
  case input =>
    intro hdirection
    obtain ⟨hother, hinput⟩ := hrouter.input hdirection
    refine ⟨hrank ▸ hother, ?_⟩
    rw [hadvances.ledger]
    exact hwrites.grows.input hinput
  case output => exact hrouter.output

theorem remembers_run (h : router.node.Remembers direction channel source bound) (backend : Backend)
    (events : List Event) (hworking : (router.run backend events).node.isFailed = false) :
    (router.run backend events).node.Remembers direction channel source bound :=
  run_invariant_of_working h (fun hmiddle hnext hstep => hstep.keepsRemembering hnext hmiddle)
    events hworking

/-! ## The second delivery -/

/-- An event breaks the delivery contract and leaves all counts as they are. -/
structure Refuses (router : Router) (backend : Backend) (event : Event) : Prop where
  error : ∃ violation, (router.handle backend event).2 =
    .error (.protocolViolation router.rank violation)
  expected : (router.handle backend event).1.expected = router.expected

theorem refuses_rx (h : router.node.Remembers .rx channel source bound)
    (hworking : router.node.isFailed = false) (backend : Backend) :
    router.Refuses backend (.connection ⟨.rx, channel, source, true⟩) := by
  constructor <;>
    simp [handle, hworking, connectionChanged, Node.completeConnection,
      h.ledgerAfter_rx, Node.refuse, expected, rank]

theorem refuses_tx_iff (h : router.node.Remembers .tx channel source bound)
    (hworking : router.node.isFailed = false) (backend : Backend) :
    router.Refuses backend (.connection ⟨.tx, channel, source, true⟩) ↔ router.expected.tx = 0 := by
  obtain ⟨ledger, hrecorded⟩ := h.exists_ledgerAfter_tx
  cases hcounted : router.node.progress.complete .tx with
  | error surplus =>
    have hempty : router.expected.tx = 0 := by
      by_contra hsome
      have hcount : router.node.progress.expected.count .tx ≠ 0 := hsome
      simp [Progress.complete, Expected.complete, hcount] at hcounted
    refine iff_of_true ?_ hempty
    constructor <;>
      simp [handle, hworking, connectionChanged, Node.completeConnection, hrecorded,
        Direction.counter, hcounted, Node.refuse, Node.rank, expected, rank]
  | ok progress =>
    have hsome : router.expected.tx ≠ 0 := by
      intro hempty
      have hcount : router.node.progress.expected.count .tx = 0 := hempty
      simp [Progress.complete, Expected.complete, hcount] at hcounted
    refine iff_of_false (fun hrefuses => ?_) hsome
    obtain ⟨violation, herror⟩ := hrefuses.error
    simp [handle, hworking, connectionChanged, Node.completeConnection, hrecorded,
      Direction.counter, hcounted] at herror

/-- A completed connection that was taken in is refused when it comes again, whatever happens in
between, if and only if it is an incoming one or no transmit is outstanding. -/
theorem refuses_repeated_iff {before between : List Event} (start : Router)
    (hworking : (start.run backend before).phase ≠ .failed)
    (haccepted : ((start.run backend before).handle backend
      (.connection ⟨direction, channel, source, true⟩)).2 = .ok outbox)
    (hlater : (start.run backend
      (before ++ .connection ⟨direction, channel, source, true⟩ :: between)).phase ≠ .failed) :
    (start.run backend
        (before ++ .connection ⟨direction, channel, source, true⟩ :: between)).Refuses
        backend (.connection ⟨direction, channel, source, true⟩) ↔
      (direction = .tx → (start.run backend (before ++
        .connection ⟨direction, channel, source, true⟩ :: between)).expected.tx = 0) := by
  have hstep := step_handle backend (.connection ⟨direction, channel, source, true⟩)
    (working_of_phase hworking)
  rw [haccepted] at hstep
  obtain ⟨bound, hfirst⟩ := hstep.remembers
  have hsplit : start.run backend
      (before ++ .connection ⟨direction, channel, source, true⟩ :: between) =
        ((start.run backend before).handle backend
          (.connection ⟨direction, channel, source, true⟩)).1.run backend between :=
    run_append _ _ _ _
  have hremembers := remembers_run hfirst backend between (hsplit ▸ working_of_phase hlater)
  rw [← hsplit] at hremembers
  cases direction with
  | rx => exact iff_of_true (refuses_rx hremembers (working_of_phase hlater) backend) nofun
  | tx => simpa using refuses_tx_iff hremembers (working_of_phase hlater) backend

/-- In a pair no transmit is outstanding after the first one, and both completions are refused when
they come again. -/
theorem refuses_repeated_iff_pair : ∃ topology start,
    Topology.ofMembers (Layout.members 2) 0 .auto = .ok topology ∧
      (create .pair topology).2 = .ok start ∧
        (start.run .accepting [.channel ⟨3, 1, "p0-a", true⟩,
          .connection ⟨.rx, 3, 1, true⟩]).Refuses .accepting (.connection ⟨.rx, 3, 1, true⟩) ∧
        (start.run .accepting [.channel ⟨3, 1, "p0-a", true⟩,
          .connection ⟨.tx, 3, 0, true⟩]).Refuses .accepting (.connection ⟨.tx, 3, 0, true⟩) := by
  obtain ⟨topology, start, hvalid, hcreate, hworking, ⟨hreceived, hforming⟩, htransmitted,
      hforming', hempty⟩ : ∃ topology start,
      Topology.ofMembers (Layout.members 2) 0 .auto = .ok topology ∧
        (create .pair topology).2 = .ok start ∧
          (start.run .accepting [.channel ⟨3, 1, "p0-a", true⟩]).phase ≠ .failed ∧
          (((start.run .accepting [.channel ⟨3, 1, "p0-a", true⟩]).handle .accepting
              (.connection ⟨.rx, 3, 1, true⟩)).2 = .ok [] ∧
            (start.run .accepting [.channel ⟨3, 1, "p0-a", true⟩,
              .connection ⟨.rx, 3, 1, true⟩]).phase ≠ .failed) ∧
          ((start.run .accepting [.channel ⟨3, 1, "p0-a", true⟩]).handle .accepting
              (.connection ⟨.tx, 3, 0, true⟩)).2 = .ok [] ∧
            (start.run .accepting [.channel ⟨3, 1, "p0-a", true⟩,
              .connection ⟨.tx, 3, 0, true⟩]).phase ≠ .failed ∧
            (start.run .accepting [.channel ⟨3, 1, "p0-a", true⟩,
              .connection ⟨.tx, 3, 0, true⟩]).expected.tx = 0 := exists_created (by decide +kernel)
  refine ⟨topology, start, hvalid, hcreate, ?_, ?_⟩
  · exact (refuses_repeated_iff start hworking hreceived hforming).2 nofun
  · exact (refuses_repeated_iff start hworking htransmitted hforming').2 fun _ => hempty

/-- In a cube three transmits are outstanding at first. The first one, delivered twice, is counted
twice. -/
theorem not_refuses_repeated_transmit : ∃ topology start,
    Topology.ofMembers (Layout.members 8) 0 .auto = .ok topology ∧
      (create .cube topology).2 = .ok start ∧
        (start.run .accepting [.channel ⟨1, 1, "p0-a", true⟩]).phase = .forming ∧
        ((start.run .accepting [.channel ⟨1, 1, "p0-a", true⟩]).handle .accepting
          (.connection ⟨.tx, 1, 0, true⟩)).2 = .ok [] ∧
        (start.run .accepting [.channel ⟨1, 1, "p0-a", true⟩,
          .connection ⟨.tx, 1, 0, true⟩]).phase = .forming ∧
        (start.run .accepting [.channel ⟨1, 1, "p0-a", true⟩,
          .connection ⟨.tx, 1, 0, true⟩]).expected = ⟨7, 2, 0⟩ ∧
        (start.run .accepting [.channel ⟨1, 1, "p0-a", true⟩, .connection ⟨.tx, 1, 0, true⟩,
          .connection ⟨.tx, 1, 0, true⟩]).expected = ⟨7, 1, 0⟩ ∧
        ¬(start.run .accepting [.channel ⟨1, 1, "p0-a", true⟩,
          .connection ⟨.tx, 1, 0, true⟩]).Refuses .accepting (.connection ⟨.tx, 1, 0, true⟩) := by
  obtain ⟨topology, start, hvalid, hcreate, hbefore, haccepted, hforming, honce, htwice⟩ :
      ∃ topology start, Topology.ofMembers (Layout.members 8) 0 .auto = .ok topology ∧
        (create .cube topology).2 = .ok start ∧
          (start.run .accepting [.channel ⟨1, 1, "p0-a", true⟩]).phase = .forming ∧
          ((start.run .accepting [.channel ⟨1, 1, "p0-a", true⟩]).handle .accepting
            (.connection ⟨.tx, 1, 0, true⟩)).2 = .ok [] ∧
          (start.run .accepting [.channel ⟨1, 1, "p0-a", true⟩,
            .connection ⟨.tx, 1, 0, true⟩]).phase = .forming ∧
          (start.run .accepting [.channel ⟨1, 1, "p0-a", true⟩,
            .connection ⟨.tx, 1, 0, true⟩]).expected = ⟨7, 2, 0⟩ ∧
          (start.run .accepting [.channel ⟨1, 1, "p0-a", true⟩, .connection ⟨.tx, 1, 0, true⟩,
            .connection ⟨.tx, 1, 0, true⟩]).expected = ⟨7, 1, 0⟩ :=
              exists_created (by decide +kernel)
  refine ⟨topology, start, hvalid, hcreate, hbefore, haccepted, hforming, honce, htwice, ?_⟩
  intro hrefuses
  have hkept := hrefuses.expected
  rw [honce, ← run_concat] at hkept
  exact absurd (htwice.symm.trans hkept) (by decide)

end Router

end MeshFormation
