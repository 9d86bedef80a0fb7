import MeshFormation.Proofs.Forwarding.Partner
import MeshFormation.Proofs.Router.Start
import MeshFormation.Proofs.Router.Step

/-!
# What an event writes

An event writes to a node in one place. It binds a channel or gives one up, records a connection or
a route, or lowers a count; and a channel event that changes nothing, an error or a report writes
nothing. What follows, be it the calls that are due, a lock or a failure, leaves bindings and ledger
as they are.
-/

namespace MeshFormation

namespace Router

variable {router middle next start : Router} {backend : Backend} {event : Event} {outbox : Outbox}
  {result : Except RouterError Outbox} {profile : Profile} {topology : Topology}

/-- The node after the one place in which an event writes to it. -/
inductive Writes (router : Router) : Event → Node → Prop where
  | counts {event : Event} {progress : Progress} (phase : progress.phase = router.phase) :
      Writes router event { router.node with progress }
  | binds {known : ChannelEvent} (admits : router.Admits known) :
      Writes router (.channel known) (router.node.bind known.channel known.peer)
  | unbinds {known : ChannelEvent} {peer : Rank}
      (bound : router.node.boundPeer? known.channel = some peer) :
      Writes router (.channel known) { router.node with
        bindings := router.node.bindings.erase known.channel
        lostChannels := router.node.lostChannels.add known.channel }
  | records {direction : Direction} {channel : Channel} {source bound : Rank} {ledger : Ledger}
      {progress : Progress} (phase : progress.phase = router.phase)
      (recorded : router.node.ledgerAfter direction channel source = .ok (bound, ledger)) :
      Writes router (.connection ⟨direction, channel, source, true⟩)
        { router.node with ledger, progress }
  | learns {forwarder receiver : Rank} {base : Route}
      (receiving : router.node.topology.hasMember receiver = true)
      (known : router.node.ledger.route? forwarder = some base)
      (sound : (base.relayed receiver).fault? router.rank receiver = none) :
      Writes router (.forward forwarder receiver) { router.node with
        ledger := router.node.ledger.recordRoute receiver (base.relayed receiver) }

/-- What the rules make of an admitted channel when the direct transmit on it was accepted. -/
theorem Admits.joins {known : ChannelEvent} {node : Node} (h : router.Admits known)
    (haccepted : (router.node.bind known.channel known.peer).establish backend router.node.rank
      known.channel = (node, true)) :
    router.forwarding.Joins node known (router.forwarding.channelBound node known).1
      (router.forwarding.channelBound node known).2.1 := by
  have hadvances := Node.advances_of_establish haccepted
  apply Forwarding.joins_channelBound
  rw [Forwarding.rejection?_congr hadvances.topology]
  exact h.admitted

theorem Writes.nothing (router : Router) (event : Event) : router.Writes event router.node :=
  .counts rfl

theorem Absorbs.writes (h : router.Absorbs event middle outbox) :
    router.Writes event middle.node := by
  cases h with
  | receive recorded counted => exact .records (Progress.phase_of_complete counted) recorded
  | transmit recorded counted informed =>
    rw [(of_transmitCompleted informed).1]
    exact .records (Progress.phase_of_complete counted) recorded
  | forward other forwarding receiving known sound => exact .learns receiving known sound
  | announce => exact .nothing _ _

/-- No event takes back an input or a route. -/
theorem Writes.grows {node : Node} (h : router.Writes event node) :
    router.node.ledger.Grows node.ledger := by
  cases h with
  | counts | unbinds => exact .refl _
  | binds => exact ⟨fun hinput => (Ledger.input?_track _ _ _).trans hinput,
      fun hroute => (Ledger.route?_track _ _ _).trans hroute⟩
  | records phase recorded => exact Node.grows_of_ledgerAfter recorded
  | learns => exact Ledger.grows_recordRoute _ _ _

/-! ## What stays of the rules -/

theorem Absorbs.keepsLinks (h : router.Absorbs event middle outbox) :
    router.forwarding.KeepsLinks middle.forwarding := by
  cases h with
  | receive | forward => exact .refl _
  | announce cube =>
    rw [cube]
    exact ⟨rfl, rfl, rfl, rfl⟩
  | @transmit channel source bound ledger progress next outbox recorded counted informed =>
    unfold transmitCompleted at informed
    split at informed
    · obtain ⟨rfl, -⟩ := Prod.mk.inj informed
      exact .transmitDone _ _ _
    · obtain ⟨rfl, -⟩ := Prod.mk.inj informed
      exact .refl _

/-- What is taken in leaves the marks of the rules, and an announcement is added to those heard
before. -/
theorem Absorbs.ran (h : router.Absorbs event middle outbox) (rule : RelayRule) :
    middle.forwarding.ran rule = router.forwarding.ran rule ∧
      ∀ {rank}, router.forwarding.hears rank = true → middle.forwarding.hears rank = true := by
  cases h with
  | receive | forward => exact ⟨rfl, id⟩
  | announce cube =>
    rw [cube]
    refine ⟨by cases rule <;> rfl, fun hheard => ?_⟩
    simp only [Forwarding.hears, KeySet.contains_add, Bool.or_eq_true] at hheard ⊢
    exact .inr hheard
  | @transmit channel source bound ledger progress next outbox recorded counted informed =>
    unfold transmitCompleted at informed
    split at informed
    · obtain ⟨rfl, -⟩ := Prod.mk.inj informed
      refine ⟨Forwarding.ran_transmitDone _ _ _ _, fun hheard => ?_⟩
      exact (congrFun (Forwarding.hears_transmitDone _ _ _) _).trans hheard
    · obtain ⟨rfl, -⟩ := Prod.mk.inj informed
      exact ⟨rfl, id⟩

theorem keepsLinks_proceed (router : Router) (backend : Backend) :
    router.forwarding.KeepsLinks (router.proceed backend).forwarding := by
  rw [forwarding_proceed]
  exact .marked _ _

/-! ## What stays of the node -/

/-- After it has written, an event learns nothing more. -/
theorem Step.writes (h : router.Step backend event next result) :
    ∃ node, router.Writes event node ∧ node.Advances next.node := by
  cases h with
  | unheard | unlinked | repeated | free | live => exact ⟨_, .nothing _ _, .refl _⟩
  | rejected => exact ⟨_, .nothing _ _, router.node.advances_request backend rfl⟩
  | @unestablished known node admits refused =>
    exact ⟨_, .binds admits, Node.advances_of_establish refused⟩
  | @bound known node admits accepted =>
    have hadvances := Node.advances_of_establish accepted
    exact ⟨_, .binds admits, hadvances.trans (router.forwarding.advances_channelBound node known)⟩
  | lost lost bound => exact ⟨_, .unbinds bound, Node.advances_fail _ _⟩
  | broken | violated | surplusLink => exact ⟨_, .nothing _ _, Node.advances_fail _ _⟩
  | surplus recorded => exact ⟨_, .records rfl recorded, Node.advances_fail _ _⟩
  | linked hypercube requested connected new counted =>
    exact ⟨_, .counts (Progress.phase_of_complete counted), Node.advances_signalReadiness _⟩
  | absorbed absorbs => exact ⟨_, absorbs.writes, advances_proceed _ backend⟩

theorem Step.topology_eq (h : router.Step backend event next result) :
    next.node.topology = router.node.topology := by
  obtain ⟨node, hwrites, hadvances⟩ := h.writes
  rw [hadvances.topology]
  cases hwrites <;> rfl

theorem topology_run (h : (create profile topology).2 = .ok start) (backend : Backend)
    (events : List Event) : (start.run backend events).node.topology = topology := by
  have hstart : start.node.topology = topology := by
    obtain ⟨-, hosts, hnode⟩ := create_eq_ok h
    rw [hnode]
    rfl
  exact run_invariant hstart (fun hrouter _ hstep => hstep.topology_eq.trans hrouter) events

end Router

end MeshFormation
