import MeshFormation.Layout
import MeshFormation.Proofs.Node.Reports
import MeshFormation.Proofs.Router.Knowledge
import MeshFormation.Proofs.Router.Start

/-!
# Failure is final

A node that fails stays failed, and tells its delegate in the very transition in which it fails,
once. A router whose node has failed takes no event any more.
-/

namespace MeshFormation

namespace Node

variable {node next : Node}

theorem Reports.failed (h : node.Reports next) (hfailed : node.progress.phase = .failed) :
    next.progress.phase = .failed := by
  cases h with
  | nothing phase => exact phase.trans hfailed
  | readiness forming => exact absurd (forming.symm.trans hfailed) (by simp)
  | failure working => exact absurd hfailed working

/-- The delegate is told of a failure exactly when the phase becomes failed. -/
theorem Reports.failures_ne_iff (h : node.Reports next) :
    next.journal.failures ≠ node.journal.failures ↔
      node.progress.phase ≠ .failed ∧ next.progress.phase = .failed := by
  cases h with
  | nothing phase notices =>
    have hsame : next.journal.failures = node.journal.failures := by
      rw [Journal.failures, notices, Journal.failures]
    apply iff_of_false
    · exact not_not_intro hsame
    · rintro ⟨hworking, hfailed⟩
      exact hworking (phase.symm.trans hfailed)
  | readiness forming ready notices =>
    apply iff_of_false
    · exact not_not_intro (Journal.failures_of_ready notices)
    · rintro ⟨-, hfailed⟩
      exact absurd (ready.symm.trans hfailed) (by simp)
  | failure working failed notices =>
    apply iff_of_true
    · rw [Journal.failures_of_failed notices]
      simp
    · exact ⟨working, failed⟩

/-- The delegate of a node hears of at most one failure, in the transition in which the node fails,
and of readiness at most once and before. -/
structure FailsOnce (node next : Node) : Prop where
  reported : node.Reported
  stays : node.progress.phase = .failed → next.progress.phase = .failed
  told : next.journal.failures ≠ node.journal.failures ↔
    node.progress.phase ≠ .failed ∧ next.progress.phase = .failed

end Node

/-- Whatever transitions a node makes, in whatever order, it fails once, and a failed router is
inert. -/
theorem failure_is_final :
    (∀ (topology : Topology) (expected : Expected) (backend : Backend)
        (transitions : List Node.Transition) (transition : Node.Transition),
      ((Node.start topology expected).performAll backend transitions).FailsOnce
        ((Node.start topology expected).performAll backend (transitions ++ [transition]))) ∧
      ∀ (router : Router) (backend : Backend) (event : Event), router.phase = .failed →
        router.handle backend event = (router, .ok []) := by
  constructor
  · intro topology expected backend transitions transition
    have hreports := Node.reports_perform
      ((Node.start topology expected).performAll backend transitions) backend transition
    have hlast : (Node.start topology expected).performAll backend (transitions ++ [transition]) =
        ((Node.start topology expected).performAll backend transitions).perform
          backend transition :=
      List.foldl_append
    rw [hlast]
    constructor
    case reported =>
      exact Node.reported_performAll transitions (Node.reported_start topology expected)
    case stays => exact hreports.failed
    case told => exact hreports.failures_ne_iff
  · intro router backend event hfailed
    exact Router.handle_of_isFailed (Node.isFailed_iff.2 hfailed) backend event

/-- A pair that has failed ignores even a network event, which its profile does not know. -/
theorem failure_is_final_pair : ∃ topology start,
    Topology.ofMembers (Layout.members 2) 0 .auto = .ok topology ∧
      (Router.create .pair topology).2 = .ok start ∧
        (start.run .accepting [.failure (.connectionLost 1)]).phase = .failed ∧
          (start.run .accepting [.failure (.connectionLost 1)]).handle .accepting
              (.network ⟨1, true⟩) =
            (start.run .accepting [.failure (.connectionLost 1)], .ok []) := by
  have hrun : ((Topology.ofMembers (Layout.members 2) 0 .auto).toOption.bind fun topology =>
      (Router.create .pair topology).2.toOption.map fun start =>
        (start.run .accepting [.failure (.connectionLost 1)]).phase) = some .failed := by
    decide +kernel
  obtain ⟨topology, htopology, hrun⟩ := Option.bind_eq_some_iff.1 hrun
  obtain ⟨start, hstart, hfailed⟩ := Option.map_eq_some_iff.1 hrun
  exact ⟨topology, start, eq_ok_of_toOption htopology, eq_ok_of_toOption hstart, hfailed,
    failure_is_final.2 _ _ _ hfailed⟩

end MeshFormation
