import MeshFormation.Proofs.Router.Relayed

/-!
# One pass is enough

After an event a router locks its backend or runs its rules, once. It need not do so a second time:
a rule that was due has run, a rule that was not due is not made due by the others, and a backend
that is locked stays so. Where a call is refused the router has failed, and then it does nothing
more.
-/

namespace MeshFormation

namespace Node

variable {node next : Node} {backend : Backend}

theorem signalReadiness_signalReadiness (node : Node) :
    node.signalReadiness.signalReadiness = node.signalReadiness := by
  have hsignals := node.signals_signalReadiness
  generalize hnext : node.signalReadiness = next at hsignals ⊢
  cases hsignals with
  | idle => exact hnext
  | signalled => simp [signalReadiness, readied, Progress.enter?, Phase.canBecome]

theorem locked_signalReadiness (node : Node) :
    node.signalReadiness.progress.locked = node.progress.locked := by
  have hsignals := node.signals_signalReadiness
  generalize node.signalReadiness = next at hsignals
  cases hsignals with
  | idle | signalled => rfl

/-- A node that is locked, or whose mesh is not complete, does no more than signal readiness. -/
theorem lockWhenComplete_of_locked (hworking : node.isFailed = false)
    (hdone : node.progress.expected.meshDone = true) (hlocked : node.progress.locked = true) :
    node.lockWhenComplete backend = node.signalReadiness := by
  rw [lockWhenComplete, hworking, hdone, hlocked]
  rfl

theorem lockWhenComplete_of_isFailed (hfailed : node.isFailed = true) :
    node.lockWhenComplete backend = node := by
  rw [lockWhenComplete, hfailed]
  rfl

theorem lockWhenComplete_lockWhenComplete (node : Node) (backend : Backend) :
    (node.lockWhenComplete backend).lockWhenComplete backend = node.lockWhenComplete backend := by
  have hlocks := node.locks_lockWhenComplete backend
  -- A node that signalled readiness when it was locked has nothing left to do.
  have hagain : ∀ {other : Node}, other.progress.expected.meshDone = true →
      other.progress.locked = true →
        other.signalReadiness.lockWhenComplete backend = other.signalReadiness := by
    intro other hdone hlocked
    cases hfailed : other.signalReadiness.isFailed with
    | true => exact lockWhenComplete_of_isFailed hfailed
    | false =>
      rw [lockWhenComplete_of_locked hfailed, signalReadiness_signalReadiness]
      · rw [other.signals_signalReadiness.expected, hdone]
      · rw [locked_signalReadiness, hlocked]
  generalize hnext : node.lockWhenComplete backend = next at hlocks ⊢
  cases hlocks with
  | idle => exact hnext
  | again working done locked => exact hagain done locked
  | accepted working done => exact hagain done rfl
  | refused => exact lockWhenComplete_of_isFailed (isFailed_fail _ _)

end Node

namespace Forwarding

variable {forwarding : Forwarding} {node next : Node} {backend : Backend} {rule : RelayRule}

/-- Whether a rule is due depends on its own mark only. -/
theorem relays?_marked {ran : RelayRule → Bool} (h : ran rule = forwarding.ran rule) :
    (forwarding.marked ran).relays? node rule = forwarding.relays? node rule := by
  cases forwarding with
  | pair => rfl
  | hypercube rules =>
    cases rule with
    | fanout =>
      simp only [marked, relays?, HypercubeForwarding.relays?,
        HypercubeForwarding.partnerRelays?, h]
      rfl
    | uplink | cross => rfl
  | cube rules =>
    cases rule <;>
      simp only [marked, relays?, CubeForwarding.relays?, CubeForwarding.gate?,
        CubeForwarding.fellow?, CubeForwarding.partnerRelays?, CubeForwarding.uplinkRelays?,
        CubeForwarding.crossRelays?, h] <;>
      rfl

/-- After the rules that are due have run, none is due. -/
theorem relays?_fired (forwarding : Forwarding) (node : Node) (rule : RelayRule) :
    (forwarding.fired node).relays? node rule = none := by
  cases hdue : forwarding.relays? node rule with
  | some requests =>
    rw [Option.eq_none_iff_forall_ne_some]
    intro more hmore
    have hran := (of_due hmore).1
    rw [ran_fired, hdue] at hran
    exact absurd hran (by simp)
  | none =>
    rw [fired, relays?_marked, hdue]
    rw [hdue]
    exact Bool.or_false _

theorem due_eq_nil (h : ∀ rule, forwarding.relays? node rule = none) :
    forwarding.due node = [] := by
  rw [due, h, h, h]
  rfl

theorem fired_eq_self (h : ∀ rule, forwarding.relays? node rule = none) :
    forwarding.fired node = forwarding := by
  have hran : (fun rule => forwarding.ran rule || (forwarding.relays? node rule).isSome) =
      forwarding.ran := by
    funext rule
    rw [h]
    exact Bool.or_false _
  rw [fired, hran, marked_ran]

/-- Rules of which none is due do nothing. -/
theorem runRules_of_idle (h : ∀ rule, forwarding.relays? node rule = none) (backend : Backend) :
    forwarding.runRules node backend = (forwarding, node) := by
  obtain ⟨hlast, hfinal⟩ := forwarding.makes_runRules node backend
  rw [due_eq_nil h] at hlast hfinal
  exact Prod.ext ((hfinal rfl).trans (fired_eq_self h)) hlast

end Forwarding

namespace Router

variable {router middle : Router} {backend : Backend} {event : Event} {outbox : Outbox}

/-- What a working router takes in is what it goes on with. -/
theorem handle_of_absorbs (hworking : router.node.isFailed = false)
    (h : router.Absorbs event middle outbox) (backend : Backend) :
    router.handle backend event = (middle.proceed backend, .ok outbox) := by
  unfold handle
  rw [if_neg (by simp [hworking])]
  cases h with
  | receive recorded counted =>
    have hcounted : router.node.progress.complete Direction.rx.counter = .ok _ := counted
    simp only [connectionChanged, Node.completeConnection, recorded, hcounted, Bool.not_true,
      Bool.false_eq_true, if_false]
  | transmit recorded counted informed =>
    have hcounted : router.node.progress.complete Direction.tx.counter = .ok _ := counted
    simp only [connectionChanged, Node.completeConnection, recorded, hcounted, informed,
      Bool.not_true, Bool.false_eq_true, if_false]
  | forward other forwarding receiving known sound =>
    have hsound : (Route.relayed _ _).fault? router.node.rank _ = none := sound
    simp only [forwarded, if_neg other, Node.learnForward, forwarding, receiving, known, hsound,
      Bool.not_true, Bool.or_self, Bool.false_eq_true, if_false]
  | announce cube other stated =>
    have hother : ¬_ = router.node.rank := other
    simp only [announcementHeard, cube, Forwarding.announcementHeard,
      CubeForwarding.announcementHeard, if_neg hother, stated, ne_eq, not_true_eq_false, if_false]

theorem proceed_of_isFailed (h : router.node.isFailed = true) :
    router.proceed backend = router := by
  rw [proceed, if_pos h]

theorem proceed_of_done (hworking : router.node.isFailed = false)
    (hdone : router.expected.meshDone = true) :
    router.proceed backend = { router with node := router.node.lockWhenComplete backend } := by
  have hmesh : router.node.progress.expected.meshDone = true := hdone
  rw [proceed, if_neg (by simp [hworking]), if_pos hmesh]

theorem proceed_of_open (hworking : router.node.isFailed = false)
    (hopen : router.expected.meshDone = false) :
    router.proceed backend = ⟨(router.forwarding.runRules router.node backend).2,
      (router.forwarding.runRules router.node backend).1⟩ := by
  have hmesh : ¬router.node.progress.expected.meshDone = true := Bool.eq_false_iff.1 hopen
  rw [proceed, if_neg (by simp [hworking]), if_neg hmesh]

/-- A router that runs its rules and goes on to work has made all requests that were due. -/
theorem proceed_of_open_of_working (hworking : router.node.isFailed = false)
    (hopen : router.expected.meshDone = false)
    (hnext : (router.proceed backend).node.isFailed = false) :
    ∃ made, router.proceed backend =
      ⟨router.node.attempting made, router.forwarding.fired router.node⟩ := by
  obtain ⟨hlast, hfinal⟩ := router.forwarding.makes_runRules router.node backend
  have hcalls := router.node.calls_establishAll backend (router.forwarding.due router.node)
  rw [proceed_of_open hworking hopen] at hnext ⊢
  rw [hlast] at hnext
  have haccepted := Node.Calls.accepted_of_working hcalls hnext
  generalize hresult : router.node.establishAll backend (router.forwarding.due router.node) = result
    at hlast hfinal hcalls haccepted
  obtain ⟨node, accepted⟩ := result
  obtain rfl : accepted = true := haccepted
  obtain ⟨made, rfl, -⟩ := hcalls.exists_of_accepted
  exact ⟨made, by rw [hlast, hfinal rfl]⟩

/-- Going on a second time changes nothing. -/
theorem proceed_proceed (router : Router) (backend : Backend) :
    (router.proceed backend).proceed backend = router.proceed backend := by
  cases hworking : router.node.isFailed with
  | true => rw [proceed_of_isFailed hworking, proceed_of_isFailed hworking]
  | false =>
    cases hnext : (router.proceed backend).node.isFailed with
    | true => exact proceed_of_isFailed hnext
    | false =>
      have hexpected := expected_proceed router backend
      cases hdone : router.expected.meshDone with
      | true =>
        rw [proceed_of_done hnext (hexpected ▸ hdone), proceed_of_done hworking hdone,
          Node.lockWhenComplete_lockWhenComplete]
      | false =>
        rw [proceed_of_open hnext (hexpected ▸ hdone)]
        obtain ⟨made, hmade⟩ := proceed_of_open_of_working hworking hdone hnext
        rw [hmade, Forwarding.runRules_of_idle]
        exact Forwarding.relays?_fired router.forwarding router.node

end Router

end MeshFormation
