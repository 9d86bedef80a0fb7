import MeshFormation.Proofs.Node.Calls

/-!
# What a node reports

Every transition of a node tells the delegate at most one thing: that the ensemble is ready, as the
phase turns from forming to ready, or that it failed, as the phase turns to failed. This alone makes
the reports of a node sound, in whatever order its transitions are called.
-/

namespace MeshFormation

def Notice.isFailure : Notice → Bool
  | .failed _ => true
  | _ => false

namespace Journal

variable {journal next : Journal} {reason : FailureReason}

theorem failures_of_failed (h : next.notices = journal.notices ++ [.failed reason]) :
    next.failures = journal.failures ++ [reason] := by
  rw [failures, h, List.filterMap_append, failures]
  rfl

theorem failures_of_ready (h : next.notices = journal.notices ++ [.ready]) :
    next.failures = journal.failures := by
  rw [failures, h, List.filterMap_append, failures]
  exact List.append_nil _

theorem readySignals_of_failed (h : next.notices = journal.notices ++ [.failed reason]) :
    next.readySignals = journal.readySignals := by
  rw [readySignals, h, List.count_append, readySignals]
  rfl

theorem readySignals_of_ready (h : next.notices = journal.notices ++ [.ready]) :
    next.readySignals = journal.readySignals + 1 := by
  rw [readySignals, h, List.count_append, readySignals]
  rfl

theorem isFailure_of_failures (h : journal.failures.length = 0) :
    ∀ notice ∈ journal.notices, notice.isFailure = false := by
  intro notice hmem
  have hnil := List.eq_nil_of_length_eq_zero h
  rw [failures, List.filterMap_eq_nil_iff] at hnil
  have hnone := hnil notice hmem
  cases notice with
  | failed reason => exact absurd hnone (by simp)
  | _ => rfl

end Journal

namespace Node

variable {node middle next : Node} {backend : Backend} {kind : Call → Prop} {accepted : Bool}

theorem isFailed_iff : node.isFailed = true ↔ node.progress.phase = .failed := by
  simp [isFailed, Progress.isFailed]

/-- What the delegate of a node is told from one state to the next. -/
inductive Reports (node next : Node) : Prop where
  | nothing (phase : next.progress.phase = node.progress.phase)
      (notices : next.journal.notices = node.journal.notices)
  | readiness (forming : node.progress.phase = .forming) (ready : next.progress.phase = .ready)
      (notices : next.journal.notices = node.journal.notices ++ [.ready])
  | failure {reason : FailureReason} (working : node.progress.phase ≠ .failed)
      (failed : next.progress.phase = .failed)
      (notices : next.journal.notices = node.journal.notices ++ [.failed reason])

namespace Reports

theorem refl (node : Node) : node.Reports node := .nothing rfl rfl

theorem after (h : middle.Reports next) (hphase : middle.progress.phase = node.progress.phase)
    (hnotices : middle.journal.notices = node.journal.notices) : node.Reports next := by
  cases h with
  | nothing phase notices => exact .nothing (phase.trans hphase) (notices.trans hnotices)
  | readiness forming ready notices =>
    exact .readiness (hphase ▸ forming) ready (hnotices ▸ notices)
  | failure working failed notices =>
    exact .failure (hphase ▸ working) failed (hnotices ▸ notices)

end Reports

theorem reports_fail (node : Node) (reason : FailureReason) : node.Reports (node.fail reason) := by
  have hphase : (node.fail reason).progress.phase = .failed := by
    rw [progress_fail]
  by_cases hfailed : node.progress.phase = .failed
  · have hsame : node.fail reason = node := by
      rw [fail, Progress.enter?_failed_eq_none_iff.2 (isFailed_iff.2 hfailed)]
    rw [hsame]
    exact .refl node
  · apply Reports.failure hfailed hphase
    unfold fail
    split
    · rename_i h
      exact absurd (isFailed_iff.1 (Progress.enter?_failed_eq_none_iff.1 h)) hfailed
    · rfl

theorem Calls.reports (h : Calls kind node (next, accepted)) : node.Reports next := by
  cases h with
  | accepted calls => exact .nothing rfl rfl
  | refused calls => exact (reports_fail _ _).after rfl rfl

theorem Signals.reports (h : node.Signals next) : node.Reports next := by
  cases h with
  | idle => exact .refl node
  | signalled forming locked done => exact .readiness forming rfl rfl

theorem Locks.reports (h : node.Locks next) : node.Reports next := by
  cases h with
  | idle => exact .refl node
  | again => exact node.signals_signalReadiness.reports
  | accepted => exact (signals_signalReadiness _).reports.after rfl rfl
  | refused => exact (reports_fail _ _).after rfl rfl

theorem reports_request (node : Node) (backend : Backend) (call : Call) :
    node.Reports (node.request backend call).1 := by
  have hcalls : node.Calls (fun _ => True) (node.request backend call) :=
    node.calls_request backend trivial
  exact hcalls.reports

/-! ## Transitions in any order -/

/-- The transitions of a node with what they are given. -/
inductive Transition where
  | bind (channel : Channel) (peer : Rank)
  | refuseChannel (channel : Channel)
  | channelLost (channel : Channel)
  | completeConnection (direction : Direction) (channel : Channel) (source : Rank)
  | learnForward (forwarder receiver : Rank)
  | establish (source : Rank) (channel : Channel)
  | raiseTransmits (extra : Nat)
  | countNetworkLink
  | lockWhenComplete
  | signalReadiness
  | fail (reason : FailureReason)
  | refuse (violation : Violation)
deriving DecidableEq

/-- The node after a transition, whatever the transition answers next to it. -/
def perform (node : Node) (backend : Backend) : Transition → Node
  | .bind channel peer => node.bind channel peer
  | .refuseChannel channel => node.refuseChannel backend channel
  | .channelLost channel => node.channelLost channel
  | .completeConnection direction channel source =>
    (node.completeConnection direction channel source).1
  | .learnForward forwarder receiver => (node.learnForward forwarder receiver).1
  | .establish source channel => (node.establish backend source channel).1
  | .raiseTransmits extra => node.raiseTransmits extra
  | .countNetworkLink => node.countNetworkLink.1
  | .lockWhenComplete => node.lockWhenComplete backend
  | .signalReadiness => node.signalReadiness
  | .fail reason => node.fail reason
  | .refuse violation => (node.refuse violation : Node × Except RouterError Unit).1

def performAll (node : Node) (backend : Backend) (transitions : List Transition) : Node :=
  transitions.foldl (fun node transition => node.perform backend transition) node

theorem reports_completeConnection (node : Node) (direction : Direction) (channel : Channel)
    (source : Rank) : node.Reports (node.completeConnection direction channel source).1 := by
  unfold completeConnection
  split
  · exact node.reports_fail _
  · split
    · exact (reports_fail _ _).after rfl rfl
    · rename_i progress heq
      exact .nothing (Progress.phase_of_complete heq) rfl

theorem reports_learnForward (node : Node) (forwarder receiver : Rank) :
    node.Reports (node.learnForward forwarder receiver).1 := by
  unfold learnForward
  split
  · exact node.reports_fail _
  split
  · exact node.reports_fail _
  dsimp only
  split
  · exact node.reports_fail _
  · exact .nothing rfl rfl

theorem reports_countNetworkLink (node : Node) : node.Reports node.countNetworkLink.1 := by
  unfold countNetworkLink
  split
  · exact node.reports_fail _
  · rename_i progress heq
    exact .nothing (Progress.phase_of_complete heq) rfl

theorem reports_perform (node : Node) (backend : Backend) (transition : Transition) :
    node.Reports (node.perform backend transition) := by
  cases transition with
  | bind channel peer => exact .nothing rfl rfl
  | refuseChannel channel => exact node.reports_request backend _
  | channelLost channel =>
    rw [perform, channelLost]
    split
    · exact .refl node
    · exact (reports_fail _ _).after rfl rfl
  | completeConnection direction channel source =>
    exact node.reports_completeConnection direction channel source
  | learnForward forwarder receiver => exact node.reports_learnForward forwarder receiver
  | establish source channel => exact node.reports_request backend _
  | raiseTransmits extra => exact .nothing rfl rfl
  | countNetworkLink => exact node.reports_countNetworkLink
  | lockWhenComplete => exact (node.locks_lockWhenComplete backend).reports
  | signalReadiness => exact node.signals_signalReadiness.reports
  | fail reason => exact node.reports_fail reason
  | refuse violation => exact node.reports_fail _

/-- The notices of a node fit its phase. A failure was reported once if the node has failed,
readiness was reported at most once and not while forming, and never after a failure. -/
structure Reported (node : Node) : Prop where
  failures : node.journal.failures.length = if node.progress.phase = .failed then 1 else 0
  forming : node.progress.phase = .forming → node.journal.readySignals = 0
  ready : node.progress.phase = .ready → node.journal.readySignals = 1
  signals : node.journal.readySignals ≤ 1
  order : node.journal.notices.Pairwise fun first second =>
    first.isFailure = true → second ≠ .ready

theorem reported_start (topology : Topology) (expected : Expected) :
    (Node.start topology expected).Reported :=
  ⟨rfl, fun _ => rfl, fun h => absurd h (by simp [start, Progress.start]), Nat.zero_le _, .nil⟩

/-- One report at the right time keeps all reports sound. -/
theorem Reports.reported (h : node.Reports next) (hnode : node.Reported) : next.Reported := by
  cases h with
  | nothing phase notices =>
    have hfailures : next.journal.failures = node.journal.failures := by
      rw [Journal.failures, notices, Journal.failures]
    have hsignals : next.journal.readySignals = node.journal.readySignals := by
      rw [Journal.readySignals, notices, Journal.readySignals]
    constructor
    case failures => rw [hfailures, phase, hnode.failures]
    case forming => rw [hsignals, phase]; exact hnode.forming
    case ready => rw [hsignals, phase]; exact hnode.ready
    case signals => rw [hsignals]; exact hnode.signals
    case order => rw [notices]; exact hnode.order
  | readiness forming ready notices =>
    have hfailures := hnode.failures
    rw [forming, if_neg (by simp)] at hfailures
    have hsignals := Journal.readySignals_of_ready notices
    rw [hnode.forming forming] at hsignals
    constructor
    case failures =>
      rw [Journal.failures_of_ready notices, ready, hfailures]
      rfl
    case forming => intro h; rw [ready] at h; exact absurd h (by simp)
    case ready => exact fun _ => hsignals
    case signals => exact Nat.le_of_eq hsignals
    case order =>
      rw [notices, List.pairwise_append]
      refine ⟨hnode.order, List.pairwise_singleton _ _, fun first hfirst second _ hfailure => ?_⟩
      rw [Journal.isFailure_of_failures hfailures first hfirst] at hfailure
      exact absurd hfailure (by simp)
  | failure working failed notices =>
    have hfailures := hnode.failures
    rw [if_neg working] at hfailures
    have hsignals := Journal.readySignals_of_failed notices
    constructor
    case failures =>
      rw [Journal.failures_of_failed notices, List.length_append, hfailures, failed]
      rfl
    case forming => intro h; rw [failed] at h; exact absurd h (by simp)
    case ready => intro h; rw [failed] at h; exact absurd h (by simp)
    case signals => rw [hsignals]; exact hnode.signals
    case order =>
      rw [notices, List.pairwise_append]
      refine ⟨hnode.order, List.pairwise_singleton _ _, fun first _ second hsecond _ => ?_⟩
      rw [List.mem_singleton.1 hsecond]
      simp

theorem reported_performAll (transitions : List Transition) (h : node.Reported) :
    (node.performAll backend transitions).Reported := by
  induction transitions generalizing node with
  | nil => exact h
  | cons transition rest ih => exact ih ((node.reports_perform backend transition).reported h)

end Node

end MeshFormation
