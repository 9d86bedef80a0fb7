import MeshFormation.Proofs.Router.Failure
import MeshFormation.Proofs.Router.Readiness

/-!
# What an event is answered

A router answers an event with an error in two cases only. If the event breaks the delivery
contract, the router fails, and it tells its delegate of the same violation that it answers. If the
profile does not know the event, nothing happens. A refused call, a lost channel or a lost
connection is told to the delegate and not answered. So an answer can be read off the notice, and
the notice off the answer.
-/

namespace MeshFormation

/-- The kind of an event that only some profiles handle. -/
def Event.optional? : Event → Option OptionalEvent
  | .outerAnnounce _ _ => some .outerAnnounce
  | .network _ => some .networkLink
  | _ => none

/-- The one profile that handles such an event. -/
def OptionalEvent.profile : OptionalEvent → Profile
  | outerAnnounce => .cube
  | networkLink => .hypercube

/-- Whether a notice tells of a broken delivery contract. -/
def Notice.isViolation : Notice → Bool
  | .failed (.protocolViolation _) => true
  | _ => false

namespace Node

variable {node middle next : Node} {backend : Backend} {kind : Call → Prop} {accepted : Bool}
  {reason : FailureReason}

/-- Since the first node, the second one has told its delegate of no broken contract. -/
def Excuses (node next : Node) : Prop :=
  ∃ told, next.journal.notices = node.journal.notices ++ told ∧
    ∀ notice ∈ told, notice.isViolation = false

namespace Excuses

theorem nothing (h : next.journal.notices = node.journal.notices) : node.Excuses next :=
  ⟨[], by simpa using h, by simp⟩

theorem refl (node : Node) : node.Excuses node := .nothing rfl

theorem after (h : middle.Excuses next) (hnotices : middle.journal.notices = node.journal.notices) :
    node.Excuses next := by
  obtain ⟨told, htold, hkind⟩ := h
  exact ⟨told, by rw [htold, hnotices], hkind⟩

theorem of_notice {notice : Notice} (hnotice : notice.isViolation = false)
    (h : next.journal.notices = node.journal.notices ++ [notice]) : node.Excuses next :=
  ⟨[notice], h, by simpa using hnotice⟩

/-- What was told last is then no violation. -/
theorem not_violation {violation : Violation} (h : node.Excuses next) :
    next.journal.notices ≠ node.journal.notices ++ [.failed (.protocolViolation violation)] := by
  obtain ⟨told, htold, hkind⟩ := h
  intro hnotices
  obtain rfl := List.append_cancel_left (htold.symm.trans hnotices)
  exact absurd (hkind _ List.mem_cons_self) (by simp [Notice.isViolation])

end Excuses

theorem notices_fail (hworking : node.isFailed = false) (reason : FailureReason) :
    (node.fail reason).journal.notices = node.journal.notices ++ [.failed reason] := by
  unfold fail
  split
  · rename_i h
    exact absurd (Progress.enter?_failed_eq_none_iff.1 h) (Bool.eq_false_iff.1 hworking)
  · rfl

theorem excuses_fail (h : (Notice.failed reason).isViolation = false) (node : Node) :
    node.Excuses (node.fail reason) := by
  unfold fail
  split
  · exact .refl node
  · exact .of_notice h rfl

theorem Calls.excuses (h : Calls kind node (next, accepted)) : node.Excuses next := by
  cases h with
  | accepted calls => exact .nothing rfl
  | refused calls => exact (excuses_fail rfl _).after rfl

theorem Signals.excuses (h : node.Signals next) : node.Excuses next := by
  cases h with
  | idle => exact .refl node
  | signalled =>
    have hready : Notice.ready.isViolation = false := rfl
    exact .of_notice hready rfl

theorem Locks.excuses (h : node.Locks next) : node.Excuses next := by
  cases h with
  | idle => exact .refl node
  | again => exact node.signals_signalReadiness.excuses
  | accepted => exact (signals_signalReadiness _).excuses.after rfl
  | refused => exact (excuses_fail rfl _).after rfl

end Node

theorem Forwarding.Binds.excuses {forwarding after : Forwarding} {node next : Node}
    (h : forwarding.Binds node after next) : node.Excuses next := by
  cases h with
  | inside | across => exact .refl node
  | raised => exact .nothing rfl

namespace Router

variable {router next start : Router} {backend : Backend} {event : Event} {violation : Violation}
  {result : Except RouterError Outbox}

theorem excuses_proceed (router : Router) (backend : Backend) :
    router.node.Excuses (router.proceed backend).node := by
  unfold proceed
  split
  · exact .refl _
  split
  · exact (router.node.locks_lockWhenComplete backend).excuses
  · obtain ⟨accepted, hcalls⟩ := router.forwarding.calls_runRules router.node backend
    exact hcalls.excuses

/-- What an event leads to: an answer without a word about the contract, the same violation in the
answer and in the notice, or nothing at all because the profile does not know the event. -/
inductive Answers (router : Router) (event : Event) (next : Router) :
    Except RouterError Outbox → Prop where
  | fine {outbox : Outbox} (excuses : router.node.Excuses next.node) :
      Answers router event next (.ok outbox)
  | violation {violation : Violation} (failed : next.phase = .failed)
      (notices : next.node.journal.notices =
        router.node.journal.notices ++ [.failed (.protocolViolation violation)]) :
      Answers router event next (.error (.protocolViolation router.rank violation))
  | unsupported {kind : OptionalEvent} (same : next = router)
      (optional : event.optional? = some kind)
      (other : router.forwarding.profile ≠ kind.profile) :
      Answers router event next (.error (.unsupported kind router.forwarding.profile))

/-- A failure for a violation, from a node that works and has told its delegate no more than the
router. -/
theorem Answers.of_fail {node : Node} {forwarding : Forwarding} (hworking : node.isFailed = false)
    (hnotices : node.journal.notices = router.node.journal.notices) :
    router.Answers event ⟨node.fail (.protocolViolation violation), forwarding⟩
      (.error (.protocolViolation router.rank violation)) := by
  apply Answers.violation
  · exact Node.isFailed_iff.1 (Node.isFailed_fail _ _)
  · rw [← hnotices]
    exact Node.notices_fail hworking _

theorem Step.answers (h : router.Step backend event next result)
    (hworking : router.node.isFailed = false) (hevent : ∀ reason, event ≠ .failure reason) :
    router.Answers event next result := by
  cases h with
  | unheard profile => exact .unsupported rfl rfl profile
  | unlinked profile => exact .unsupported rfl rfl profile
  | repeated | free | live => exact .fine (.refl _)
  | @rejected known =>
    obtain ⟨accepted, hcalls⟩ := router.node.calls_refuseChannel backend known.channel
    exact .fine hcalls.excuses
  | unestablished admits refused =>
    exact .fine ((Node.calls_of_establish refused).excuses.after rfl)
  | @bound known node admits accepted =>
    obtain ⟨made, rfl, -⟩ := (Node.calls_of_establish accepted).exists_of_accepted
    have hbinds := router.forwarding.binds_channelBound
      ((router.node.bind known.channel known.peer).attempting made) known
    exact .fine (hbinds.excuses.after rfl)
  | lost => exact .fine ((Node.excuses_fail rfl _).after rfl)
  | broken breaks =>
    cases breaks with
    | connection | network => exact .fine (Node.excuses_fail rfl _)
    | failure => exact absurd rfl (hevent _)
  | violated | surplus | surplusLink => exact .of_fail hworking rfl
  | linked => exact .fine ((Node.signals_signalReadiness _).excuses.after rfl)
  | absorbed absorbs =>
    exact .fine ((excuses_proceed _ _).after (congrArg Journal.notices absorbs.journal))

namespace Answers

/-- A violation is answered exactly when it is the one thing that the delegate was told. -/
theorem violation_iff {rank : Rank} (h : router.Answers event next result)
    (hworking : router.phase ≠ .failed) :
    result = .error (.protocolViolation rank violation) ↔
      rank = router.rank ∧ next.phase = .failed ∧ next.node.journal.notices =
        router.node.journal.notices ++ [.failed (.protocolViolation violation)] := by
  cases h with
  | fine excuses => exact iff_of_false (by simp) fun h => excuses.not_violation h.2.2
  | violation failed notices =>
    constructor
    · intro hresult
      obtain ⟨rfl, rfl⟩ : router.rank = rank ∧ _ = violation := by simpa using hresult
      exact ⟨rfl, failed, notices⟩
    · rintro ⟨rfl, -, htold⟩
      have hsame := List.append_cancel_left (notices.symm.trans htold)
      simpa using hsame
  | unsupported same => exact iff_of_false (by simp) fun h => hworking (same ▸ h.2.1)

theorem of_unsupported {kind : OptionalEvent} {profile : Profile}
    (h : router.Answers event next (.error (.unsupported kind profile))) :
    next = router ∧ profile = router.forwarding.profile ∧ event.optional? = some kind ∧
      profile ≠ kind.profile := by
  cases h with
  | unsupported same optional other => exact ⟨same, rfl, optional, other⟩

theorem exists_ok (h : router.Answers event next result)
    (hviolation : ∀ {rank violation}, result ≠ .error (.protocolViolation rank violation))
    (hunsupported : ∀ {kind profile}, result ≠ .error (.unsupported kind profile)) :
    ∃ outbox, result = .ok outbox := by
  cases h with
  | fine => exact ⟨_, rfl⟩
  | violation => exact absurd rfl hviolation
  | unsupported => exact absurd rfl hunsupported

end Answers

/-- An event of a kind that the profile does not handle leaves a working router as it is. -/
theorem handle_of_optional {kind : OptionalEvent} (hworking : router.node.isFailed = false)
    (hoptional : event.optional? = some kind) (hother : router.forwarding.profile ≠ kind.profile) :
    router.handle backend event =
      (router, .error (.unsupported kind router.forwarding.profile)) := by
  obtain ⟨node, forwarding⟩ := router
  unfold handle
  rw [if_neg (by simp [hworking])]
  cases event with
  | outerAnnounce announcer chassis =>
    obtain rfl := Option.some.inj hoptional
    cases forwarding with
    | cube rules => exact absurd rfl hother
    | pair | hypercube => rfl
  | network changed =>
    obtain rfl := Option.some.inj hoptional
    cases forwarding with
    | hypercube rules => exact absurd rfl hother
    | pair | cube => rfl
  | _ => exact absurd hoptional (by simp [Event.optional?])

/-- The answer to an event and what the event has done say the same. -/
structure AnswersByContract (router : Router) (backend : Backend) (event : Event) : Prop where
  violation : ∀ {rank violation},
    (router.handle backend event).2 = .error (.protocolViolation rank violation) ↔
      rank = router.rank ∧ router.phase ≠ .failed ∧
        (router.handle backend event).1.phase = .failed ∧
          (router.handle backend event).1.node.journal.notices =
            router.node.journal.notices ++ [.failed (.protocolViolation violation)]
  unsupported : ∀ {kind profile},
    (router.handle backend event).2 = .error (.unsupported kind profile) ↔
      profile = router.forwarding.profile ∧ router.phase ≠ .failed ∧
        event.optional? = some kind ∧ profile ≠ kind.profile
  unchanged : ∀ {kind profile},
    (router.handle backend event).2 = .error (.unsupported kind profile) →
      (router.handle backend event).1 = router
  otherwise : (∀ {rank violation},
      (router.handle backend event).2 ≠ .error (.protocolViolation rank violation)) →
    (∀ {kind profile}, (router.handle backend event).2 ≠ .error (.unsupported kind profile)) →
      ∃ outbox, (router.handle backend event).2 = .ok outbox

/-- Whatever state a router is in, and whatever its backend refuses, every event but a report of a
failure is answered by the contract. -/
theorem answersByContract_handle (router : Router) (backend : Backend)
    (hevent : ∀ reason, event ≠ .failure reason) : router.AnswersByContract backend event := by
  cases hfailed : router.node.isFailed with
  | true =>
    have hphase : router.phase = .failed := Node.isFailed_iff.1 hfailed
    have hhandle := handle_of_isFailed hfailed backend event
    constructor <;> simp [hhandle, hphase]
  | false =>
    have hphase : router.phase ≠ .failed := fun hphase =>
      Bool.eq_false_iff.1 hfailed (Node.isFailed_iff.2 hphase)
    have hanswers := (step_handle backend event hfailed).answers hfailed hevent
    constructor
    case violation =>
      intro rank violation
      rw [hanswers.violation_iff hphase]
      exact and_congr_right fun _ => (and_iff_right hphase).symm
    case unsupported =>
      intro kind profile
      constructor
      · intro hresult
        obtain ⟨-, hprofile, hoptional, hother⟩ := (hresult ▸ hanswers).of_unsupported
        exact ⟨hprofile, hphase, hoptional, hother⟩
      · rintro ⟨rfl, -, hoptional, hother⟩
        rw [handle_of_optional hfailed hoptional hother]
    case unchanged =>
      intro kind profile hresult
      exact (hresult ▸ hanswers).of_unsupported.1
    case otherwise => exact hanswers.exists_ok

/-- A cube router that is told of a relay before it knows a route answers the violation of which it
tells its delegate, and it does not know network links. -/
theorem answersByContract_handle_eight : ∃ topology start,
    Topology.ofMembers (Layout.members 8) 0 .auto = .ok topology ∧
      (create .cube topology).2 = .ok start ∧
        (start.handle .accepting (.forward 1 2)).2 =
          .error (.protocolViolation 0 (.forwardBeforeRoute 1)) ∧
        (start.handle .accepting (.network ⟨1, true⟩)).2 =
          .error (.unsupported .networkLink .cube) ∧
        start.AnswersByContract .accepting (.forward 1 2) ∧
        start.AnswersByContract .accepting (.network ⟨1, true⟩) := by
  obtain ⟨topology, start, hvalid, hcreate, hforward, hnetwork⟩ : ∃ topology start,
      Topology.ofMembers (Layout.members 8) 0 .auto = .ok topology ∧
        (create .cube topology).2 = .ok start ∧
          (start.handle .accepting (.forward 1 2)).2 =
            .error (.protocolViolation 0 (.forwardBeforeRoute 1)) ∧
          (start.handle .accepting (.network ⟨1, true⟩)).2 =
            .error (.unsupported .networkLink .cube) :=
    exists_created (by decide +kernel)
  exact ⟨topology, start, hvalid, hcreate, hforward, hnetwork,
    answersByContract_handle start .accepting nofun,
    answersByContract_handle start .accepting nofun⟩

end Router

end MeshFormation
