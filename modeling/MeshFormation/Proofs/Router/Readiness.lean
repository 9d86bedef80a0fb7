import MeshFormation.Layout
import MeshFormation.Proofs.Node.Reports
import MeshFormation.Proofs.Router.Start
import MeshFormation.Proofs.Router.Step
import Mathlib.Data.List.Induction

/-!
# Readiness, lock and counters

Between two events the phase and the lock of a working router can be read off its counts: it is
locked once nothing is outstanding in the mesh, and ready once nothing is outstanding at all. Within
an event only one half holds, no lock and no readiness too early, and locking and signalling give
the other.
-/

namespace MeshFormation

namespace Expected

variable {expected next : Expected} {counter : Counter}

theorem meshDone_iff : expected.meshDone = true ↔ expected.rx = 0 ∧ expected.tx = 0 := by
  simp [meshDone]

theorem allDone_iff :
    expected.allDone = true ↔ expected.meshDone = true ∧ expected.network = 0 := by
  simp [allDone]

theorem le_of_complete (h : expected.complete counter = .ok next) :
    next.rx ≤ expected.rx ∧ next.tx ≤ expected.tx ∧ next.network ≤ expected.network := by
  have hcount := count_of_complete h
  have hrx := hcount .rx
  have htx := hcount .tx
  have hnetwork := hcount .network
  simp only [count] at hrx htx hnetwork
  omega

theorem meshDone_of_complete (h : expected.complete counter = .ok next)
    (hdone : expected.meshDone = true) : next.meshDone = true := by
  have hle := le_of_complete h
  rw [meshDone_iff] at hdone ⊢
  omega

theorem allDone_of_complete (h : expected.complete counter = .ok next)
    (hdone : expected.allDone = true) : next.allDone = true := by
  have hle := le_of_complete h
  rw [allDone_iff] at hdone ⊢
  exact ⟨meshDone_of_complete h hdone.1, by omega⟩

/-- Network links do not belong to the mesh. -/
theorem meshDone_of_network (h : expected.complete .network = .ok next) :
    next.meshDone = expected.meshDone := by
  have hrx := count_of_complete h .rx
  have htx := count_of_complete h .tx
  simp only [count] at hrx htx
  simp_all [meshDone]

end Expected

namespace Progress

variable {progress next : Progress} {counter : Counter}

/-- Neither locked nor ready too early. -/
structure Orderly (progress : Progress) : Prop where
  mesh : progress.locked = true → progress.expected.meshDone = true
  ready : progress.phase = .ready → progress.expected.allDone = true

/-- Locked and ready at the right time. -/
structure Settled (progress : Progress) : Prop extends Orderly progress where
  lock : progress.isFailed = false → progress.expected.meshDone = true → progress.locked = true
  signal : progress.isFailed = false → progress.expected.allDone = true → progress.phase = .ready

theorem isFailed_iff : progress.isFailed = true ↔ progress.phase = .failed := by
  simp [isFailed]

theorem Orderly.settled_of_isFailed (h : progress.Orderly) (hfailed : progress.isFailed = true) :
    progress.Settled :=
  ⟨h, fun hworking => absurd hfailed (by simp [hworking]),
    fun hworking => absurd hfailed (by simp [hworking])⟩

/-- A failure settles all: nothing is promised of a failed node but that it did not lock too
early. -/
theorem Orderly.settled_failed (h : progress.Orderly) :
    Settled { progress with phase := .failed } := by
  apply Orderly.settled_of_isFailed
  · exact ⟨h.mesh, fun hready => absurd hready (by simp)⟩
  · rfl

theorem Orderly.complete (h : progress.Orderly) (hcounted : progress.complete counter = .ok next) :
    next.Orderly := by
  obtain ⟨expected, hexpected, rfl⟩ := exists_expected_of_complete hcounted
  constructor
  case mesh => exact fun hlocked => Expected.meshDone_of_complete hexpected (h.mesh hlocked)
  case ready => exact fun hready => Expected.allDone_of_complete hexpected (h.ready hready)

theorem Settled.locked_iff (h : progress.Settled) (hworking : progress.isFailed = false) :
    progress.locked = true ↔ progress.expected.rx = 0 ∧ progress.expected.tx = 0 := by
  rw [← Expected.meshDone_iff]
  exact ⟨h.mesh, h.lock hworking⟩

theorem Settled.ready_iff (h : progress.Settled) (hworking : progress.isFailed = false) :
    progress.phase = .ready ↔
      progress.expected.rx = 0 ∧ progress.expected.tx = 0 ∧ progress.expected.network = 0 := by
  rw [← and_assoc, ← Expected.meshDone_iff, ← Expected.allDone_iff]
  exact ⟨h.ready, h.signal hworking⟩

theorem Settled.isReady_iff (h : progress.Settled) :
    progress.isReady = true ↔ progress.phase = .ready := by
  simp only [isReady, Bool.and_eq_true, Bool.not_eq_true']
  constructor
  · rintro ⟨hworking, hdone⟩
    exact h.signal hworking hdone
  · intro hready
    exact ⟨by simp [isFailed, hready], h.ready hready⟩

theorem Settled.phase_of_not_locked (h : progress.Settled) (hworking : progress.isFailed = false)
    (hunlocked : progress.locked = false) : progress.phase = .forming := by
  cases hphase : progress.phase with
  | forming => rfl
  | ready =>
    have hdone := (Expected.allDone_iff.1 (h.ready hphase)).1
    exact absurd (h.lock hworking hdone) (by simp [hunlocked])
  | failed => exact absurd (isFailed_iff.2 hphase) (by simp [hworking])

end Progress

namespace Node

variable {node next : Node} {kind : Call → Prop} {accepted : Bool}

theorem settled_fail (h : node.progress.Orderly) (reason : FailureReason) :
    (node.fail reason).progress.Settled := by
  rw [progress_fail]
  exact h.settled_failed

theorem Calls.settled (h : node.Calls kind (next, accepted)) (hnode : node.progress.Settled) :
    next.progress.Settled := by
  rcases h.progress with hprogress | hprogress
  · rw [hprogress]
    exact hnode
  · rw [hprogress]
    exact hnode.settled_failed

theorem Signals.settled (h : node.Signals next) (hnode : node.progress.Orderly)
    (hlock : node.isFailed = false → node.progress.expected.meshDone = true →
      node.progress.locked = true) : next.progress.Settled := by
  cases h with
  | idle waits =>
    apply Progress.Settled.mk hnode hlock
    intro hworking hdone
    exact waits hworking (hlock hworking (Expected.allDone_iff.1 hdone).1) hdone
  | signalled forming locked done =>
    constructor
    case toOrderly => exact ⟨hnode.mesh, fun _ => done⟩
    case lock => exact fun _ _ => locked
    case signal => exact fun _ _ => rfl

/-- Once the mesh of an orderly node is complete, the attempt to lock settles it. -/
theorem Locks.settled (h : node.Locks next) (hnode : node.progress.Orderly)
    (hdone : node.progress.expected.meshDone = true) : next.progress.Settled := by
  cases h with
  | idle waits =>
    apply hnode.settled_of_isFailed
    exact waits.resolve_right (by simp [hdone])
  | again working done locked =>
    exact node.signals_signalReadiness.settled hnode fun _ _ => locked
  | accepted working done unlocked =>
    apply (signals_signalReadiness _).settled
    · exact ⟨fun _ => hdone, hnode.ready⟩
    · exact fun _ _ => rfl
  | refused working done unlocked => exact settled_fail (by exact hnode) _

/-! ## Counts -/

@[simp] theorem expected_fail (node : Node) (reason : FailureReason) :
    (node.fail reason).progress.expected = node.progress.expected := by
  rw [progress_fail]

theorem Calls.expected (h : node.Calls kind (next, accepted)) :
    next.progress.expected = node.progress.expected := by
  rcases h.progress with hprogress | hprogress <;> rw [hprogress]

theorem Signals.expected (h : node.Signals next) :
    next.progress.expected = node.progress.expected := by
  cases h <;> rfl

theorem Locks.expected (h : node.Locks next) :
    next.progress.expected = node.progress.expected := by
  cases h with
  | idle => rfl
  | again => exact node.signals_signalReadiness.expected
  | accepted => exact (signals_signalReadiness _).expected
  | refused => exact expected_fail _ _

end Node

theorem Forwarding.Binds.reports {forwarding after : Forwarding} {node next : Node}
    (h : forwarding.Binds node after next) : node.Reports next := by
  cases h with
  | inside | across => exact .refl node
  | raised => exact .nothing rfl rfl

namespace Router

variable {router middle next start : Router} {backend : Backend} {event : Event} {outbox : Outbox}
  {result : Except RouterError Outbox} {profile : Profile} {topology : Topology}

theorem settled_proceed (router : Router) (backend : Backend) (h : router.node.progress.Orderly) :
    (router.proceed backend).node.progress.Settled := by
  unfold proceed
  split
  · rename_i hfailed
    exact h.settled_of_isFailed hfailed
  split
  · rename_i hdone
    exact (router.node.locks_lockWhenComplete backend).settled h hdone
  · rename_i hunfinished
    obtain ⟨accepted, hcalls⟩ := router.forwarding.calls_runRules router.node backend
    apply hcalls.settled
    constructor
    case toOrderly => exact h
    case lock => exact fun _ hdone => absurd hdone hunfinished
    case signal => exact fun _ hall => absurd (Expected.allDone_iff.1 hall).1 hunfinished

theorem expected_proceed (router : Router) (backend : Backend) :
    (router.proceed backend).expected = router.expected := by
  unfold proceed
  split
  · rfl
  split
  · exact (router.node.locks_lockWhenComplete backend).expected
  · obtain ⟨accepted, hcalls⟩ := router.forwarding.calls_runRules router.node backend
    exact hcalls.expected

theorem crossPartner?_proceed (router : Router) (backend : Backend) :
    (router.proceed backend).forwarding.crossPartner? = router.forwarding.crossPartner? := by
  rw [forwarding_proceed, Forwarding.crossPartner?_marked]

/-- The second router has the partner of the first one and expects no further transmits. -/
structure Confines (router next : Router) : Prop where
  partner : next.forwarding.crossPartner? = router.forwarding.crossPartner?
  transmits : next.expected.tx ≤ router.expected.tx

theorem Confines.of_expected
    (hpartner : next.forwarding.crossPartner? = router.forwarding.crossPartner?)
    (hexpected : next.expected = router.expected) : router.Confines next :=
  ⟨hpartner, Nat.le_of_eq (by rw [hexpected])⟩

theorem tx_le_of_complete {progress : Progress} {counter : Counter}
    (h : router.node.progress.complete counter = .ok progress) :
    progress.expected.tx ≤ router.expected.tx := by
  obtain ⟨expected, hexpected, rfl⟩ := Progress.exists_expected_of_complete h
  exact (Expected.le_of_complete hexpected).2.1

theorem Absorbs.orderly (h : router.Absorbs event middle outbox)
    (hrouter : router.node.progress.Orderly) : middle.node.progress.Orderly := by
  cases h with
  | receive recorded counted => exact hrouter.complete counted
  | transmit recorded counted informed =>
    rw [(of_transmitCompleted informed).1]
    exact hrouter.complete counted
  | forward => exact hrouter
  | announce => exact hrouter

theorem Absorbs.confines (h : router.Absorbs event middle outbox) : router.Confines middle := by
  cases h with
  | receive recorded counted => exact ⟨rfl, tx_le_of_complete counted⟩
  | transmit recorded counted informed =>
    obtain ⟨hnode, hpartner⟩ := of_transmitCompleted informed
    constructor
    case partner => exact hpartner
    case transmits =>
      rw [expected, hnode]
      exact tx_le_of_complete counted
  | forward => exact ⟨rfl, Nat.le_refl _⟩
  | announce cube =>
    apply Confines.of_expected
    · rw [cube]
      rfl
    · rfl

/-! ## Settled routers -/

theorem working_of_phase (h : router.phase ≠ .failed) : router.node.isFailed = false :=
  Bool.eq_false_iff.2 fun hfailed => h (Node.isFailed_iff.1 hfailed)

theorem phase_of_working (h : router.node.isFailed = false) : router.phase ≠ .failed :=
  fun hfailed => Bool.false_ne_true (h.symm.trans (Node.isFailed_iff.2 hfailed))

/-- A router between two events: locked and ready at the right time, and with a count of transmits
that is far from the end of its range. -/
structure Settled (router : Router) : Prop where
  progress : router.node.progress.Settled
  room : router.expected.tx ≤
    partitionSize - 1 + if router.forwarding.crossPartner?.isSome then outerExtraTx else 0

theorem Settled.of_confines (h : router.Settled) (hconfines : router.Confines next)
    (hprogress : next.node.progress.Settled) : next.Settled := by
  refine ⟨hprogress, ?_⟩
  have hroom := h.room
  have htransmits := hconfines.transmits
  rw [hconfines.partner]
  omega

theorem settled_create (h : (create profile topology).2 = .ok start) : start.Settled := by
  obtain ⟨hpartner, hosts, hnode⟩ := create_eq_ok h
  have hopen : topology.expected.meshDone = false := by
    cases hprofile : topology.profile <;>
      simp [Topology.expected, Expected.meshDone, Topology.receiveCount, hprofile, partitionSize]
  constructor
  case room =>
    rw [hpartner, expected, hnode]
    cases hprofile : topology.profile <;>
      simp [Node.start, Progress.start, Topology.expected, Topology.transmitCount, hprofile,
        partitionSize, chassisSize]
  case progress =>
    rw [hnode]
    constructor
    case toOrderly => exact ⟨fun hlocked => absurd hlocked (by simp [Node.start, Progress.start]),
      fun hready => absurd hready (by simp [Node.start, Progress.start])⟩
    case lock => exact fun _ hdone => absurd hdone (by simp [Node.start, Progress.start, hopen])
    case signal =>
      exact fun _ hall => absurd (Expected.allDone_iff.1 hall).1
        (by simp [Node.start, Progress.start, hopen])

/-- A raise of the count of transmits keeps a node from being locked or ready. -/
theorem settled_raiseTransmits {progress : Progress} {extra : Nat} (h : progress.Settled)
    (hunlocked : progress.locked = false) (hpos : 0 < (progress.raiseTransmits extra).expected.tx) :
    (progress.raiseTransmits extra).Settled := by
  have hopen : (progress.raiseTransmits extra).expected.meshDone = true → False := fun hdone => by
    have htx := (Expected.meshDone_iff.1 hdone).2
    omega
  constructor
  case lock => exact fun _ hdone => absurd hdone hopen
  case signal => exact fun _ hall => absurd (Expected.allDone_iff.1 hall).1 hopen
  case toOrderly =>
    constructor
    case mesh => exact fun hlocked => absurd hlocked (by simp [Progress.raiseTransmits, hunlocked])
    case ready =>
      intro hready
      have hworking : progress.isFailed = false := by
        have hphase : progress.phase = .ready := hready
        simp [Progress.isFailed, hphase]
      have hforming := h.phase_of_not_locked hworking hunlocked
      exact absurd (hforming.symm.trans hready) (by simp)

/-- An event leaves a working router settled with the role that it had and no further transmits to
expect, unless it is a channel that passes all checks. -/
theorem Step.settles (hrouter : router.node.progress.Settled)
    (hworking : router.node.isFailed = false) (h : router.Step backend event next result) :
    (router.Confines next ∧ next.node.progress.Settled) ∨ ∃ known node, router.Admits known ∧
      node.progress = router.node.progress ∧
        router.forwarding.Binds node next.forwarding next.node := by
  have hfail : ∀ {node : Node} {reason : FailureReason} {forwarding : Forwarding},
      node.progress = router.node.progress →
        forwarding.crossPartner? = router.forwarding.crossPartner? →
          router.Confines ⟨node.fail reason, forwarding⟩ ∧ (node.fail reason).progress.Settled := by
    intro node reason forwarding hprogress hpartner
    refine ⟨.of_expected hpartner ?_, Node.settled_fail (hprogress ▸ hrouter.toOrderly) reason⟩
    rw [expected, Node.expected_fail, hprogress]
    rfl
  cases h with
  | unheard | unlinked | repeated | free | live => exact .inl ⟨.of_expected rfl rfl, hrouter⟩
  | @rejected known =>
    obtain ⟨accepted, hcalls⟩ := router.node.calls_refuseChannel backend known.channel
    exact .inl ⟨.of_expected rfl hcalls.expected, hcalls.settled hrouter⟩
  | @unestablished known node admits refused =>
    have hcalls := Node.calls_of_establish refused
    exact .inl ⟨.of_expected rfl hcalls.expected, hcalls.settled hrouter⟩
  | @bound known node admits accepted =>
    obtain ⟨made, rfl, -⟩ := (Node.calls_of_establish accepted).exists_of_accepted
    exact .inr ⟨known, (router.node.bind known.channel known.peer).attempting made, admits, rfl,
      Forwarding.binds_channelBound _ _ _⟩
  | lost | broken | violated | surplus => exact .inl (hfail rfl rfl)
  | surplusLink hypercube => exact .inl (hfail rfl (by rw [hypercube]; rfl))
  | @linked changed rules progress hypercube requested connected new counted =>
    apply Or.inl
    have hsignals := Node.signals_signalReadiness { router.node with progress }
    obtain ⟨expected, hexpected, hnext⟩ := Progress.exists_expected_of_complete counted
    constructor
    case left =>
      constructor
      case partner =>
        rw [hypercube]
        rfl
      case transmits =>
        rw [Router.expected, hsignals.expected]
        exact tx_le_of_complete counted
    case right =>
      apply hsignals.settled (hrouter.complete counted)
      intro _ hdone
      rw [hnext, Expected.meshDone_of_network hexpected] at hdone
      rw [hnext]
      exact hrouter.lock hworking hdone
  | absorbed absorbs =>
    have hmiddle := absorbs.confines
    apply Or.inl
    constructor
    case left =>
      constructor
      case partner => exact (crossPartner?_proceed _ _).trans hmiddle.partner
      case transmits =>
        rw [expected_proceed]
        exact hmiddle.transmits
    case right => exact settled_proceed _ _ (absorbs.orderly hrouter.toOrderly)

theorem settled_step (hrouter : router.Settled) (hworking : router.node.isFailed = false)
    (h : router.Step backend event next result) : next.Settled := by
  rcases h.settles hrouter.progress hworking with ⟨hconfines, hprogress⟩ |
    ⟨known, node, hadmits, hprogress, hbinds⟩
  · exact hrouter.of_confines hconfines hprogress
  obtain ⟨nextNode, nextForwarding⟩ := next
  have hroom := hrouter.room
  have hunlocked := Node.not_locked_of_fresh hadmits.fresh
  simp only [expected, ← hprogress] at hroom hunlocked
  have hsettled := hrouter.progress
  rw [← hprogress] at hsettled
  cases hbinds with
  | inside partner => exact ⟨hsettled, by rw [partner]; exact hroom⟩
  | across unset partner =>
    rw [unset] at hroom
    exact ⟨hsettled, Nat.le_trans hroom (by simp)⟩
  | raised unset partner =>
    rw [unset] at hroom
    have hraised : (node.progress.raiseTransmits outerExtraTx).expected.tx =
        node.progress.expected.tx + outerExtraTx := by
      apply Nat.mod_eq_of_lt
      simp only [partitionSize, outerExtraTx, UInt64.size, Option.isSome_none, Bool.false_eq_true,
        if_false] at hroom ⊢
      omega
    constructor
    case progress =>
      apply settled_raiseTransmits hsettled hunlocked
      rw [hraised, outerExtraTx]
      omega
    case room =>
      change (node.progress.raiseTransmits outerExtraTx).expected.tx ≤ _
      rw [hraised, partner]
      simpa using hroom

theorem settled_run (h : (create profile topology).2 = .ok start) (backend : Backend)
    (events : List Event) : (start.run backend events).Settled :=
  run_invariant (settled_create h)
    (fun hrouter hworking hstep => settled_step hrouter hworking hstep) events

/-! ## The ready signal -/

theorem reports_proceed (router : Router) (backend : Backend) :
    router.node.Reports (router.proceed backend).node := by
  unfold proceed
  split
  · exact .refl _
  split
  · exact (router.node.locks_lockWhenComplete backend).reports
  · obtain ⟨accepted, hcalls⟩ := router.forwarding.calls_runRules router.node backend
    exact hcalls.reports

theorem Absorbs.phase (h : router.Absorbs event middle outbox) : middle.phase = router.phase := by
  cases h with
  | receive recorded counted => exact Progress.phase_of_complete counted
  | transmit recorded counted informed =>
    rw [phase, (of_transmitCompleted informed).1]
    exact Progress.phase_of_complete counted
  | forward => rfl
  | announce => rfl

theorem Step.reports (h : router.Step backend event next result) :
    router.node.Reports next.node := by
  cases h with
  | unheard | unlinked | repeated | free | live => exact .refl _
  | @rejected known =>
    obtain ⟨accepted, hcalls⟩ := router.node.calls_refuseChannel backend known.channel
    exact hcalls.reports
  | @unestablished known node admits refused =>
    have hcalls := Node.calls_of_establish refused
    exact hcalls.reports.after rfl rfl
  | @bound known node admits accepted =>
    obtain ⟨made, rfl, -⟩ := (Node.calls_of_establish accepted).exists_of_accepted
    have hbinds := router.forwarding.binds_channelBound
      ((router.node.bind known.channel known.peer).attempting made) known
    exact hbinds.reports.after rfl rfl
  | lost | broken | violated | surplus | surplusLink => exact (Node.reports_fail _ _).after rfl rfl
  | linked hypercube requested connected new counted =>
    exact (Node.signals_signalReadiness _).reports.after (Progress.phase_of_complete counted) rfl
  | absorbed absorbs =>
    exact (reports_proceed _ _).after absorbs.phase (congrArg Journal.notices absorbs.journal)

/-- Some state of the run up to here was ready. -/
def HasBeenReady (start : Router) (backend : Backend) (events : List Event) : Prop :=
  ∃ before, before <+: events ∧ (start.run backend before).phase = .ready

theorem hasBeenReady_nil : start.HasBeenReady backend [] ↔ start.phase = .ready := by
  simp [HasBeenReady, run]

theorem hasBeenReady_concat (events : List Event) (event : Event) :
    start.HasBeenReady backend (events ++ [event]) ↔
      start.HasBeenReady backend events ∨
        (start.run backend (events ++ [event])).phase = .ready := by
  constructor
  · rintro ⟨before, hprefix, hready⟩
    rcases List.prefix_concat_iff.1 hprefix with rfl | hprefix
    · exact .inr hready
    · exact .inl ⟨before, hprefix, hready⟩
  · rintro (⟨before, hprefix, hready⟩ | hready)
    · exact ⟨before, hprefix.trans (List.prefix_append _ _), hready⟩
    · exact ⟨_, List.prefix_rfl, hready⟩

theorem reported_create (h : (create profile topology).2 = .ok start) : start.node.Reported := by
  obtain ⟨-, hosts, hnode⟩ := create_eq_ok h
  have hready : start.node.journal.readySignals = 0 := by
    rw [hnode, Journal.readySignals, List.count_eq_zero]
    simp
  have hfailures : start.node.journal.failures = [] := by
    rw [hnode, Journal.failures, List.filterMap_map]
    exact List.filterMap_eq_nil_iff.2 fun _ _ => rfl
  have hphase : start.node.progress.phase = .forming := by
    rw [hnode]
    rfl
  constructor
  case failures => rw [hfailures, hphase]; rfl
  case forming => exact fun _ => hready
  case ready => exact fun h => absurd (hphase.symm.trans h) (by simp)
  case signals => omega
  case order =>
    rw [hnode, List.pairwise_map]
    exact List.pairwise_of_forall fun _ _ h => absurd h (by simp [Notice.isFailure])

theorem reported_run (h : (create profile topology).2 = .ok start) (backend : Backend)
    (events : List Event) : (start.run backend events).node.Reported :=
  run_invariant (reported_create h) (fun hrouter _ hstep => hstep.reports.reported hrouter) events

theorem reports_handle (router : Router) (backend : Backend) (event : Event) :
    router.node.Reports (router.handle backend event).1.node := by
  cases hfailed : router.node.isFailed with
  | true =>
    rw [handle_of_isFailed hfailed]
    exact .refl _
  | false => exact (step_handle backend event hfailed).reports

/-- The delegate hears of readiness when a run is ready for the first time. -/
theorem readySignals_run (h : (create profile topology).2 = .ok start) (backend : Backend)
    (events : List Event) :
    (start.HasBeenReady backend events → (start.run backend events).node.journal.readySignals = 1) ∧
      (¬start.HasBeenReady backend events →
        (start.run backend events).node.journal.readySignals = 0) := by
  induction events using List.reverseRecOn with
  | nil =>
    have hforming : start.phase = .forming := by
      obtain ⟨-, hosts, hnode⟩ := create_eq_ok h
      rw [phase, hnode]
      rfl
    rw [hasBeenReady_nil, hforming]
    exact ⟨fun hready => absurd hready (by simp), fun _ => (reported_create h).forming hforming⟩
  | append_singleton before event ih =>
    have hreported := reported_run h backend before
    have hreports := reports_handle (start.run backend before) backend event
    rw [hasBeenReady_concat, run_concat]
    cases hreports with
    | nothing hphase hnotices =>
      have hready : (start.HasBeenReady backend before ∨
          ((start.run backend before).handle backend event).1.phase = .ready) ↔
            start.HasBeenReady backend before := by
        apply or_iff_left_of_imp
        exact fun hready => ⟨before, List.prefix_rfl, hphase.symm.trans hready⟩
      rw [hready, Journal.readySignals, hnotices]
      exact ih
    | readiness hforming hready hnotices =>
      rw [Journal.readySignals_of_ready hnotices, hreported.forming hforming]
      exact ⟨fun _ => rfl, fun hnever => absurd (.inr hready) hnever⟩
    | failure hworking hfailed hnotices =>
      have hready : ¬((start.run backend before).handle backend event).1.phase = .ready := by
        rw [phase, hfailed]
        simp
      rw [Journal.readySignals_of_failed hnotices, or_iff_left hready]
      exact ih

/-! ## The state between two events -/

/-- Phase, lock and counts of a run agree, and the delegate was told that the ensemble is ready
exactly once if the run was ever ready. -/
structure Agrees (start : Router) (backend : Backend) (events : List Event) : Prop where
  locked : (start.run backend events).phase ≠ .failed →
    ((start.run backend events).node.progress.locked = true ↔
      (start.run backend events).expected.rx = 0 ∧ (start.run backend events).expected.tx = 0)
  ready : (start.run backend events).phase ≠ .failed →
    ((start.run backend events).phase = .ready ↔ (start.run backend events).expected.rx = 0 ∧
      (start.run backend events).expected.tx = 0 ∧ (start.run backend events).expected.network = 0)
  isReady : (start.run backend events).isReady = true ↔ (start.run backend events).phase = .ready
  mesh : (start.run backend events).node.progress.locked = true →
    (start.run backend events).expected.rx = 0 ∧ (start.run backend events).expected.tx = 0
  signalled : start.HasBeenReady backend events →
    (start.run backend events).node.journal.readySignals = 1
  unsignalled : ¬start.HasBeenReady backend events →
    (start.run backend events).node.journal.readySignals = 0

/-- Every run of a router, on any backend, keeps phase, lock and counts in agreement. -/
theorem agrees_run (h : (create profile topology).2 = .ok start) (backend : Backend)
    (events : List Event) : start.Agrees backend events := by
  have hsettled := (settled_run h backend events).progress
  obtain ⟨hsignalled, hunsignalled⟩ := readySignals_run h backend events
  have hworking : (start.run backend events).phase ≠ .failed →
      (start.run backend events).node.progress.isFailed = false := fun hphase =>
    Bool.eq_false_iff.2 fun hfailed => hphase (Progress.isFailed_iff.1 hfailed)
  constructor
  case locked => exact fun hphase => hsettled.locked_iff (hworking hphase)
  case ready => exact fun hphase => hsettled.ready_iff (hworking hphase)
  case isReady => exact hsettled.isReady_iff
  case mesh => exact fun hlocked => Expected.meshDone_iff.1 (hsettled.mesh hlocked)
  case signalled => exact hsignalled
  case unsignalled => exact hunsignalled

theorem agrees_run_pair : ∃ topology start,
    Topology.ofMembers (Layout.members 2) 0 .auto = .ok topology ∧
      (create .pair topology).2 = .ok start ∧
        (start.run .accepting [.channel ⟨3, 1, "p0-a", true⟩, .connection ⟨.tx, 3, 0, true⟩,
          .connection ⟨.rx, 3, 1, true⟩]).phase = .ready ∧
        start.Agrees .accepting [.channel ⟨3, 1, "p0-a", true⟩, .connection ⟨.tx, 3, 0, true⟩,
          .connection ⟨.rx, 3, 1, true⟩] := by
  have hrun : ((Topology.ofMembers (Layout.members 2) 0 .auto).toOption.bind fun topology =>
      (create .pair topology).2.toOption.map fun start =>
        (start.run .accepting [.channel ⟨3, 1, "p0-a", true⟩, .connection ⟨.tx, 3, 0, true⟩,
          .connection ⟨.rx, 3, 1, true⟩]).phase) = some .ready := by decide +kernel
  obtain ⟨topology, htopology, hrun⟩ := Option.bind_eq_some_iff.1 hrun
  obtain ⟨start, hstart, hready⟩ := Option.map_eq_some_iff.1 hrun
  have hcreate := eq_ok_of_toOption hstart
  exact ⟨topology, start, eq_ok_of_toOption htopology, hcreate, hready, agrees_run hcreate _ _⟩

end Router

end MeshFormation
