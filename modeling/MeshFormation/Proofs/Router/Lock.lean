import MeshFormation.Proofs.Router.Readiness

/-!
# Locking freezes the mesh

A router asks its backend to lock at most once: the attempt is made while it is unlocked, and it is
then locked or has failed. A locked router takes in no channel and runs no rule any more. What it
still does is to refuse channels, to learn routes, to wait for network links and to fail.
-/

namespace MeshFormation

theorem Call.ne_lock_of_isEstablish {call : Call} (h : call.isEstablish = true) : call ≠ .lock := by
  rintro rfl
  exact absurd h (by simp [isEstablish])

theorem Call.ne_lock_of_isDisable {call : Call} (h : call.isDisable = true) : call ≠ .lock := by
  rintro rfl
  exact absurd h (by simp [isDisable])

/-- The number of times that the backend was asked to lock. -/
def Journal.lockAttempts (journal : Journal) : Nat := journal.attempts.countP (·.call == .lock)

namespace Node

variable {node middle next : Node} {backend : Backend} {kind other : Call → Prop} {accepted : Bool}

/-- The second node asked only for calls of one kind since the first one, and is locked if that one
is. -/
structure Extends (kind : Call → Prop) (node next : Node) : Prop where
  asks : node.Asks kind next
  locked : next.progress.locked = node.progress.locked

namespace Extends

theorem quiet (hattempts : next.journal.attempts = node.journal.attempts)
    (hlocked : next.progress.locked = node.progress.locked) : node.Extends kind next :=
  ⟨.nothing hattempts, hlocked⟩

theorem refl (kind : Call → Prop) (node : Node) : node.Extends kind node := .quiet rfl rfl

theorem trans (h : node.Extends kind middle) (h' : middle.Extends kind next) :
    node.Extends kind next :=
  ⟨h.asks.trans h'.asks, h'.locked.trans h.locked⟩

theorem mono (h : node.Extends kind next) (hkind : ∀ call, kind call → other call) :
    node.Extends other next :=
  ⟨h.asks.mono hkind, h.locked⟩

end Extends

theorem Extends.fail (h : node.Extends kind middle) (reason : FailureReason) :
    node.Extends kind (middle.fail reason) :=
  h.trans (.quiet (attempts_fail middle reason) (by rw [progress_fail]))

theorem Calls.extends (h : node.Calls kind (next, accepted)) : node.Extends kind next := by
  refine ⟨h.asks, ?_⟩
  rcases h.progress with hprogress | hprogress <;> rw [hprogress]

theorem Signals.extends (h : node.Signals next) : node.Extends kind next := by
  cases h with
  | idle => exact .refl kind node
  | signalled => exact .quiet rfl rfl

theorem Locks.extends_of_locked (h : node.Locks next) (hlocked : node.progress.locked = true) :
    node.Extends kind next := by
  cases h with
  | idle => exact .refl kind node
  | again => exact node.signals_signalReadiness.extends
  | accepted _ _ unlocked | refused _ _ unlocked => exact absurd hlocked (by simp [unlocked])

/-! ## One attempt -/

/-- The backend was asked to lock at most once, and not yet if the node works and is unlocked. -/
structure LocksOnce (node : Node) : Prop where
  once : node.journal.lockAttempts ≤ 1
  fresh : node.isFailed = false → node.progress.locked = false → node.journal.lockAttempts = 0
  accepted : .lock ∈ node.journal.accepted ↔ node.progress.locked = true

theorem Extends.lockAttempts (h : node.Extends (· ≠ .lock) next) :
    next.journal.lockAttempts = node.journal.lockAttempts := by
  obtain ⟨made, hmade, hkind⟩ := h.asks
  have hnone : made.countP (·.call == .lock) = 0 := by
    apply List.countP_eq_zero.2
    intro attempt hmem
    simpa using hkind attempt hmem
  rw [Journal.lockAttempts, hmade, List.countP_append, hnone]
  rfl

theorem Extends.locksOnce (h : node.Extends (· ≠ .lock) next) (hworking : node.isFailed = false)
    (hnode : node.LocksOnce) : next.LocksOnce := by
  obtain ⟨made, hmade, hkind⟩ := h.asks
  constructor
  case once =>
    rw [h.lockAttempts]
    exact hnode.once
  case fresh =>
    intro _ hunlocked
    rw [h.lockAttempts]
    exact hnode.fresh hworking (h.locked.symm.trans hunlocked)
  case accepted =>
    rw [h.locked, ← hnode.accepted, Journal.mem_accepted_iff, Journal.mem_accepted_iff, hmade,
      List.mem_append]
    apply or_iff_left
    exact fun hmem => hkind _ hmem rfl

theorem lockAttempts_attempting (node : Node) (refusal : Option Refusal) :
    (node.attempting [⟨.lock, refusal⟩]).journal.lockAttempts = node.journal.lockAttempts + 1 := by
  rw [Journal.lockAttempts, attempting, List.countP_append]
  rfl

theorem Locks.locksOnce (h : node.Locks next) (hnode : node.LocksOnce) : next.LocksOnce := by
  cases h with
  | idle => exact hnode
  | again working done locked =>
    exact node.signals_signalReadiness.extends.locksOnce working hnode
  | accepted working done unlocked =>
    have hlocked :
        LocksOnce { node.attempting [⟨.lock, none⟩] with progress := node.progress.lock } := by
      have hcount := node.lockAttempts_attempting none
      rw [hnode.fresh working unlocked] at hcount
      constructor
      case once => exact Nat.le_of_eq hcount
      case fresh => exact fun _ hunlocked => absurd hunlocked (by simp [Progress.lock])
      case accepted =>
        apply iff_of_true
        · apply Journal.mem_accepted_iff.2
          exact List.mem_append_right _ List.mem_cons_self
        · rfl
    exact (signals_signalReadiness _).extends.locksOnce working hlocked
  | @refused refusal working done unlocked =>
    have hcount := node.lockAttempts_attempting (some refusal)
    rw [hnode.fresh working unlocked] at hcount
    constructor
    case once =>
      rw [Journal.lockAttempts, attempts_fail]
      exact Nat.le_of_eq hcount
    case fresh => exact fun hworking => absurd (hworking.symm.trans (isFailed_fail _ _)) (by simp)
    case accepted =>
      rw [progress_fail, Journal.mem_accepted_iff, attempts_fail, attempting, List.mem_append,
        ← Journal.mem_accepted_iff, hnode.accepted]
      simp

end Node

theorem Forwarding.Binds.extends {forwarding after : Forwarding} {node next : Node}
    {kind : Call → Prop} (h : forwarding.Binds node after next) : node.Extends kind next := by
  cases h with
  | inside | across => exact .refl kind node
  | raised => exact .quiet rfl rfl

namespace Router

variable {router middle next last start : Router} {backend : Backend} {event : Event}
  {outbox : Outbox} {result : Except RouterError Outbox} {profile : Profile} {topology : Topology}
  {kind : Call → Prop}

theorem Absorbs.locked (h : router.Absorbs event middle outbox) :
    middle.node.progress.locked = router.node.progress.locked := by
  cases h with
  | receive recorded counted => exact Progress.locked_of_complete counted
  | transmit recorded counted informed =>
    rw [(of_transmitCompleted informed).1]
    exact Progress.locked_of_complete counted
  | forward | announce => rfl

theorem Absorbs.extends (h : router.Absorbs event middle outbox) :
    router.node.Extends kind middle.node :=
  .quiet (congrArg Journal.attempts h.journal) h.locked

/-- A router that goes on tries to lock only once its mesh is complete. -/
theorem extends_or_locks_proceed (router : Router) (backend : Backend) :
    router.node.Extends (· ≠ .lock) (router.proceed backend).node ∨
      router.node.progress.expected.meshDone = true ∧
        (router.proceed backend).node = router.node.lockWhenComplete backend := by
  unfold proceed
  split
  · exact .inl (.refl _ _)
  split
  · rename_i hdone
    exact .inr ⟨hdone, rfl⟩
  · obtain ⟨accepted, hcalls⟩ := router.forwarding.calls_runRules router.node backend
    apply Or.inl
    exact hcalls.extends.mono fun _ => Call.ne_lock_of_isEstablish

/-- An event leads to an attempt to lock only by way of a node whose mesh is complete. -/
theorem Step.extends_or_locks (h : router.Step backend event next result) :
    router.node.Extends (· ≠ .lock) next.node ∨ ∃ node : Node,
      router.node.Extends (· ≠ .lock) node ∧
        node.journal.attempts = router.node.journal.attempts ∧
          node.progress.expected.meshDone = true ∧ next.node = node.lockWhenComplete backend := by
  cases h with
  | unheard | unlinked | repeated | free | live => exact .inl (.refl _ _)
  | @rejected known =>
    obtain ⟨accepted, hcalls⟩ := router.node.calls_refuseChannel backend known.channel
    exact .inl (hcalls.extends.mono fun _ => Call.ne_lock_of_isDisable)
  | @unestablished known _ admits refused =>
    apply Or.inl
    have hbind : router.node.Extends (· ≠ .lock) (router.node.bind known.channel known.peer) :=
      .quiet rfl rfl
    apply hbind.trans
    exact (Node.calls_of_establish refused).extends.mono fun _ => Call.ne_lock_of_isEstablish
  | @bound known node admits accepted =>
    apply Or.inl
    have hbind : router.node.Extends (· ≠ .lock) (router.node.bind known.channel known.peer) :=
      .quiet rfl rfl
    have hcalls := (Node.calls_of_establish accepted).extends.mono fun _ =>
      Call.ne_lock_of_isEstablish
    exact (hbind.trans hcalls).trans (router.forwarding.binds_channelBound node known).extends
  | lost | broken | violated | surplus | surplusLink =>
    apply Or.inl
    apply Node.Extends.fail
    exact .quiet rfl rfl
  | @linked changed rules progress hypercube requested connected new counted =>
    have hcounted : router.node.Extends (· ≠ .lock) { router.node with progress } :=
      .quiet rfl (Progress.locked_of_complete counted)
    exact .inl (hcounted.trans (Node.signals_signalReadiness _).extends)
  | absorbed absorbs =>
    rcases extends_or_locks_proceed _ backend with hextends | ⟨hdone, hlocks⟩
    · exact .inl (absorbs.extends.trans hextends)
    · exact .inr ⟨_, absorbs.extends, congrArg Journal.attempts absorbs.journal, hdone, hlocks⟩

theorem Step.locksOnce (h : router.Step backend event next result)
    (hworking : router.node.isFailed = false) (hrouter : router.node.LocksOnce) :
    next.node.LocksOnce := by
  rcases h.extends_or_locks with hextends | ⟨node, hextends, -, -, hnext⟩
  · exact hextends.locksOnce hworking hrouter
  · rw [hnext]
    exact (node.locks_lockWhenComplete backend).locksOnce (hextends.locksOnce hworking hrouter)

theorem locksOnce_run (h : (create profile topology).2 = .ok start) (backend : Backend)
    (events : List Event) : (start.run backend events).node.LocksOnce := by
  have hstart : start.node.LocksOnce := by
    obtain ⟨-, hosts, hnode⟩ := create_eq_ok h
    rw [hnode]
    exact ⟨Nat.zero_le _, fun _ _ => rfl, by simp [Node.start, Progress.start, Journal.accepted]⟩
  exact run_invariant hstart (fun hrouter hworking hstep => hstep.locksOnce hworking hrouter) events

/-! ## A locked router -/

/-- What a locked router may still become: it asks its backend for nothing but to disable channels,
it binds no channel, its role stays, and it expects no transmits. -/
structure Frozen (router next : Router) : Prop where
  calls : router.node.Asks (·.isDisable = true) next.node
  bindings : ∀ channel peer, next.node.boundPeer? channel = some peer →
    router.node.boundPeer? channel = some peer
  partner : next.forwarding.crossPartner? = router.forwarding.crossPartner?
  transmits : next.expected.tx = 0

theorem Settled.meshDone (h : router.Settled) (hlocked : router.node.progress.locked = true) :
    router.expected.rx = 0 ∧ router.expected.tx = 0 :=
  Expected.meshDone_iff.1 (h.progress.mesh hlocked)

theorem Frozen.refl (h : router.Settled) (hlocked : router.node.progress.locked = true) :
    router.Frozen router :=
  ⟨.refl _ _, fun _ _ => id, rfl, (h.meshDone hlocked).2⟩

theorem Frozen.trans (h : router.Frozen middle) (h' : middle.Frozen next) : router.Frozen next := by
  constructor
  case calls => exact h.calls.trans h'.calls
  case bindings => exact fun channel peer hbound => h.bindings _ _ (h'.bindings _ _ hbound)
  case partner => exact h'.partner.trans h.partner
  case transmits => exact h'.transmits

/-- A locked router runs no rules. -/
theorem extends_proceed_of_locked (h : router.node.progress.Orderly)
    (hlocked : router.node.progress.locked = true) :
    router.node.Extends kind (router.proceed backend).node := by
  unfold proceed
  rw [if_pos (h.mesh hlocked)]
  split
  · exact .refl _ _
  · exact (router.node.locks_lockWhenComplete backend).extends_of_locked hlocked

theorem Step.extends_of_locked (hrouter : router.Settled)
    (hlocked : router.node.progress.locked = true) (h : router.Step backend event next result) :
    router.node.Extends (·.isDisable = true) next.node := by
  cases h with
  | unheard | unlinked | repeated | free | live => exact .refl _ _
  | @rejected known =>
    obtain ⟨accepted, hcalls⟩ := router.node.calls_refuseChannel backend known.channel
    exact hcalls.extends
  | unestablished admits | bound admits =>
    exact absurd hlocked (by simp [Node.not_locked_of_fresh admits.fresh])
  | lost | broken | violated | surplus | surplusLink =>
    apply Node.Extends.fail
    exact .quiet rfl rfl
  | @linked changed rules progress hypercube requested connected new counted =>
    have hcounted : router.node.Extends (·.isDisable = true) { router.node with progress } :=
      .quiet rfl (Progress.locked_of_complete counted)
    exact hcounted.trans (Node.signals_signalReadiness _).extends
  | absorbed absorbs =>
    apply absorbs.extends.trans
    apply extends_proceed_of_locked
    · exact absorbs.orderly hrouter.progress.toOrderly
    · exact absorbs.locked.trans hlocked

theorem Step.boundPeer?_of_locked (hlocked : router.node.progress.locked = true)
    (h : router.Step backend event next result) {channel : Channel} {peer : Rank}
    (hbound : next.node.boundPeer? channel = some peer) :
    router.node.boundPeer? channel = some peer := by
  have hsame : ∀ {node : Node}, node.bindings = router.node.bindings →
      node.boundPeer? channel = some peer → router.node.boundPeer? channel = some peer :=
    fun hbindings hbound => by rwa [Node.boundPeer?, hbindings] at hbound
  cases h with
  | unheard | unlinked | repeated | free | live => exact hbound
  | @rejected known =>
    obtain ⟨accepted, hcalls⟩ := router.node.calls_refuseChannel backend known.channel
    exact hsame hcalls.bindings hbound
  | unestablished admits | bound admits =>
    exact absurd hlocked (by simp [Node.not_locked_of_fresh admits.fresh])
  | lost =>
    rw [Node.boundPeer?, Node.bindings_fail, Table.get?_erase] at hbound
    split at hbound
    · exact absurd hbound (by simp)
    · exact hbound
  | broken | violated | surplus | surplusLink =>
    apply hsame _ hbound
    exact Node.bindings_fail _ _
  | linked =>
    apply hsame _ hbound
    exact (Node.advances_signalReadiness _).bindings
  | absorbed absorbs => exact hsame ((advances_proceed _ _).bindings.trans absorbs.bindings) hbound

theorem Step.frozen (hrouter : router.Settled) (hworking : router.node.isFailed = false)
    (hlocked : router.node.progress.locked = true) (h : router.Step backend event next result) :
    router.Frozen next := by
  have htx := (hrouter.meshDone hlocked).2
  rcases h.settles hrouter.progress hworking with ⟨hconfines, -⟩ | ⟨known, -, hadmits, -⟩
  · constructor
    case calls => exact (h.extends_of_locked hrouter hlocked).asks
    case bindings => exact fun channel peer => h.boundPeer?_of_locked hlocked
    case partner => exact hconfines.partner
    case transmits => exact Nat.le_zero.1 (htx ▸ hconfines.transmits)
  · exact absurd hlocked (by simp [Node.not_locked_of_fresh hadmits.fresh])

theorem frozen_run (hrouter : router.Settled) (hlocked : router.node.progress.locked = true)
    (backend : Backend) (events : List Event) : router.Frozen (router.run backend events) := by
  have hstep : ∀ {middle event next result},
      middle.Settled ∧ middle.node.progress.locked = true ∧ router.Frozen middle →
        middle.node.isFailed = false → middle.Step backend event next result →
          next.Settled ∧ next.node.progress.locked = true ∧ router.Frozen next := by
    rintro middle event next result ⟨hmiddle, hlocked, hfrozen⟩ hworking hstep
    refine ⟨settled_step hmiddle hworking hstep, ?_, ?_⟩
    · exact (hstep.extends_of_locked hmiddle hlocked).locked.trans hlocked
    · exact hfrozen.trans (hstep.frozen hmiddle hworking hlocked)
  obtain ⟨-, -, hfrozen⟩ := run_invariant ⟨hrouter, hlocked, .refl hrouter hlocked⟩ hstep events
  exact hfrozen

/-! ## All runs -/

/-- The backend is asked to lock at most once and only by a node that expects nothing of its mesh,
and a router that was locked stays frozen. -/
structure LockFreezes (start : Router) (backend : Backend) : Prop where
  once : ∀ events, (start.run backend events).node.journal.lockAttempts ≤ 1
  complete : ∀ before event, (start.run backend (before ++ [event])).node.journal.lockAttempts ≠
      (start.run backend before).node.journal.lockAttempts →
    ∃ node : Node, node.progress.expected.rx = 0 ∧ node.progress.expected.tx = 0 ∧
      node.journal.attempts = (start.run backend before).node.journal.attempts ∧
        (start.run backend (before ++ [event])).node = node.lockWhenComplete backend
  frozen : ∀ before after, .lock ∈ (start.run backend before).node.journal.accepted →
    (start.run backend before).Frozen (start.run backend (before ++ after))

theorem lockFreezes_of_create (h : (create profile topology).2 = .ok start) (backend : Backend) :
    start.LockFreezes backend := by
  constructor
  case once => exact fun events => (locksOnce_run h backend events).once
  case complete =>
    intro before event hattempts
    rw [run_concat] at hattempts ⊢
    cases hfailed : (start.run backend before).node.isFailed with
    | true =>
      rw [handle_of_isFailed hfailed] at hattempts
      exact absurd rfl hattempts
    | false =>
      rcases (step_handle backend event hfailed).extends_or_locks with
        hextends | ⟨node, -, hsame, hdone, hnext⟩
      · exact absurd hextends.lockAttempts hattempts
      · obtain ⟨hrx, htx⟩ := Expected.meshDone_iff.1 hdone
        exact ⟨node, hrx, htx, hsame, hnext⟩
  case frozen =>
    intro before after haccepted
    rw [run_append]
    apply frozen_run (settled_run h backend before)
    exact (locksOnce_run h backend before).accepted.1 haccepted

theorem lockFreezes_of_create_pair : ∃ topology start,
    Topology.ofMembers (Layout.members 2) 0 .auto = .ok topology ∧
      (create .pair topology).2 = .ok start ∧
        .lock ∈ (start.run .accepting [.channel ⟨3, 1, "p0-a", true⟩, .connection ⟨.tx, 3, 0, true⟩,
          .connection ⟨.rx, 3, 1, true⟩]).node.journal.accepted ∧ start.LockFreezes .accepting := by
  have hrun : ((Topology.ofMembers (Layout.members 2) 0 .auto).toOption.bind fun topology =>
      (create .pair topology).2.toOption.map fun start =>
        decide (.lock ∈ (start.run .accepting [.channel ⟨3, 1, "p0-a", true⟩,
          .connection ⟨.tx, 3, 0, true⟩, .connection ⟨.rx, 3, 1, true⟩]).node.journal.accepted)) =
            some true := by decide +kernel
  obtain ⟨topology, htopology, hrun⟩ := Option.bind_eq_some_iff.1 hrun
  obtain ⟨start, hstart, hlocked⟩ := Option.map_eq_some_iff.1 hrun
  have hcreate := eq_ok_of_toOption hstart
  exact ⟨topology, start, eq_ok_of_toOption htopology, hcreate, of_decide_eq_true hlocked,
    lockFreezes_of_create hcreate _⟩

end Router

end MeshFormation
