import MeshFormation.Proofs.Node.Frame

/-!
# What a node asks its backend for

A transition makes its calls in order and stops at the first refusal, which fails the node. The
lemmas below give the node after each such transition in full: the same node with some attempts
more, failed or not.
-/

namespace MeshFormation

def Call.isEstablish : Call → Bool
  | .establish _ _ => true
  | _ => false

def Call.isDisable : Call → Bool
  | .disable _ => true
  | _ => false

theorem Call.not_isDisable_of_isEstablish {call : Call} (h : call.isEstablish = true) :
    call.isDisable = false := by
  cases call with
  | establish source channel => rfl
  | _ => exact absurd h (by simp [isEstablish])

theorem Call.not_isEstablish_of_isDisable {call : Call} (h : call.isDisable = true) :
    call.isEstablish = false := by
  cases call with
  | disable channel => rfl
  | _ => exact absurd h (by simp [isDisable])

namespace Node

variable {node middle next : Node} {backend : Backend} {call : Call} {kind : Call → Prop}
  {made : List Attempt} {accepted : Bool}

/-- The node that made further attempts. -/
def attempting (node : Node) (made : List Attempt) : Node :=
  { node with journal := { node.journal with attempts := node.journal.attempts ++ made } }

@[simp] theorem attempting_nil (node : Node) : node.attempting [] = node := by
  simp [attempting]

theorem attempting_append (node : Node) (first second : List Attempt) :
    node.attempting (first ++ second) = (node.attempting first).attempting second := by
  simp [attempting]

/-- A failure changes the phase and adds a notice. -/
theorem progress_fail (node : Node) (reason : FailureReason) :
    (node.fail reason).progress = { node.progress with phase := .failed } := by
  unfold fail
  split
  · rename_i h
    have hfailed := Progress.enter?_failed_eq_none_iff.1 h
    have hphase : node.progress.phase = .failed := by
      simpa [Progress.isFailed] using hfailed
    rw [← hphase]
  · rename_i progress h
    unfold Progress.enter? at h
    split at h
    · exact (Option.some.inj h).symm
    · exact absurd h (by simp)

/-- Since the first node, the second one has asked its backend for calls of one kind only. -/
def Asks (kind : Call → Prop) (node next : Node) : Prop :=
  ∃ made, next.journal.attempts = node.journal.attempts ++ made ∧
    ∀ attempt ∈ made, kind attempt.call

namespace Asks

theorem nothing (h : next.journal.attempts = node.journal.attempts) : node.Asks kind next :=
  ⟨[], by simpa using h, by simp⟩

theorem refl (kind : Call → Prop) (node : Node) : node.Asks kind node := .nothing rfl

theorem trans (h : node.Asks kind middle) (h' : middle.Asks kind next) : node.Asks kind next := by
  obtain ⟨made, hmade, hkind⟩ := h
  obtain ⟨more, hmore, hkind'⟩ := h'
  refine ⟨made ++ more, by rw [hmore, hmade, List.append_assoc], fun attempt hmem => ?_⟩
  rcases List.mem_append.1 hmem with hmem | hmem
  · exact hkind attempt hmem
  · exact hkind' attempt hmem

theorem mono {other : Call → Prop} (h : node.Asks kind next)
    (hkind : ∀ call, kind call → other call) :
    node.Asks other next := by
  obtain ⟨made, hmade, hall⟩ := h
  exact ⟨made, hmade, fun attempt hmem => hkind _ (hall attempt hmem)⟩

theorem fail (h : node.Asks kind middle) (reason : FailureReason) :
    node.Asks kind (middle.fail reason) :=
  h.trans (.nothing (attempts_fail middle reason))

end Asks

/-- How a sequence of calls of one kind ends: all were accepted, or the last one was refused and
failed the node. -/
inductive Calls (kind : Call → Prop) (node : Node) : Node × Bool → Prop where
  | accepted {made : List Attempt} (calls : ∀ attempt ∈ made, kind attempt.call) :
      Calls kind node (node.attempting made, true)
  | refused {made : List Attempt} {refusal : Refusal}
      (calls : ∀ attempt ∈ made, kind attempt.call) :
      Calls kind node ((node.attempting made).fail (.backendFailure refusal), false)

namespace Calls

theorem none (kind : Call → Prop) (node : Node) : Calls kind node (node, true) := by
  have h : Calls kind node (node.attempting [], true) := .accepted (by simp)
  rwa [attempting_nil] at h

theorem exists_of_accepted (h : Calls kind node (next, true)) :
    ∃ made, next = node.attempting made ∧ ∀ attempt ∈ made, kind attempt.call := by
  cases h with
  | accepted calls => exact ⟨_, rfl, calls⟩

/-- Further calls after accepted ones. -/
theorem trans {last : Node × Bool} (h : Calls kind node (next, true)) (h' : Calls kind next last) :
    Calls kind node last := by
  obtain ⟨made, rfl, hmade⟩ := h.exists_of_accepted
  have hall : ∀ {more : List Attempt}, (∀ attempt ∈ more, kind attempt.call) →
      ∀ attempt ∈ made ++ more, kind attempt.call := by
    intro more hmore attempt hmem
    rcases List.mem_append.1 hmem with hmem | hmem
    · exact hmade attempt hmem
    · exact hmore attempt hmem
  cases h' with
  | accepted calls =>
    rw [← attempting_append]
    exact .accepted (hall calls)
  | refused calls =>
    rw [← attempting_append]
    exact .refused (hall calls)

theorem asks (h : Calls kind node (next, accepted)) : node.Asks kind next := by
  cases h with
  | accepted calls => exact ⟨_, rfl, calls⟩
  | refused calls => exact .fail ⟨_, rfl, calls⟩ _

/-- Calls leave the counts and the lock flag alone. -/
theorem progress (h : Calls kind node (next, accepted)) :
    next.progress = node.progress ∨ next.progress = { node.progress with phase := .failed } := by
  cases h with
  | accepted calls => exact .inl rfl
  | refused calls => exact .inr (progress_fail _ _)

theorem bindings (h : Calls kind node (next, accepted)) : next.bindings = node.bindings := by
  cases h with
  | accepted calls => rfl
  | refused calls => exact bindings_fail _ _

theorem ledger (h : Calls kind node (next, accepted)) : next.ledger = node.ledger := by
  cases h with
  | accepted calls => rfl
  | refused calls => exact ledger_fail _ _

end Calls

theorem calls_request (node : Node) (backend : Backend) (h : kind call) :
    Calls kind node (node.request backend call) := by
  unfold request Journal.attempt
  cases backend node.journal.attempts call with
  | none =>
    have hmade : ∀ attempt ∈ [(⟨call, none⟩ : Attempt)], kind attempt.call := by simpa using h
    exact .accepted hmade
  | some refusal =>
    have hmade : ∀ attempt ∈ [(⟨call, some refusal⟩ : Attempt)], kind attempt.call := by
      simpa using h
    exact .refused hmade

/-- A call is recorded with the answer of the backend, whatever that is. -/
theorem attempts_request (node : Node) (backend : Backend) (call : Call) :
    (node.request backend call).1.journal.attempts =
      node.journal.attempts ++ [⟨call, backend node.journal.attempts call⟩] := by
  unfold request Journal.attempt
  cases backend node.journal.attempts call with
  | none => rfl
  | some refusal => exact attempts_fail _ _

theorem calls_refuseChannel (node : Node) (backend : Backend) (channel : Channel) :
    ∃ accepted, Calls (·.isDisable = true) node (node.refuseChannel backend channel, accepted) :=
  ⟨_, node.calls_request backend rfl⟩

theorem calls_establish (node : Node) (backend : Backend) (source : Rank) (channel : Channel) :
    Calls (·.isEstablish = true) node (node.establish backend source channel) :=
  calls_request node backend rfl

theorem calls_of_establish {source : Rank} {channel : Channel}
    (h : node.establish backend source channel = (next, accepted)) :
    Calls (·.isEstablish = true) node (next, accepted) :=
  h ▸ node.calls_establish backend source channel

theorem calls_establishAll (node : Node) (backend : Backend) (requests : List (Rank × Channel)) :
    Calls (·.isEstablish = true) node (node.establishAll backend requests) := by
  induction requests generalizing node with
  | nil => exact .none _ node
  | cons request rest ih =>
    obtain ⟨source, channel⟩ := request
    rw [establishAll]
    split
    · rename_i next hfirst
      exact (calls_of_establish hfirst).trans (ih next)
    · rename_i next hfirst
      exact calls_of_establish hfirst

/-- What it leads to that a node tries to lock its backend. Only a working node whose mesh is
complete and which has not locked yet makes the call. -/
inductive Locks (node : Node) : Node → Prop where
  | idle (waits : node.isFailed = true ∨ node.progress.expected.meshDone = false) : Locks node node
  | again (working : node.isFailed = false) (done : node.progress.expected.meshDone = true)
      (locked : node.progress.locked = true) : Locks node node.signalReadiness
  | accepted (working : node.isFailed = false) (done : node.progress.expected.meshDone = true)
      (unlocked : node.progress.locked = false) :
      Locks node (signalReadiness
        { node.attempting [⟨.lock, none⟩] with progress := node.progress.lock })
  | refused {refusal : Refusal} (working : node.isFailed = false)
      (done : node.progress.expected.meshDone = true) (unlocked : node.progress.locked = false) :
      Locks node ((node.attempting [⟨.lock, some refusal⟩]).fail (.backendFailure refusal))

theorem locks_lockWhenComplete (node : Node) (backend : Backend) :
    node.Locks (node.lockWhenComplete backend) := by
  unfold lockWhenComplete
  split
  · rename_i hwaits
    apply Locks.idle
    simpa using hwaits
  rename_i hdue
  obtain ⟨hworking, hdone⟩ : node.isFailed = false ∧ node.progress.expected.meshDone = true := by
    simpa using hdue
  split
  · rename_i hlocked
    exact .again hworking hdone hlocked
  rename_i hunlocked
  have hunlocked : node.progress.locked = false := by simpa using hunlocked
  unfold request Journal.attempt
  cases backend node.journal.attempts .lock with
  | none => exact .accepted hworking hdone hunlocked
  | some refusal => exact .refused hworking hdone hunlocked

/-- The node that told its delegate that the ensemble is ready. -/
def readied (node : Node) : Node :=
  { node with
    progress := { node.progress with phase := .ready }
    journal := node.journal.notify .ready }

/-- What it leads to that a node tries to signal readiness. -/
inductive Signals (node : Node) : Node → Prop where
  | idle (waits : node.isFailed = false → node.progress.locked = true →
      node.progress.expected.allDone = true → node.progress.phase = .ready) : Signals node node
  | signalled (forming : node.progress.phase = .forming) (locked : node.progress.locked = true)
      (done : node.progress.expected.allDone = true) : Signals node node.readied

theorem signals_signalReadiness (node : Node) : node.Signals node.signalReadiness := by
  unfold signalReadiness
  split
  · rename_i hdue
    obtain ⟨hlocked, hworking, hdone⟩ : node.progress.locked = true ∧
        node.progress.isFailed = false ∧ node.progress.expected.allDone = true := by
      simpa [Progress.isReady] using hdue
    unfold Progress.enter?
    cases hphase : node.progress.phase with
    | forming => exact .signalled hphase hlocked hdone
    | ready => exact .idle fun _ _ _ => hphase
    | failed =>
      rw [Progress.isFailed, hphase] at hworking
      exact absurd hworking (by decide)
  · rename_i hdue
    apply Signals.idle
    intro hworking hlocked hdone
    have hready : node.progress.isReady = true := by
      simp only [Progress.isReady, Bool.and_eq_true, Bool.not_eq_true']
      exact ⟨hworking, hdone⟩
    exact absurd (by simp [hlocked, hready]) hdue

theorem Signals.asks (h : node.Signals next) : node.Asks kind next := by
  cases h with
  | idle => exact .refl kind node
  | signalled => exact .nothing rfl

theorem Locks.asks (h : node.Locks next) (hlock : kind .lock) : node.Asks kind next := by
  cases h with
  | idle => exact .refl kind node
  | again => exact node.signals_signalReadiness.asks
  | accepted =>
    refine Asks.trans ?_ (signals_signalReadiness _).asks
    exact ⟨_, rfl, by simpa using hlock⟩
  | refused => exact .fail ⟨_, rfl, by simpa using hlock⟩ _

end Node

namespace Forwarding

theorem calls_cube_runRules (cube : CubeForwarding) (node : Node) (backend : Backend) :
    ∃ accepted, Node.Calls (·.isEstablish = true) node
      ((cube.runRules node backend).2, accepted) := by
  unfold CubeForwarding.runRules
  split
  · exact ⟨true, .none _ node⟩
  rename_i partner _
  have hfanout := node.calls_establishAll backend ((cube.partnerRelays? node partner).getD [])
  dsimp only
  split
  · rename_i next heq
    rw [heq] at hfanout
    exact ⟨false, hfanout⟩
  rename_i next heq
  rw [heq] at hfanout
  split
  · rename_i fellow uplink _ _
    split
    · rename_i after heq'
      have huplink := next.calls_establishAll backend
      exact ⟨false, hfanout.trans (heq' ▸ huplink _)⟩
    · rename_i after heq'
      have huplink := next.calls_establishAll backend
      have hafter := hfanout.trans (heq' ▸ huplink _)
      exact ⟨_, hafter.trans (after.calls_establishAll backend _)⟩
  · exact ⟨true, hfanout⟩

theorem calls_runRules (forwarding : Forwarding) (node : Node) (backend : Backend) :
    ∃ accepted, Node.Calls (·.isEstablish = true) node
      ((forwarding.runRules node backend).2, accepted) := by
  cases forwarding with
  | pair => exact ⟨true, .none _ node⟩
  | cube rules => exact calls_cube_runRules rules node backend
  | hypercube rules => exact ⟨_, node.calls_establishAll backend _⟩

end Forwarding

end MeshFormation
