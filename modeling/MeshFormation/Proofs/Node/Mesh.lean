import MeshFormation.Proofs.Node.Calls

/-!
# The mesh part of a node

Most of what a node does has nothing to do with its network links. It looks neither at their number
nor at the phase, as long as the node works, nor at what the delegate was told. The node without all
these is its mesh part. What a transition makes of the mesh part of a node is the mesh part of what
it makes of the node, and its answer is the same.
-/

namespace MeshFormation

/-- Two transitions lead to the same part of a state and to the same answer. -/
structure Mirrors {σ α : Type} (part : σ → σ) (first second : σ × α) : Prop where
  state : part first.1 = part second.1
  answer : first.2 = second.2

namespace Mirrors

variable {σ α : Type} {part : σ → σ} {first second third : σ × α}

theorem symm (h : Mirrors part first second) : Mirrors part second first :=
  ⟨h.state.symm, h.answer.symm⟩

theorem trans (h : Mirrors part first second) (h' : Mirrors part second third) :
    Mirrors part first third :=
  ⟨h.state.trans h'.state, h.answer.trans h'.answer⟩

theorem exists_eq (h : Mirrors part first second) : ∃ state other answer,
    first = (state, answer) ∧ second = (other, answer) ∧ part state = part other :=
  ⟨first.1, second.1, first.2, rfl, Prod.ext rfl h.answer.symm, h.state⟩

/-- A transition that the part of a state goes along with is the same for two states with the same
part. -/
theorem congr (transition : σ → σ × α) {state other : σ} (h : part state = part other)
    (hstate : Mirrors part (transition (part state)) (transition state))
    (hother : Mirrors part (transition (part other)) (transition other)) :
    Mirrors part (transition state) (transition other) := by
  rw [h] at hstate
  exact hstate.symm.trans hother

end Mirrors

/-- The progress of a node that waits for no network link. -/
def Progress.mesh (progress : Progress) : Progress :=
  ⟨.forming, { progress.expected with network := 0 }, progress.locked⟩

/-- The completions of connections are counted in the mesh part. -/
theorem Progress.complete_mesh (progress : Progress) (direction : Direction) :
    progress.mesh.complete direction.counter =
      (progress.complete direction.counter).map Progress.mesh := by
  have hcount : progress.mesh.expected.count direction.counter =
      progress.expected.count direction.counter := by
    cases direction <;> rfl
  unfold complete Expected.complete
  rw [hcount]
  by_cases hzero : progress.expected.count direction.counter = 0
  · simp only [if_pos hzero]
    rfl
  · simp only [if_neg hzero]
    cases direction <;> rfl

/-- The network links are not counted in it. -/
theorem Progress.mesh_of_complete {progress next : Progress}
    (h : progress.complete .network = .ok next) :
    next.mesh = progress.mesh := by
  obtain ⟨expected, hexpected, rfl⟩ := exists_expected_of_complete h
  have hrx : progress.expected.rx = expected.rx := Expected.count_of_complete hexpected .rx
  have htx : progress.expected.tx = expected.tx := Expected.count_of_complete hexpected .tx
  simp [mesh, hrx, htx]

namespace Node

variable {α : Type} {node other : Node} {backend : Backend}

/-- A node without its network links, its phase and its notices. -/
def mesh (node : Node) : Node :=
  { node with progress := node.progress.mesh, journal := { node.journal with notices := [] } }

@[simp] theorem isFailed_mesh (node : Node) : node.mesh.isFailed = false := rfl

@[simp] theorem mesh_fail (node : Node) (reason : FailureReason) :
    (node.fail reason).mesh = node.mesh := by
  simp [mesh, Progress.mesh, progress_fail]

@[simp] theorem mesh_signalReadiness (node : Node) : node.signalReadiness.mesh = node.mesh := by
  have hsignals := node.signals_signalReadiness
  generalize node.signalReadiness = next at hsignals
  cases hsignals with
  | idle | signalled => rfl

@[simp] theorem mesh_mesh (node : Node) : node.mesh.mesh = node.mesh := rfl

theorem topology_of_mesh (h : node.mesh = other.mesh) : node.topology = other.topology := by
  have htopology : node.mesh.topology = other.mesh.topology := congrArg topology h
  exact htopology

theorem rank_of_mesh (h : node.mesh = other.mesh) : node.rank = other.rank :=
  congrArg Topology.localRank (topology_of_mesh h)

/-- The mesh part of a node and what it leaves out make the node. -/
theorem eq_of_mesh (h : node.mesh = other.mesh)
    (hnetwork : node.progress.expected.network = other.progress.expected.network)
    (hphase : node.progress.phase = other.progress.phase)
    (hnotices : node.journal.notices = other.journal.notices) : node = other := by
  obtain ⟨topology, ledger, ⟨phase, ⟨rx, tx, network⟩, locked⟩, bindings, lost,
    ⟨attempts, notices⟩⟩ := node
  obtain ⟨topology', ledger', ⟨phase', ⟨rx', tx', network'⟩, locked'⟩, bindings', lost',
    ⟨attempts', notices'⟩⟩ := other
  simp only [mesh, Progress.mesh, mk.injEq, Progress.mk.injEq, Expected.mk.injEq,
    Journal.mk.injEq] at h
  simp_all

/-- A refusal changes nothing in the mesh part. -/
theorem mirrors_refuse (h : node.mesh = other.mesh) (violation : Violation) :
    Mirrors mesh (node.refuse violation : Node × Except RouterError α)
      (other.refuse violation) := by
  constructor
  case state =>
    simp only [Node.refuse, mesh_fail]
    exact h
  case answer => rw [Node.refuse, Node.refuse, rank_of_mesh h]

/-! ## Calls -/

theorem mirrors_request (node : Node) (backend : Backend) (call : Call) :
    Mirrors mesh (node.mesh.request backend call) (node.request backend call) := by
  have hattempts : node.mesh.journal.attempts = node.journal.attempts := rfl
  unfold request Journal.attempt
  rw [hattempts]
  cases backend node.journal.attempts call with
  | none => exact ⟨rfl, rfl⟩
  | some refusal =>
    constructor
    · dsimp only
      rw [mesh_fail, mesh_fail]
      rfl
    · rfl

theorem mirrors_establishAll (node : Node) (backend : Backend) (requests : List (Rank × Channel)) :
    Mirrors mesh (node.mesh.establishAll backend requests)
      (node.establishAll backend requests) := by
  induction requests generalizing node with
  | nil => exact ⟨rfl, rfl⟩
  | cons request rest ih =>
    obtain ⟨source, channel⟩ := request
    obtain ⟨next, other, accepted, hfirst, hsecond, hmesh⟩ :=
      (node.mirrors_request backend (.establish source channel)).exists_eq
    rw [establishAll, establishAll, establish, establish, hfirst, hsecond]
    cases accepted with
    | false => exact ⟨hmesh, rfl⟩
    | true => exact .congr (·.establishAll backend rest) hmesh (ih next) (ih other)

theorem mesh_lockWhenComplete (hworking : node.isFailed = false) (backend : Backend) :
    (node.mesh.lockWhenComplete backend).mesh = (node.lockWhenComplete backend).mesh := by
  have hdone : node.mesh.progress.expected.meshDone = node.progress.expected.meshDone := rfl
  have hlocked : node.mesh.progress.locked = node.progress.locked := rfl
  obtain ⟨next, other, accepted, hfirst, hsecond, hmesh⟩ :=
    (node.mirrors_request backend .lock).exists_eq
  rw [lockWhenComplete, lockWhenComplete, isFailed_mesh, hworking, hdone, hlocked, hfirst, hsecond]
  split
  · rfl
  split
  · simp only [mesh_signalReadiness]
    rfl
  cases accepted with
  | false => exact hmesh
  | true =>
    simp only [mesh_signalReadiness]
    exact congrArg (fun node : Node => { node with progress := node.progress.lock }) hmesh

theorem mesh_channelLost (node : Node) (channel : Channel) :
    (node.mesh.channelLost channel).mesh = (node.channelLost channel).mesh := by
  have hbound : node.mesh.boundPeer? channel = node.boundPeer? channel := rfl
  rw [channelLost, channelLost, hbound]
  cases node.boundPeer? channel with
  | none => rfl
  | some peer =>
    simp only [mesh_fail]
    rfl

/-! ## Connections and routes -/

theorem mirrors_completeConnection (node : Node) (direction : Direction) (channel : Channel)
    (source : Rank) :
    Mirrors mesh (node.mesh.completeConnection direction channel source)
      (node.completeConnection direction channel source) := by
  have hledger : node.mesh.ledgerAfter direction channel source =
      node.ledgerAfter direction channel source := rfl
  have hcounted : node.mesh.progress.complete direction.counter =
      (node.progress.complete direction.counter).map Progress.mesh :=
    node.progress.complete_mesh direction
  rw [completeConnection, completeConnection, hledger, hcounted]
  cases node.ledgerAfter direction channel source with
  | error violation => exact mirrors_refuse node.mesh_mesh violation
  | ok recorded =>
    obtain ⟨bound, ledger⟩ := recorded
    cases node.progress.complete direction.counter with
    | error surplus => exact mirrors_refuse (mesh_mesh { node with ledger }) _
    | ok progress => exact ⟨rfl, rfl⟩

/-- A node that answers what it recorded has not failed. -/
theorem isFailed_of_completeConnection {direction : Direction} {channel : Channel}
    {source bound : Rank}
    (h : node.completeConnection direction channel source = (other, .ok bound)) :
    other.isFailed = node.isFailed := by
  unfold completeConnection at h
  split at h
  · exact absurd (congrArg Prod.snd h) (by simp [refuse])
  split at h
  · exact absurd (congrArg Prod.snd h) (by simp [refuse])
  · rename_i progress hcounted
    obtain ⟨rfl, -⟩ := Prod.mk.inj h
    rw [isFailed, isFailed, Progress.isFailed, Progress.isFailed,
      Progress.phase_of_complete hcounted]

theorem mirrors_learnForward (node : Node) (forwarder receiver : Rank) :
    Mirrors mesh (node.mesh.learnForward forwarder receiver)
      (node.learnForward forwarder receiver) := by
  have htopology : node.mesh.topology = node.topology := rfl
  have hledger : node.mesh.ledger = node.ledger := rfl
  have hrank : node.mesh.rank = node.rank := rfl
  rw [learnForward, learnForward, htopology, hledger, hrank]
  split
  · exact mirrors_refuse node.mesh_mesh _
  split
  · exact mirrors_refuse node.mesh_mesh _
  dsimp only
  split
  · exact mirrors_refuse node.mesh_mesh _
  · exact ⟨rfl, rfl⟩

theorem isFailed_of_learnForward {forwarder receiver : Rank}
    (h : node.learnForward forwarder receiver = (other, .ok ())) :
    other.isFailed = node.isFailed := by
  unfold learnForward at h
  split at h
  · exact absurd (congrArg Prod.snd h) (by simp [refuse])
  split at h
  · exact absurd (congrArg Prod.snd h) (by simp [refuse])
  dsimp only at h
  split at h
  · exact absurd (congrArg Prod.snd h) (by simp [refuse])
  · obtain ⟨rfl, -⟩ := Prod.mk.inj h
    rfl

end Node

end MeshFormation
