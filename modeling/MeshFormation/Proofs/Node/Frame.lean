import MeshFormation.Forwarding

/-!
# What the rules of a node leave alone

Failing, asking the backend for something, locking, signalling and the forwarding rules never touch
what a node has learned: its topology, its ledger, its bindings and the channels it lost stay, and
no control message is sent. `Node.Advances` collects this, and every such transition is shown to be
of that kind.
-/

namespace MeshFormation

/-- Whether a call hands a control message to the transport. -/
def Call.isSend : Call → Bool
  | .send _ _ => true
  | _ => false

namespace Node

@[simp] theorem topology_fail (node : Node) (reason : FailureReason) :
    (node.fail reason).topology = node.topology := by
  unfold fail
  split <;> rfl

@[simp] theorem ledger_fail (node : Node) (reason : FailureReason) :
    (node.fail reason).ledger = node.ledger := by
  unfold fail
  split <;> rfl

@[simp] theorem bindings_fail (node : Node) (reason : FailureReason) :
    (node.fail reason).bindings = node.bindings := by
  unfold fail
  split <;> rfl

@[simp] theorem lostChannels_fail (node : Node) (reason : FailureReason) :
    (node.fail reason).lostChannels = node.lostChannels := by
  unfold fail
  split <;> rfl

@[simp] theorem attempts_fail (node : Node) (reason : FailureReason) :
    (node.fail reason).journal.attempts = node.journal.attempts := by
  unfold fail
  split <;> rfl

@[simp] theorem isFailed_fail (node : Node) (reason : FailureReason) :
    (node.fail reason).isFailed = true := by
  unfold fail
  split
  · rename_i h
    exact Progress.enter?_failed_eq_none_iff.1 h
  · rename_i progress h
    rw [Progress.enter?] at h
    split at h
    · obtain rfl := Option.some.inj h
      rfl
    · exact absurd h (by simp)

/-- The second node comes after the first: it has the same topology, it has failed if the first one
has, and what it asked for in between was no control message. -/
structure Continues (node next : Node) : Prop where
  topology : next.topology = node.topology
  isFailed : node.isFailed = true → next.isFailed = true
  attempts : ∃ made, next.journal.attempts = node.journal.attempts ++ made ∧
    ∀ attempt ∈ made, attempt.call.isSend = false

/-- The second node comes after the first and has learned nothing in between. -/
structure Advances (node next : Node) : Prop extends Continues node next where
  ledger : next.ledger = node.ledger
  bindings : next.bindings = node.bindings
  lostChannels : next.lostChannels = node.lostChannels

namespace Continues

variable {first second third : Node}

theorem refl (node : Node) : node.Continues node := ⟨rfl, id, [], by simp, by simp⟩

theorem trans (h : first.Continues second) (h' : second.Continues third) :
    first.Continues third := by
  obtain ⟨made, hmade, hsend⟩ := h.attempts
  obtain ⟨more, hmore, hsend'⟩ := h'.attempts
  refine ⟨h'.topology.trans h.topology, fun hfailed => h'.isFailed (h.isFailed hfailed),
    made ++ more, ?_, ?_⟩
  · rw [hmore, hmade, List.append_assoc]
  · intro attempt hattempt
    rcases List.mem_append.1 hattempt with hattempt | hattempt
    · exact hsend attempt hattempt
    · exact hsend' attempt hattempt

theorem rank (h : first.Continues second) : second.rank = first.rank := by
  rw [Node.rank, Node.rank, h.topology]

end Continues

namespace Advances

variable {first second third : Node}

theorem refl (node : Node) : node.Advances node := ⟨.refl node, rfl, rfl, rfl⟩

theorem trans (h : first.Advances second) (h' : second.Advances third) :
    first.Advances third :=
  ⟨h.toContinues.trans h'.toContinues, h'.ledger.trans h.ledger, h'.bindings.trans h.bindings,
    h'.lostChannels.trans h.lostChannels⟩

end Advances

theorem advances_fail (node : Node) (reason : FailureReason) : node.Advances (node.fail reason) :=
  ⟨⟨by simp, fun _ => by simp, [], by simp, by simp⟩, by simp, by simp, by simp⟩

theorem advances_request (node : Node) (backend : Backend) {call : Call}
    (h : call.isSend = false) : node.Advances (node.request backend call).1 := by
  have hmade :
      ({ node with journal := (node.journal.attempt backend call).1 } : Node).journal.attempts =
        node.journal.attempts ++ [⟨call, backend node.journal.attempts call⟩] := rfl
  have hadvances : node.Advances { node with journal := (node.journal.attempt backend call).1 } :=
    ⟨⟨rfl, id, _, hmade, by simpa using h⟩, rfl, rfl, rfl⟩
  unfold request
  split
  · rename_i journal heq
    rw [heq] at hadvances
    exact hadvances
  · rename_i journal refusal heq
    rw [heq] at hadvances
    exact hadvances.trans (advances_fail _ _)

theorem advances_of_establish {node next : Node} {backend : Backend} {source : Rank}
    {channel : Channel} {accepted : Bool}
    (h : node.establish backend source channel = (next, accepted)) : node.Advances next := by
  have hadvances : node.Advances (node.request backend (.establish source channel)).1 :=
    advances_request node backend rfl
  rw [establish] at h
  rwa [h] at hadvances

theorem advances_establishAll (node : Node) (backend : Backend) (requests : List (Rank × Channel)) :
    node.Advances (node.establishAll backend requests).1 := by
  induction requests generalizing node with
  | nil => exact .refl node
  | cons request rest ih =>
    obtain ⟨source, channel⟩ := request
    rw [establishAll]
    split
    · rename_i next heq
      exact (advances_of_establish heq).trans (ih next)
    · rename_i next heq
      exact advances_of_establish heq

theorem advances_of_establishAll {node next : Node} {backend : Backend}
    {requests : List (Rank × Channel)} {accepted : Bool}
    (h : node.establishAll backend requests = (next, accepted)) : node.Advances next := by
  have hadvances := advances_establishAll node backend requests
  rw [h] at hadvances
  exact hadvances

theorem advances_signalReadiness (node : Node) : node.Advances node.signalReadiness := by
  unfold signalReadiness
  split
  · split
    · exact .refl node
    · rename_i progress heq
      refine ⟨⟨rfl, fun hfailed => ?_, [], (List.append_nil _).symm, by simp⟩, rfl, rfl, rfl⟩
      have hphase : node.progress.phase = .failed := by
        simpa [isFailed, Progress.isFailed] using hfailed
      simp [Progress.enter?, hphase, Phase.canBecome] at heq
  · exact .refl node

theorem advances_raiseTransmits (node : Node) (extra : Nat) :
    node.Advances (node.raiseTransmits extra) :=
  ⟨⟨rfl, id, [], by simp [raiseTransmits], by simp⟩, rfl, rfl, rfl⟩

theorem advances_lockWhenComplete (node : Node) (backend : Backend) :
    node.Advances (node.lockWhenComplete backend) := by
  unfold lockWhenComplete
  split
  · exact .refl node
  split
  · exact advances_signalReadiness node
  have hlock := advances_request node backend (show Call.isSend .lock = false from rfl)
  split
  · rename_i next heq
    rw [heq] at hlock
    have hlocked : next.Advances { next with progress := next.progress.lock } :=
      ⟨⟨rfl, id, [], by simp, by simp⟩, rfl, rfl, rfl⟩
    exact (hlock.trans hlocked).trans (advances_signalReadiness _)
  · rename_i next heq
    rw [heq] at hlock
    exact hlock

end Node

namespace Forwarding

theorem advances_cube_runRules (cube : CubeForwarding) (node : Node) (backend : Backend) :
    node.Advances (cube.runRules node backend).2 := by
  unfold CubeForwarding.runRules
  split
  · exact .refl node
  dsimp only
  split
  · rename_i next hfanout
    exact Node.advances_of_establishAll hfanout
  rename_i next hfanout
  have hnext := Node.advances_of_establishAll hfanout
  split
  · split
    · rename_i after huplink
      exact hnext.trans (Node.advances_of_establishAll huplink)
    · rename_i after huplink
      have hafter := hnext.trans (Node.advances_of_establishAll huplink)
      exact hafter.trans (after.advances_establishAll backend _)
  · exact hnext

theorem advances_runRules (forwarding : Forwarding) (node : Node) (backend : Backend) :
    node.Advances (forwarding.runRules node backend).2 := by
  cases forwarding with
  | pair => exact .refl node
  | cube rules => exact advances_cube_runRules rules node backend
  | hypercube rules => exact node.advances_establishAll backend _

end Forwarding

end MeshFormation
