import MeshFormation.Node
import MeshFormation.Proofs.Topology.Chassis

/-!
# The checks that all profiles share

A channel event passes the first checks if it names a peer of the partition as it is declared, on a
channel that was not lost. After that only the bindings and the lock decide: the event is a
repetition if the peer is bound to this channel, and is new if both are free and the node is not
locked.
-/

namespace MeshFormation.Node

variable {node next : Node} {event : ChannelEvent} {peer : Rank}

theorem boundChannel?_eq_none_iff :
    node.boundChannel? peer = none ↔ ∀ channel, node.boundPeer? channel ≠ some peer := by
  rw [boundChannel?, Table.firstKey?_eq_none_iff]
  constructor
  · intro h channel hbound
    simpa using h channel peer hbound
  · intro h channel bound hbound
    rw [beq_eq_false_iff_ne]
    rintro rfl
    exact h channel hbound

/-- A channel event names a peer of the partition as it is declared, on a channel that was not
lost. -/
structure Recognises (node : Node) (event : ChannelEvent) : Prop where
  kept : node.lostChannels.contains event.channel = false
  peer : event.peer ∈ node.topology.peers node.rank
  chassis : node.topology.chassis? event.peer = some event.chassis

theorem Recognises.congr (h : node.Recognises event) (htopology : next.topology = node.topology)
    (hlost : next.lostChannels = node.lostChannels) : next.Recognises event := by
  constructor
  case kept => exact hlost ▸ h.kept
  case peer =>
    rw [rank, htopology]
    exact h.peer
  case chassis => exact htopology ▸ h.chassis

theorem recognises_of_screening
    (h : node.screening event = .duplicate ∨ node.screening event = .fresh) :
    node.Recognises event := by
  have hchassis : node.topology.chassis? event.peer = some event.chassis := by
    unfold screening at h
    grind
  have hmember := Topology.exists_chassis?_iff.1 ⟨_, hchassis⟩
  refine ⟨?_, Topology.mem_peers_iff.2 ⟨?_, hmember, ?_⟩, hchassis⟩ <;>
    unfold screening at h <;> grind

theorem screening_eq_duplicate_iff : node.screening event = .duplicate ↔
    node.Recognises event ∧ node.boundPeer? event.channel = some event.peer := by
  constructor
  · intro h
    refine ⟨recognises_of_screening (.inl h), ?_⟩
    unfold screening at h
    grind
  · rintro ⟨hrecognises, hbound⟩
    obtain ⟨hother, -, hpartition⟩ := Topology.mem_peers_iff.1 hrecognises.peer
    rw [screening]
    simp only [hrecognises.kept, hother, hrecognises.chassis, hpartition, hbound, ne_eq,
      not_true_eq_false, Bool.false_eq_true, Bool.not_true, if_false, if_true]

theorem screening_eq_fresh_iff : node.screening event = .fresh ↔
    node.Recognises event ∧ node.boundPeer? event.channel = none ∧ node.progress.locked = false ∧
      ∀ channel, node.boundPeer? channel ≠ some event.peer := by
  rw [← boundChannel?_eq_none_iff]
  constructor
  · intro h
    refine ⟨recognises_of_screening (.inr h), ?_, ?_, ?_⟩ <;> unfold screening at h <;> grind
  · rintro ⟨hrecognises, hunbound, hunlocked, hfree⟩
    obtain ⟨hother, -, hpartition⟩ := Topology.mem_peers_iff.1 hrecognises.peer
    rw [screening]
    simp only [hrecognises.kept, hother, hrecognises.chassis, hpartition, hunbound,
      hunlocked, hfree, ne_eq, not_true_eq_false, Bool.false_eq_true, Bool.not_true, if_false]

end MeshFormation.Node
