import MeshFormation.Proofs.Forwarding.Relays
import MeshFormation.Proofs.Ledger.Lookup

/-!
# Announcements of an outer node

An outer node keeps a list of the peers that it has told of its link. It announces itself to those
it already transmits to when it finds the link, and later to each peer to which a transmit of its
own data is complete; a peer that was told before gets nothing.
-/

namespace MeshFormation

def ControlMessage.isOuterAnnounce : ControlMessage → Bool
  | forward _ _ => false
  | outerAnnounce _ _ => true

def Outbox.announcements (outbox : Outbox) : Outbox :=
  outbox.filter (·.message.isOuterAnnounce)

/-- The message by which a node tells a peer that it holds a link to the other chassis. -/
def Node.announcement (node : Node) (peer : Rank) : AddressedMessage :=
  ⟨peer, .outerAnnounce node.rank node.topology.localChassis⟩

theorem Outbox.announcements_append (first second : Outbox) :
    announcements (first ++ second) = announcements first ++ announcements second :=
  List.filter_append _ _

theorem Outbox.announcements_map (node : Node) (peers : List Rank) :
    announcements (peers.map node.announcement) = peers.map node.announcement := by
  apply List.filter_eq_self.2
  intro outbound hmem
  obtain ⟨peer, -, rfl⟩ := List.mem_map.1 hmem
  rfl

theorem Node.announcement_congr {node next : Node} (h : next.topology = node.topology) :
    next.announcement = node.announcement := by
  funext peer
  rw [announcement, announcement, rank, rank, h]

namespace CubeForwarding

variable {cube : CubeForwarding} {node : Node} {peers : List Rank}

/-- Announcing the node to several peers that were not told before. -/
theorem announceAll_eq (cube : CubeForwarding) (node : Node) (hnodup : peers.Nodup)
    (hnew : ∀ peer ∈ peers, cube.informed.contains peer = false) :
    ∃ informed : KeySet, cube.announceAll node peers = ({ cube with informed },
        peers.map fun peer => ⟨peer, .outerAnnounce node.rank node.topology.localChassis⟩) ∧
      ∀ peer, informed.contains peer = (cube.informed.contains peer || peers.contains peer) := by
  induction peers generalizing cube with
  | nil => exact ⟨cube.informed, rfl, by simp⟩
  | cons first rest ih =>
    obtain ⟨hfirst, hrest⟩ := List.nodup_cons.1 hnodup
    have hannounce : cube.announce node first = ({ cube with informed := cube.informed.add first },
        [⟨first, .outerAnnounce node.rank node.topology.localChassis⟩]) := by
      rw [announce, hnew first List.mem_cons_self]
      rfl
    have hlater : ∀ peer ∈ rest, ({ cube with
        informed := cube.informed.add first } : CubeForwarding).informed.contains peer = false := by
      intro peer hmem
      rw [KeySet.contains_add, hnew peer (List.mem_cons_of_mem _ hmem)]
      have hne : peer ≠ first := by
        rintro rfl
        exact hfirst hmem
      simp [hne]
    obtain ⟨informed, hall, hinformed⟩ :=
      ih { cube with informed := cube.informed.add first } hrest hlater
    refine ⟨informed, ?_, fun peer => ?_⟩
    · rw [announceAll, hannounce]
      dsimp only
      rw [hall]
      rfl
    · rw [hinformed, KeySet.contains_add, List.contains_cons]
      cases peer == first <;> cases cube.informed.contains peer <;> rfl

end CubeForwarding

namespace Forwarding

variable {forwarding next : Forwarding} {node : Node} {outbox : Outbox} {told : List Rank}

/-- The rules announce the node to the given peers, none of which they had told before. -/
structure Notifies (forwarding : Forwarding) (node : Node) (told : List Rank) (next : Forwarding)
    (outbox : Outbox) : Prop where
  outbox : outbox.announcements = told.map node.announcement
  nodup : told.Nodup
  new : ∀ peer ∈ told, forwarding.tells peer = false
  tells : ∀ peer, next.tells peer = (forwarding.tells peer || told.contains peer)

theorem Notifies.nobody (houtbox : outbox.announcements = [])
    (htells : next.tells = forwarding.tells) :
    forwarding.Notifies node [] next outbox :=
  ⟨houtbox, .nil, by simp, fun peer => by simp [htells]⟩

theorem Notifies.congr {other : Node} (h : forwarding.Notifies node told next outbox)
    (htopology : node.topology = other.topology) : forwarding.Notifies other told next outbox :=
  ⟨Node.announcement_congr htopology ▸ h.outbox, h.nodup, h.new, h.tells⟩

@[simp] theorem tells_marked (forwarding : Forwarding) (ran : RelayRule → Bool) :
    (forwarding.marked ran).tells = forwarding.tells := by
  cases forwarding <;> rfl

theorem Notifies.marked (h : forwarding.Notifies node told next outbox) (ran : RelayRule → Bool) :
    forwarding.Notifies node told (next.marked ran) outbox :=
  ⟨h.outbox, h.nodup, h.new, fun peer => by rw [tells_marked, h.tells]⟩

/-- The peer to which an outer node owes an announcement when its own data has reached the peer. -/
def owed (forwarding : Forwarding) (peer : Rank) : List Rank :=
  if forwarding.crossPartner?.isSome && !forwarding.tells peer then [peer] else []

theorem notifies_transmitDone (hcube : forwarding.profile = .cube) (node : Node) (receiver : Rank) :
    forwarding.Notifies node (forwarding.owed receiver) (forwarding.transmitDone node receiver).1
      (forwarding.transmitDone node receiver).2 := by
  obtain ⟨rules, rfl⟩ := exists_eq_cube hcube
  have houter : (cube rules).crossPartner?.isSome = rules.role.isOuter := by
    simp only [crossPartner?]
    cases rules.role <;> rfl
  have htells : (cube rules).tells receiver = rules.informed.contains receiver := rfl
  simp only [owed, houter, htells, transmitDone, CubeForwarding.transmitDone]
  cases hrole : rules.role.isOuter with
  | false => exact .nobody rfl rfl
  | true =>
    cases htold : rules.informed.contains receiver with
    | true =>
      simp only [CubeForwarding.announce, htold, if_true, Bool.not_true, Bool.and_false,
        Bool.false_eq_true, if_false]
      exact .nobody rfl rfl
    | false =>
      simp only [CubeForwarding.announce, htold, Bool.false_eq_true, if_false, if_true,
        Bool.not_false, Bool.and_true]
      refine ⟨rfl, by simp, by simpa [tells] using htold, fun peer => ?_⟩
      simp only [tells, KeySet.contains_add, List.contains_cons, List.contains_nil, Bool.or_false]
      exact Bool.or_comm _ _

/-- A channel to the partner makes a cube node announce itself to the peers that it reaches. -/
theorem notifies_channelBound {event : ChannelEvent} (hcube : forwarding.profile = .cube)
    (htells : ∀ peer, forwarding.tells peer = false) (hunset : forwarding.crossPartner? = none)
    (hacross : node.topology.shareChassis node.rank event.peer = false) :
    forwarding.Notifies node node.ledger.directlyReached (forwarding.channelBound node event).1
      (forwarding.channelBound node event).2.2 := by
  obtain ⟨rules, rfl⟩ := exists_eq_cube hcube
  have hrole : rules.role = .undetermined := by
    cases hrole : rules.role with
    | undetermined => rfl
    | outer partner => exact absurd hunset (by simp [crossPartner?, hrole, Role.partner?])
  have hreached := (node.raiseTransmits outerExtraTx).ledger.nodup_directlyReached
  obtain ⟨informed, hall, hinformed⟩ := CubeForwarding.announceAll_eq
    { rules with role := .outer event.peer } (node.raiseTransmits outerExtraTx) hreached
    fun peer _ => htells peer
  simp only [channelBound, CubeForwarding.channelBound, hacross, hrole, Role.becomeOuter,
    Bool.false_eq_true, if_false, hall]
  exact ⟨Outbox.announcements_map node _, hreached, fun peer _ => htells peer, hinformed⟩

/-- A channel that brings no partner brings no announcement. -/
theorem notifies_channelBound_inside {event : ChannelEvent} (hcube : forwarding.profile = .cube)
    (hinside : node.topology.shareChassis node.rank event.peer = true) :
    forwarding.Notifies node [] (forwarding.channelBound node event).1
      (forwarding.channelBound node event).2.2 := by
  obtain ⟨rules, rfl⟩ := exists_eq_cube hcube
  simp only [channelBound, CubeForwarding.channelBound, hinside, if_true]
  exact .nobody rfl rfl

end Forwarding

end MeshFormation
