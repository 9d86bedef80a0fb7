import MeshFormation.Proofs.Forwarding.Relays

/-!
# How a node finds its partner

The first channel to the other chassis that passes all checks leads to the partner. A cube node
becomes an outer node by it, expects further transmits, and announces itself. Whom it has told
already is of no concern to anything but the announcements, so most of what is known of the rules of
a node is known of the rules with any other list of informed peers (`Forwarding.informing`).
-/

namespace MeshFormation

namespace CubeForwarding

theorem exists_announce (cube : CubeForwarding) (node : Node) (peer : Rank) :
    ∃ informed, (cube.announce node peer).1 = { cube with informed } := by
  unfold announce
  split
  · exact ⟨cube.informed, rfl⟩
  · exact ⟨cube.informed.add peer, rfl⟩

theorem exists_announceAll (cube : CubeForwarding) (node : Node) (peers : List Rank) :
    ∃ informed, (cube.announceAll node peers).1 = { cube with informed } := by
  induction peers generalizing cube with
  | nil => exact ⟨cube.informed, rfl⟩
  | cons peer rest ih =>
    obtain ⟨first, hfirst⟩ := cube.exists_announce node peer
    obtain ⟨others, hothers⟩ := ih (cube.announce node peer).1
    refine ⟨others, hothers.trans ?_⟩
    rw [hfirst]

end CubeForwarding

namespace Forwarding

variable {forwarding : Forwarding} {node : Node} {event : ChannelEvent}

/-- The rules of a node that has announced itself to the given peers. -/
def informing (forwarding : Forwarding) (informed : KeySet) : Forwarding :=
  match forwarding with
  | pair => pair
  | cube rules => cube { rules with informed }
  | hypercube rules => hypercube rules

@[simp] theorem crossPartner?_informing (forwarding : Forwarding) (informed : KeySet) :
    (forwarding.informing informed).crossPartner? = forwarding.crossPartner? := by
  cases forwarding <;> rfl

@[simp] theorem profile_informing (forwarding : Forwarding) (informed : KeySet) :
    (forwarding.informing informed).profile = forwarding.profile := by
  cases forwarding <;> rfl

@[simp] theorem hears_informing (forwarding : Forwarding) (informed : KeySet) :
    (forwarding.informing informed).hears = forwarding.hears := by
  cases forwarding <;> rfl

@[simp] theorem ran_informing (forwarding : Forwarding) (informed : KeySet) (rule : RelayRule) :
    (forwarding.informing informed).ran rule = forwarding.ran rule := by
  cases forwarding <;> cases rule <;> rfl

@[simp] theorem requestedLinks_informing (forwarding : Forwarding) (informed : KeySet) :
    (forwarding.informing informed).requestedLinks = forwarding.requestedLinks := by
  cases forwarding <;> rfl

@[simp] theorem links_informing (forwarding : Forwarding) (informed : KeySet) :
    (forwarding.informing informed).links = forwarding.links := by
  cases forwarding <;> rfl

/-- A completed transmit may lead to an announcement. -/
theorem exists_transmitDone (forwarding : Forwarding) (node : Node) (receiver : Rank) :
    ∃ informed, (forwarding.transmitDone node receiver).1 = forwarding.informing informed := by
  cases forwarding with
  | pair => exact ⟨∅, rfl⟩
  | hypercube rules => exact ⟨∅, rfl⟩
  | cube rules =>
    simp only [transmitDone, CubeForwarding.transmitDone]
    split
    · obtain ⟨informed, hinformed⟩ := rules.exists_announce node receiver
      exact ⟨informed, by rw [hinformed]; rfl⟩
    · exact ⟨rules.informed, rfl⟩

theorem ran_transmitDone (forwarding : Forwarding) (node : Node) (receiver : Rank)
    (rule : RelayRule) :
    (forwarding.transmitDone node receiver).1.ran rule = forwarding.ran rule := by
  obtain ⟨informed, hinformed⟩ := forwarding.exists_transmitDone node receiver
  rw [hinformed, ran_informing]

theorem hears_transmitDone (forwarding : Forwarding) (node : Node) (receiver : Rank) :
    (forwarding.transmitDone node receiver).1.hears = forwarding.hears := by
  obtain ⟨informed, hinformed⟩ := forwarding.exists_transmitDone node receiver
  rw [hinformed, hears_informing]

/-- The second state of the rules knows of the same links as the first one. -/
structure KeepsLinks (forwarding next : Forwarding) : Prop where
  profile : next.profile = forwarding.profile
  partner : next.crossPartner? = forwarding.crossPartner?
  requested : next.requestedLinks = forwarding.requestedLinks
  links : next.links = forwarding.links

namespace KeepsLinks

variable {middle next : Forwarding}

theorem refl (forwarding : Forwarding) : forwarding.KeepsLinks forwarding := ⟨rfl, rfl, rfl, rfl⟩

theorem trans (h : forwarding.KeepsLinks middle) (h' : middle.KeepsLinks next) :
    forwarding.KeepsLinks next :=
  ⟨h'.profile.trans h.profile, h'.partner.trans h.partner, h'.requested.trans h.requested,
    h'.links.trans h.links⟩

theorem marked (forwarding : Forwarding) (ran : RelayRule → Bool) :
    forwarding.KeepsLinks (forwarding.marked ran) := by
  constructor <;> simp

theorem informing (forwarding : Forwarding) (informed : KeySet) :
    forwarding.KeepsLinks (forwarding.informing informed) := by
  constructor <;> simp

theorem transmitDone (forwarding : Forwarding) (node : Node) (receiver : Rank) :
    forwarding.KeepsLinks (forwarding.transmitDone node receiver).1 := by
  obtain ⟨informed, hinformed⟩ := forwarding.exists_transmitDone node receiver
  rw [hinformed]
  exact .informing forwarding informed

end KeepsLinks

/-- What an admitted channel makes of the rules and of the node that bound it. -/
inductive Joins (forwarding : Forwarding) (node : Node) (event : ChannelEvent) :
    Forwarding → Node → Prop where
  | pair (profile : forwarding = .pair) : Joins forwarding node event .pair node
  | inside (same : node.topology.shareChassis node.rank event.peer = true) :
      Joins forwarding node event forwarding node
  | cube {rules : CubeForwarding} {informed : KeySet} (profile : forwarding = .cube rules)
      (across : node.topology.shareChassis node.rank event.peer = false)
      (undetermined : rules.role = .undetermined) :
      Joins forwarding node event (.cube { rules with role := .outer event.peer, informed })
        (node.raiseTransmits outerExtraTx)
  | hypercube {rules : HypercubeForwarding} (profile : forwarding = .hypercube rules)
      (across : node.topology.shareChassis node.rank event.peer = false)
      (unset : rules.partner.value = none) :
      Joins forwarding node event (.hypercube { rules with partner := ⟨some event.peer⟩ }) node

theorem Joins.profile_eq {after : Forwarding} {last : Node}
    (h : forwarding.Joins node event after last) : after.profile = forwarding.profile := by
  cases h with
  | inside => rfl
  | pair profile | cube profile | hypercube profile =>
    exact (congrArg Forwarding.profile profile).symm

/-- A channel leaves the partner as it is, or it leads out of the chassis to the first partner. -/
theorem Joins.partner {after : Forwarding} {last : Node}
    (h : forwarding.Joins node event after last) :
    after.crossPartner? = forwarding.crossPartner? ∧
        (forwarding.profile = .pair ∨ node.topology.shareChassis node.rank event.peer = true) ∨
      forwarding.crossPartner? = none ∧ after.crossPartner? = some event.peer ∧
        node.topology.shareChassis node.rank event.peer = false := by
  cases h with
  | inside same => exact .inl ⟨rfl, .inr same⟩
  | pair profile => exact .inl ⟨by rw [profile], .inl (by rw [profile]; rfl)⟩
  | cube profile across undetermined =>
    rw [profile]
    exact .inr ⟨congrArg Role.partner? undetermined, rfl, across⟩
  | hypercube profile across unset =>
    rw [profile]
    exact .inr ⟨unset, rfl, across⟩

theorem Joins.advances {after : Forwarding} {last : Node}
    (h : forwarding.Joins node event after last) :
    node.Advances last := by
  cases h with
  | pair | inside | hypercube => exact .refl node
  | cube => exact node.advances_raiseTransmits outerExtraTx

theorem Joins.ran {after : Forwarding} {last : Node} (h : forwarding.Joins node event after last)
    (rule : RelayRule) : after.ran rule = forwarding.ran rule := by
  cases h with
  | inside => rfl
  | pair profile => rw [profile]
  | cube profile | hypercube profile =>
    rw [profile]
    cases rule <;> rfl

theorem Joins.hears {after : Forwarding} {last : Node}
    (h : forwarding.Joins node event after last) :
    after.hears = forwarding.hears := by
  cases h with
  | inside => rfl
  | pair profile | cube profile | hypercube profile =>
    exact (congrArg Forwarding.hears profile).symm

theorem Joins.links {after : Forwarding} {last : Node}
    (h : forwarding.Joins node event after last) :
    after.requestedLinks = forwarding.requestedLinks ∧ after.links = forwarding.links := by
  cases h with
  | inside => exact ⟨rfl, rfl⟩
  | pair profile => exact ⟨by rw [profile], by rw [profile]⟩
  | cube profile => exact ⟨by rw [profile]; rfl, by rw [profile]; rfl⟩
  | hypercube profile => exact ⟨by rw [profile]; rfl, by rw [profile]; rfl⟩

theorem rejection?_congr {next : Node} (h : next.topology = node.topology) :
    forwarding.rejection? next event = forwarding.rejection? node event := by
  have hrank : next.rank = node.rank := congrArg Topology.localRank h
  cases forwarding with
  | pair => rfl
  | cube rules =>
    rw [rejection?, rejection?, CubeForwarding.rejection?, CubeForwarding.rejection?, h, hrank]
  | hypercube rules =>
    rw [rejection?, rejection?, HypercubeForwarding.rejection?, HypercubeForwarding.rejection?, h,
      hrank]

theorem joins_channelBound (h : forwarding.rejection? node event = none) :
    forwarding.Joins node event (forwarding.channelBound node event).1
      (forwarding.channelBound node event).2.1 := by
  cases forwarding with
  | pair => exact .pair rfl
  | cube rules =>
    simp only [rejection?, CubeForwarding.rejection?] at h
    simp only [channelBound, CubeForwarding.channelBound]
    cases hsame : node.topology.shareChassis node.rank event.peer with
    | true => exact .inside hsame
    | false =>
      simp only [hsame, Bool.false_eq_true, if_false, Option.map_eq_none_iff] at h
      cases hrole : rules.role with
      | outer partner => exact absurd h (by simp [hrole, Role.partner?])
      | undetermined =>
        simp only [Bool.false_eq_true, if_false, Role.becomeOuter]
        obtain ⟨informed, hinformed⟩ := CubeForwarding.exists_announceAll
          { rules with role := .outer event.peer } (node.raiseTransmits outerExtraTx)
          (node.raiseTransmits outerExtraTx).ledger.directlyReached
        rw [hinformed]
        exact @Joins.cube (.cube rules) node event rules informed rfl hsame hrole
  | hypercube rules =>
    obtain ⟨⟨partner⟩, requestedLinks, liveLinks, partnerRelayed⟩ := rules
    simp only [rejection?, HypercubeForwarding.rejection?] at h
    simp only [channelBound, HypercubeForwarding.channelBound]
    cases hsame : node.topology.shareChassis node.rank event.peer with
    | true => exact .inside hsame
    | false =>
      simp only [hsame, Bool.false_eq_true, if_false, Option.map_eq_none_iff] at h
      subst h
      exact .hypercube rfl hsame rfl

end Forwarding

end MeshFormation
