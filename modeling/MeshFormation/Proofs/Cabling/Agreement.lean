import MeshFormation.Proofs.Cabling.Simple

/-!
# Two nodes with several cables

Nodes that are connected by several cables are told of their ends one after the other. If the first
channel that either node is told of belongs to the same cable, this cable is the one that both use.
The list of known channels starts with what was told last.
-/

namespace MeshFormation.Cabling

variable {cabling : Cabling} {known later earlier : List (Rank × Channel)}
  {near far node peer : Rank} {channel farChannel other otherFar first : Channel}
  {cables links : List Link}

/-- The links are laid as one or more cables each, and no other nodes are connected. -/
structure Parallel (cables links : List Link) : Prop where
  along : ∀ cable ∈ cables, Joined links cable.1 cable.2
  covered : ∀ link ∈ links, Joined cables link.1 link.2

instance (cables links : List Link) : Decidable (Parallel cables links) :=
  decidable_of_iff ((cables.all fun cable => decide (Joined links cable.1 cable.2)) = true ∧
    (links.all fun link => decide (Joined cables link.1 link.2)) = true) <| by
      simp only [List.all_eq_true, decide_eq_true_eq]
      exact ⟨fun ⟨along, covered⟩ => ⟨along, covered⟩, fun ⟨along, covered⟩ => ⟨along, covered⟩⟩

theorem Parallel.joined_iff (h : Parallel cables links) :
    Joined cables near far ↔ Joined links near far := by
  constructor
  · rintro (hmem | hmem)
    · exact h.along _ hmem
    · exact (h.along _ hmem).symm
  · rintro (hmem | hmem)
    · exact h.covered _ hmem
    · exact (h.covered _ hmem).symm

/-! ## The first channel to a peer -/

/-- Whether a known channel is one from a node to a peer. -/
def leads (cabling : Cabling) (node peer : Rank) (known : Rank × Channel) : Bool :=
  known.1 == node && (cabling.farEnd? node known.2).any (·.1 == peer)

/-- The channel on which a node was first told of a peer. -/
def firstKnown? (cabling : Cabling) (known : List (Rank × Channel)) (node peer : Rank) :
    Option Channel :=
  (known.reverse.find? (cabling.leads node peer)).map (·.2)

/-- Nodes that were both told of each other were first told of the two ends of one cable. -/
def EndsAgree (cabling : Cabling) (known : List (Rank × Channel)) : Prop :=
  ∀ ⦃near far channel other⦄, cabling.firstKnown? known near far = some channel →
    cabling.firstKnown? known far near = some other →
      cabling.farEnd? near channel = some (far, other)

theorem leads_iff : cabling.leads node peer (near, channel) = true ↔
    near = node ∧ ∃ far, cabling.farEnd? node channel = some (peer, far) := by
  rw [leads, Bool.and_eq_true, beq_iff_eq, Option.any_eq_true]
  constructor
  · rintro ⟨rfl, ⟨_, far⟩, hcable, hpeer⟩
    obtain rfl := beq_iff_eq.1 hpeer
    exact ⟨rfl, far, hcable⟩
  · rintro ⟨rfl, far, hcable⟩
    exact ⟨rfl, _, hcable, beq_self_eq_true peer⟩

theorem of_firstKnown? (h : cabling.firstKnown? known node peer = some channel) :
    (node, channel) ∈ known ∧ ∃ far, cabling.farEnd? node channel = some (peer, far) := by
  obtain ⟨⟨near, channel⟩, hfind, rfl⟩ := Option.map_eq_some_iff.1 h
  obtain ⟨rfl, hcable⟩ := leads_iff.1 (List.find?_some hfind)
  exact ⟨List.mem_reverse.1 (List.mem_of_find?_eq_some hfind), hcable⟩

instance (cabling : Cabling) (known : List (Rank × Channel)) :
    Decidable (EndsAgree cabling known) :=
  decidable_of_iff ((known.all fun near => known.all fun far => decide
    (cabling.firstKnown? known near.1 far.1 = some near.2 →
      cabling.firstKnown? known far.1 near.1 = some far.2 →
        cabling.farEnd? near.1 near.2 = some far)) = true) <| by
    simp only [List.all_eq_true, decide_eq_true_eq]
    exact ⟨fun h _ _ _ _ hnear hfar =>
        h _ (of_firstKnown? hnear).1 _ (of_firstKnown? hfar).1 hnear hfar,
      fun h _ _ _ _ hnear hfar => h hnear hfar⟩

/-- A node that was told of a channel to a peer was told of a first one, then or before. -/
theorem firstKnown?_of_mem (hcable : cabling.farEnd? node channel = some (peer, farChannel)) :
    cabling.firstKnown? (later ++ (node, channel) :: earlier) node peer = some channel ∨
      ∃ other, cabling.firstKnown? (later ++ (node, channel) :: earlier) node peer = some other ∧
        (node, other) ∈ earlier := by
  have hleads : cabling.leads node peer (node, channel) = true := leads_iff.2 ⟨rfl, _, hcable⟩
  rw [firstKnown?, List.reverse_append, List.reverse_cons, List.append_assoc, List.find?_append]
  cases hfind : earlier.reverse.find? (cabling.leads node peer) with
  | none =>
    left
    simp [hleads]
  | some found =>
    obtain ⟨near, other⟩ := found
    obtain ⟨rfl, -⟩ := leads_iff.1 (List.find?_some hfind)
    exact .inr ⟨other, rfl, List.mem_reverse.1 (List.mem_of_find?_eq_some hfind)⟩

/-! ## The cable in use -/

/-- The channel with the least number from a node to a peer. -/
def leastChannel? (cabling : Cabling) (node peer : Rank) : Option Channel :=
  (cabling.wiringOf node).firstKey? (·.1 == peer)

theorem of_leastChannel? (h : cabling.leastChannel? node peer = some channel) :
    ∃ far, cabling.farEnd? node channel = some (peer, far) := by
  obtain ⟨⟨_, far⟩, hcable, hpeer⟩ := Table.get?_of_firstKey? h
  obtain rfl := beq_iff_eq.1 hpeer
  exact ⟨far, hcable⟩

theorem isSome_leastChannel? (hcable : cabling.farEnd? node channel = some (peer, farChannel)) :
    (cabling.leastChannel? node peer).isSome = true := by
  rw [Option.isSome_iff_ne_none]
  intro hnone
  exact absurd (Table.firstKey?_eq_none_iff.1 hnone channel _ hcable) (by simp)

/-- Whether two nodes use a cable with the given channels. They use the first one that either of
them was told of, and the first one of the node with the lower rank if neither was told of any. -/
def uses (cabling : Cabling) (known : List (Rank × Channel)) (near : Rank) (channel : Channel)
    (far : Rank) (farChannel : Channel) : Bool :=
  match cabling.firstKnown? known near far, cabling.firstKnown? known far near with
  | some first, _ => first == channel
  | none, some first => first == farChannel
  | none, none =>
    if near < far then cabling.leastChannel? near far == some channel
    else cabling.leastChannel? far near == some farChannel

/-- The channels at whose ends the cables in use are. -/
def usedChannel (cabling : Cabling) (known : List (Rank × Channel)) (node : Rank)
    (channel : Channel) : Bool :=
  match cabling.farEnd? node channel with
  | some (peer, farChannel) => cabling.uses known node channel peer farChannel
  | none => false

theorem usedChannel_eq (hcable : cabling.farEnd? node channel = some (peer, farChannel)) :
    cabling.usedChannel known node channel = cabling.uses known node channel peer farChannel := by
  rw [usedChannel, hcable]

/-- Of the channels to a peer, the first one that a node was told of is used. -/
theorem uses_of_firstKnown? (hfirst : cabling.firstKnown? known near far = some first) :
    cabling.uses known near channel far farChannel = true ↔ first = channel := by
  rw [uses, hfirst]
  exact beq_iff_eq

section Agree

variable (hagree : cabling.EndsAgree known)
  (hsymmetric : ∀ {near far : Rank} {channel farChannel : Channel},
    cabling.farEnd? near channel = some (far, farChannel) →
      cabling.farEnd? far farChannel = some (near, channel))
include hagree hsymmetric

/-- Both ends of a cable tell alike whether it is used. -/
theorem uses_comm (hne : near ≠ far)
    (hcable : cabling.farEnd? near channel = some (far, farChannel)) :
    cabling.uses known near channel far farChannel =
      cabling.uses known far farChannel near channel := by
  rw [uses, uses]
  cases hnear : cabling.firstKnown? known near far with
  | none =>
    cases hfar : cabling.firstKnown? known far near with
    | none =>
      rcases UInt32.lt_or_lt_of_ne hne with hlt | hlt
      · simp [hlt, UInt32.lt_asymm hlt]
      · simp [hlt, UInt32.lt_asymm hlt]
    | some second => rfl
  | some first =>
    cases hfar : cabling.firstKnown? known far near with
    | none => rfl
    | some second =>
      have hsame := hagree hnear hfar
      rw [Bool.eq_iff_iff, beq_iff_eq, beq_iff_eq]
      constructor
      · rintro rfl
        exact (Prod.mk.inj (Option.some.inj (hsame.symm.trans hcable))).2
      · rintro rfl
        have hback := (hsymmetric hsame).symm.trans (hsymmetric hcable)
        exact (Prod.mk.inj (Option.some.inj hback)).2

omit hagree in
/-- Two nodes use one cable. -/
theorem eq_of_uses (hcable : cabling.farEnd? near channel = some (far, farChannel))
    (huses : cabling.uses known near channel far farChannel = true)
    (hcable' : cabling.farEnd? near other = some (far, otherFar))
    (huses' : cabling.uses known near other far otherFar = true) : channel = other := by
  have hsame : farChannel = otherFar → channel = other := by
    rintro rfl
    have hback := (hsymmetric hcable).symm.trans (hsymmetric hcable')
    exact (Prod.mk.inj (Option.some.inj hback)).2
  rw [uses] at huses huses'
  cases hnear : cabling.firstKnown? known near far with
  | some first =>
    rw [hnear, beq_iff_eq] at huses huses'
    exact huses.symm.trans huses'
  | none =>
    cases hfar : cabling.firstKnown? known far near with
    | some first =>
      rw [hnear, hfar, beq_iff_eq] at huses huses'
      exact hsame (huses.symm.trans huses')
    | none =>
      rw [hnear, hfar] at huses huses'
      by_cases hlt : near < far
      · simp only [hlt, if_true, beq_iff_eq] at huses huses'
        exact Option.some.inj (huses.symm.trans huses')
      · simp only [hlt, if_false, beq_iff_eq] at huses huses'
        exact hsame (Option.some.inj (huses.symm.trans huses'))

omit hagree in
/-- Two nodes that are connected use a cable. -/
theorem exists_uses (hcable : cabling.farEnd? near channel = some (far, farChannel)) :
    ∃ other otherFar, cabling.farEnd? near other = some (far, otherFar) ∧
      cabling.uses known near other far otherFar = true := by
  simp only [uses]
  cases hnear : cabling.firstKnown? known near far with
  | some first =>
    obtain ⟨-, otherFar, hfirst⟩ := of_firstKnown? hnear
    exact ⟨first, otherFar, hfirst, beq_self_eq_true first⟩
  | none =>
    cases hfar : cabling.firstKnown? known far near with
    | some first =>
      obtain ⟨-, other, hfirst⟩ := of_firstKnown? hfar
      exact ⟨other, first, hsymmetric hfirst, beq_self_eq_true first⟩
    | none =>
      dsimp only
      split
      · obtain ⟨least, hleast⟩ := Option.isSome_iff_exists.1 (isSome_leastChannel? hcable)
        obtain ⟨otherFar, hother⟩ := of_leastChannel? hleast
        exact ⟨least, otherFar, hother, by simp [hleast]⟩
      · obtain ⟨least, hleast⟩ :=
          Option.isSome_iff_exists.1 (isSome_leastChannel? (hsymmetric hcable))
        obtain ⟨other, hother⟩ := of_leastChannel? hleast
        exact ⟨other, least, hsymmetric hother, by simp [hleast]⟩

end Agree

end MeshFormation.Cabling
