import MeshFormation.Fabric
import MeshFormation.Proofs.Cabling.Simple
import MeshFormation.Proofs.Forwarding.Due
import MeshFormation.Proofs.Topology.Chassis
import Mathlib.Data.List.Pairwise

/-!
# Who is to relay what

The members and the links of an ensemble fix which node has to transmit the data of which source to
which receiver: its own data to every node it is linked to, the data of its partner in the other
chassis to its chassis mates and, in a cube with two outer nodes in the chassis, the data of the
inner mates to the partner and the data of one inner node of the other chassis to the inner mates.
No receiver gets the data of a source from two nodes. That makes the routes unique, whatever the
order of events.
-/

namespace MeshFormation

/-- The members of an ensemble with their profile, and the links between them. -/
structure Blueprint where
  topology : Topology
  links : List Link

namespace Blueprint

variable {b : Blueprint} {source near far other node first second fellow partner : Rank}

def Joined (b : Blueprint) (first second : Rank) : Prop := Cabling.Joined b.links first second

def crossLinks (b : Blueprint) : List Link :=
  b.links.filter fun link => !b.topology.shareChassis link.1 link.2

def oppositeEnd? (node : Rank) (link : Link) : Option Rank :=
  if link.1 = node then some link.2 else if link.2 = node then some link.1 else none

/-- The node in the other chassis to which a node is linked. -/
def partner? (b : Blueprint) (node : Rank) : Option Rank :=
  b.crossLinks.findSome? (oppositeEnd? node)

def mates (b : Blueprint) (node : Rank) : List Rank := b.topology.chassisMates node

/-- The other node of the chassis that has a partner. Only the rules of a cube ask for it. -/
def fellow? (b : Blueprint) (node : Rank) : Option Rank :=
  if b.topology.profile = .cube ∧ (b.partner? node).isSome then
    (b.mates node).find? fun mate => (b.partner? mate).isSome
  else none

/-- The chassis mates without a partner, as an outer node with a fellow sees them. -/
def inners (b : Blueprint) (node : Rank) : List Rank :=
  match b.fellow? node with
  | some fellow => innerNodes (b.mates node) fellow
  | none => []

/-- The inner node of the other chassis whose data a node relays into its own chassis. -/
def chosen? (b : Blueprint) (node : Rank) : Option Rank :=
  (b.partner? node).bind fun partner => (b.fellow? node).bind fun fellow =>
    crossChoice node fellow (b.inners partner)

/-- The data of a source is to be sent by one node to another. -/
inductive Feeds (b : Blueprint) (source : Rank) : Rank → Rank → Prop where
  | direct {far : Rank} (joined : b.Joined source far) : Feeds b source source far
  | fanout {near far : Rank} (partner : b.partner? near = some source) (mate : far ∈ b.mates near) :
    Feeds b source near far
  | uplink {near far : Rank} (partner : b.partner? near = some far)
    (inner : source ∈ b.inners near) : Feeds b source near far
  | cross {near far : Rank} (chosen : b.chosen? near = some source) (inner : far ∈ b.inners near) :
    Feeds b source near far

/-- Two links have no end in common. -/
def Apart (link other : Link) : Prop :=
  link.1 ≠ other.1 ∧ link.1 ≠ other.2 ∧ link.2 ≠ other.1 ∧ link.2 ≠ other.2

instance (link other : Link) : Decidable (Apart link other) :=
  inferInstanceAs (Decidable (_ ∧ _))

instance : Std.Symm Apart where
  symm _ _ h := ⟨h.1.symm, h.2.2.1.symm, h.2.1.symm, h.2.2.2.symm⟩

/-- Links that join no two nodes twice, stay within the partitions and give no node two partners. A
cube has at most two links between its chassis. -/
structure Valid (b : Blueprint) : Prop where
  fault : b.topology.fault? = none
  profile : b.topology.profile ≠ .pair
  member : ∀ link ∈ b.links, b.topology.hasMember link.1 = true ∧
    b.topology.hasMember link.2 = true ∧ b.topology.sharePartition link.1 link.2 = true
  simple : Cabling.Simple b.links
  apart : b.crossLinks.Pairwise Apart
  few : b.topology.profile = .cube → b.crossLinks.length ≤ 2

/-! ## Links and partners -/

theorem Joined.symm (h : b.Joined first second) : b.Joined second first := Or.symm h

theorem oppositeEnd?_eq_some_iff {link : Link} :
    oppositeEnd? node link = some other ↔
      link.1 = node ∧ link.2 = other ∨ link.1 ≠ node ∧ link.2 = node ∧ link.1 = other := by
  unfold oppositeEnd?
  split
  · rename_i h
    simp [h]
  · rename_i h
    split <;> simp_all

namespace Valid

variable (h : b.Valid)
include h

theorem balanced (hmember : b.topology.hasMember node = true) : b.topology.Balanced node := by
  cases hkind : b.topology.profile with
  | pair => exact absurd hkind h.profile
  | cube => exact Topology.balanced_of_cube hkind h.fault node
  | hypercube => exact Topology.balanced_of_hypercube hkind h.fault hmember

theorem of_joined (hjoined : b.Joined first second) :
    first ≠ second ∧ b.topology.hasMember first = true ∧ b.topology.hasMember second = true ∧
      b.topology.sharePartition first second = true := by
  rcases hjoined with hmem | hmem
  · obtain ⟨hfirst, hsecond, hshare⟩ := h.member _ hmem
    exact ⟨h.simple.distinct _ hmem, hfirst, hsecond, hshare⟩
  · obtain ⟨hsecond, hfirst, hshare⟩ := h.member _ hmem
    rw [Topology.sharePartition_comm] at hshare
    exact ⟨(h.simple.distinct _ hmem).symm, hfirst, hsecond, hshare⟩

theorem eq_of_common_end {link other : Link} (hlink : link ∈ b.crossLinks)
    (hother : other ∈ b.crossLinks) (hend : link.1 = node ∨ link.2 = node)
    (hend' : other.1 = node ∨ other.2 = node) : link = other := by
  refine Decidable.byContradiction fun hne => ?_
  have hapart := h.apart.forall hlink hother hne
  rcases hend with rfl | rfl <;> rcases hend' with heq | heq <;> simp [Apart, heq] at hapart

theorem partner?_eq_some_iff :
    b.partner? node = some other ↔
      b.Joined node other ∧ b.topology.shareChassis node other = false := by
  constructor
  · intro hpartner
    obtain ⟨link, hmem, hend⟩ := List.exists_of_findSome?_eq_some hpartner
    obtain ⟨hlink, hcross⟩ := List.mem_filter.1 hmem
    rcases oppositeEnd?_eq_some_iff.1 hend with ⟨rfl, rfl⟩ | ⟨-, rfl, rfl⟩
    · exact ⟨.inl hlink, by simpa using hcross⟩
    · rw [Topology.shareChassis_comm]
      exact ⟨.inr hlink, by simpa using hcross⟩
  · rintro ⟨hjoined, hcross⟩
    have hne := (h.of_joined hjoined).1
    obtain ⟨link, hmem, hend⟩ : ∃ link ∈ b.crossLinks, oppositeEnd? node link = some other := by
      rcases hjoined with hlink | hlink
      · exact ⟨_, List.mem_filter.2 ⟨hlink, by simp [hcross]⟩,
          oppositeEnd?_eq_some_iff.2 (.inl ⟨rfl, rfl⟩)⟩
      · rw [Topology.shareChassis_comm] at hcross
        exact ⟨_, List.mem_filter.2 ⟨hlink, by simp [hcross]⟩,
          oppositeEnd?_eq_some_iff.2 (.inr ⟨hne.symm, rfl, rfl⟩)⟩
    have hsome : (b.partner? node).isSome = true := by
      rw [partner?, List.findSome?_isSome_iff]
      exact ⟨link, hmem, by rw [hend]; rfl⟩
    obtain ⟨found, hfound⟩ := Option.isSome_iff_exists.1 hsome
    obtain ⟨link', hmem', hend'⟩ := List.exists_of_findSome?_eq_some hfound
    have hends : ∀ {link : Link} {found : Rank}, oppositeEnd? node link = some found →
        link.1 = node ∨ link.2 = node := by
      intro link found hend
      rcases oppositeEnd?_eq_some_iff.1 hend with ⟨heq, -⟩ | ⟨-, heq, -⟩
      · exact .inl heq
      · exact .inr heq
    obtain rfl := h.eq_of_common_end hmem hmem' (hends hend) (hends hend')
    rw [hfound]
    exact hend'.symm.trans hend

theorem partner?_comm (hpartner : b.partner? first = some second) :
    b.partner? second = some first := by
  rw [h.partner?_eq_some_iff] at *
  rw [Topology.shareChassis_comm]
  exact ⟨hpartner.1.symm, hpartner.2⟩

omit h in
theorem mem_mates_iff : other ∈ b.mates node ↔
    other ≠ node ∧ b.topology.shareChassis node other = true :=
  Topology.mem_chassisMates_iff

/-! ## Outer nodes of a chassis -/

theorem partner?_notMem_mates (hpartner : b.partner? first = some second) :
    second ∉ b.mates first := by
  intro hmem
  have hcross := (h.partner?_eq_some_iff.1 hpartner).2
  rw [(mem_mates_iff.1 hmem).2] at hcross
  exact absurd hcross (by simp)

omit h in
theorem exists_crossLink (hpartner : b.partner? node = some other) :
    ∃ link ∈ b.crossLinks, oppositeEnd? node link = some other :=
  List.exists_of_findSome?_eq_some hpartner

omit h in
theorem ne_of_oppositeEnd? {link : Link} {firstEnd secondEnd : Rank} (hlink : link ∈ b.crossLinks)
    (hfirst : oppositeEnd? first link = some firstEnd)
    (hsecond : oppositeEnd? second link = some secondEnd)
    (hshare : b.topology.shareChassis first second = true) : first = second := by
  have hcross := (List.mem_filter.1 hlink).2
  have hshare' := hshare
  rw [Topology.shareChassis_comm] at hshare'
  rcases oppositeEnd?_eq_some_iff.1 hfirst with ⟨rfl, -⟩ | ⟨-, rfl, -⟩ <;>
    rcases oppositeEnd?_eq_some_iff.1 hsecond with ⟨heq, -⟩ | ⟨-, heq, -⟩
  · exact heq
  · subst heq
    simp [hshare] at hcross
  · subst heq
    simp [hshare'] at hcross
  · exact heq

/-- In a cube at most two nodes of a chassis have a partner. -/
theorem eq_of_outer (hprofile : b.topology.profile = .cube)
    (hfirst : first ∈ b.mates node) (hsecond : second ∈ b.mates node)
    (hnode : (b.partner? node).isSome = true) (hfirst' : (b.partner? first).isSome = true)
    (hsecond' : (b.partner? second).isSome = true) : first = second := by
  obtain ⟨hne, hshare⟩ := mem_mates_iff.1 hfirst
  obtain ⟨hne', hshare'⟩ := mem_mates_iff.1 hsecond
  refine Decidable.byContradiction fun hdiff => ?_
  obtain ⟨_, hnode⟩ := Option.isSome_iff_exists.1 hnode
  obtain ⟨_, hfirst'⟩ := Option.isSome_iff_exists.1 hfirst'
  obtain ⟨_, hsecond'⟩ := Option.isSome_iff_exists.1 hsecond'
  obtain ⟨l₀, hmem₀, hend₀⟩ := exists_crossLink hnode
  obtain ⟨l₁, hmem₁, hend₁⟩ := exists_crossLink hfirst'
  obtain ⟨l₂, hmem₂, hend₂⟩ := exists_crossLink hsecond'
  have hshare₁₂ : b.topology.shareChassis first second = true := by
    rw [Topology.shareChassis_comm] at hshare
    exact Topology.shareChassis_trans hshare hshare'
  have hnodup : [l₀, l₁, l₂].Nodup := by
    simp only [List.nodup_cons, List.mem_cons, List.not_mem_nil, or_false, not_or, List.nodup_nil,
      and_true, not_false_eq_true]
    refine ⟨⟨?_, ?_⟩, ?_⟩
    · rintro rfl
      exact hne (ne_of_oppositeEnd? hmem₀ hend₀ hend₁ hshare).symm
    · rintro rfl
      exact hne' (ne_of_oppositeEnd? hmem₀ hend₀ hend₂ hshare').symm
    · rintro rfl
      exact hdiff (ne_of_oppositeEnd? hmem₁ hend₁ hend₂ hshare₁₂)
  have hsubset : [l₀, l₁, l₂] ⊆ b.crossLinks := by simp [*]
  have hlength := (List.subperm_of_subset hnodup hsubset).length_le
  have hfew := h.few hprofile
  simp only [List.length_cons, List.length_nil] at hlength
  omega

theorem fellow?_eq_some_iff :
    b.fellow? node = some fellow ↔ b.topology.profile = .cube ∧ (b.partner? node).isSome = true ∧
      fellow ∈ b.mates node ∧ (b.partner? fellow).isSome = true := by
  unfold fellow?
  constructor
  · intro hfellow
    split at hfellow
    · rename_i hcube
      have houter := List.find?_some hfellow
      exact ⟨hcube.1, hcube.2, List.mem_of_find?_eq_some hfellow, houter⟩
    · exact absurd hfellow (by simp)
  · rintro ⟨hcube, hnode, hmate, hfellow⟩
    rw [if_pos ⟨hcube, hnode⟩]
    have hsome : ((b.mates node).find? fun mate => (b.partner? mate).isSome).isSome = true := by
      rw [List.find?_isSome]
      exact ⟨fellow, hmate, hfellow⟩
    obtain ⟨found, hfound⟩ := Option.isSome_iff_exists.1 hsome
    have houter := List.find?_some hfound
    rw [hfound, h.eq_of_outer hcube (List.mem_of_find?_eq_some hfound) hmate hnode houter hfellow]

theorem fellow?_comm (hfellow : b.fellow? first = some second) :
    b.fellow? second = some first := by
  rw [h.fellow?_eq_some_iff] at *
  obtain ⟨hcube, hfirst, hmate, hsecond⟩ := hfellow
  exact ⟨hcube, hsecond, Topology.mem_chassisMates_comm.1 hmate, hfirst⟩

/-- The partners of the two outer nodes of a chassis are the outer nodes of the other chassis. -/
theorem fellow?_partner? (hfellow : b.fellow? first = some second)
    (hpartner : b.partner? first = some partner) (hpartner' : b.partner? second = some other) :
    b.fellow? partner = some other := by
  obtain ⟨hcube, -, hmate, -⟩ := h.fellow?_eq_some_iff.1 hfellow
  obtain ⟨hne, hshare⟩ := mem_mates_iff.1 hmate
  obtain ⟨hjoined, hcross⟩ := h.partner?_eq_some_iff.1 hpartner
  obtain ⟨hjoined', hcross'⟩ := h.partner?_eq_some_iff.1 hpartner'
  obtain ⟨-, hfirst, hpartnerMember, hpartition⟩ := h.of_joined hjoined
  obtain ⟨-, -, hotherMember, hpartition'⟩ := h.of_joined hjoined'
  have hother : b.topology.sharePartition first other = true :=
    Topology.sharePartition_trans (Topology.sharePartition_of_shareChassis hshare) hpartition'
  have hback := h.partner?_comm hpartner
  have hback' := h.partner?_comm hpartner'
  have hmate' : other ∈ b.mates partner := by
    refine mem_mates_iff.2 ⟨?_, ?_⟩
    · rintro rfl
      exact hne (Option.some.inj (hback'.symm.trans hback))
    · rcases (h.balanced hfirst).shareChassis_or hfirst
        (Topology.mem_group_iff.2 ⟨hpartnerMember, hpartition⟩)
        (Topology.mem_group_iff.2 ⟨hotherMember, hother⟩) hcross with hsame | hsame
      · rw [Topology.shareChassis_comm] at hshare
        rw [Topology.shareChassis_trans hshare hsame] at hcross'
        exact absurd hcross' (by simp)
      · exact hsame
  rw [h.fellow?_eq_some_iff, hback, hback']
  exact ⟨hcube, rfl, hmate', rfl⟩

omit h in
theorem mem_inners_iff :
    other ∈ b.inners node ↔ ∃ fellow, b.fellow? node = some fellow ∧ other ∈ b.mates node ∧
      other ≠ fellow := by
  unfold inners
  cases b.fellow? node with
  | none => simp
  | some fellow => simp [innerNodes]

theorem partner?_of_mem_inners (hmem : other ∈ b.inners node) : b.partner? other = none := by
  obtain ⟨fellow, hfellow, hmate, hne⟩ := mem_inners_iff.1 hmem
  obtain ⟨hcube, hnode, -⟩ := h.fellow?_eq_some_iff.1 hfellow
  cases hpartner : b.partner? other with
  | none => rfl
  | some partner =>
    have hother : b.fellow? node = some other :=
      h.fellow?_eq_some_iff.2 ⟨hcube, hnode, hmate, by rw [hpartner]; rfl⟩
    exact absurd (Option.some.inj (hother.symm.trans hfellow)) hne

omit h in
theorem mem_mates_of_mem_inners (hmem : other ∈ b.inners node) : other ∈ b.mates node := by
  obtain ⟨-, -, hmate, -⟩ := mem_inners_iff.1 hmem
  exact hmate

/-- Both outer nodes of a chassis see the same inner nodes. -/
theorem inners_eq (hfellow : b.fellow? first = some second) : b.inners first = b.inners second := by
  have hback := h.fellow?_comm hfellow
  obtain ⟨-, -, hmate, -⟩ := h.fellow?_eq_some_iff.1 hfellow
  obtain ⟨hne, hshare⟩ := mem_mates_iff.1 hmate
  unfold inners
  rw [hfellow, hback]
  simp only [innerNodes, mates, Topology.chassisMates, List.filter_filter]
  apply List.filter_congr
  intro other _
  have hsame : b.topology.shareChassis first other = b.topology.shareChassis second other := by
    rw [Bool.eq_iff_iff]
    constructor
    · intro hother
      rw [Topology.shareChassis_comm] at hshare
      exact Topology.shareChassis_trans hshare hother
    · exact Topology.shareChassis_trans hshare
  rw [hsame]
  exact Bool.and_left_comm _ _ _

end Valid

/-! ## The choice between two inner nodes -/

variable {candidate : Rank}

theorem chosen?_eq_some_iff :
    b.chosen? node = some candidate ↔ ∃ partner fellow, b.partner? node = some partner ∧
      b.fellow? node = some fellow ∧
        crossChoice node fellow (b.inners partner) = some candidate := by
  simp only [chosen?, Option.bind_eq_some_iff]
  constructor
  · rintro ⟨partner, hpartner, fellow, hfellow, hchoice⟩
    exact ⟨partner, fellow, hpartner, hfellow, hchoice⟩
  · rintro ⟨partner, fellow, hpartner, hfellow, hchoice⟩
    exact ⟨partner, hpartner, fellow, hfellow, hchoice⟩

/-! ## One node feeds a receiver -/

namespace Valid

variable (h : b.Valid)
include h

/-- A node shares a chassis with the receivers of its own chassis only. -/
theorem shareChassis_eq_false_of_partner (hpartner : b.partner? node = some partner)
    (hshare : b.topology.shareChassis node other = true) :
    b.topology.shareChassis partner other = false := by
  have hcross := (h.partner?_eq_some_iff.1 hpartner).2
  rw [Bool.eq_false_iff]
  intro hsame
  rw [Topology.shareChassis_comm] at hsame
  rw [Topology.shareChassis_trans hshare hsame] at hcross
  exact absurd hcross (by simp)

/-- The data of a node comes to its own chassis from the node itself. -/
theorem eq_of_feeds_of_shareChassis (hfeeds : b.Feeds source near far)
    (hshare : b.topology.shareChassis source far = true) : near = source := by
  cases hfeeds with
  | direct joined => rfl
  | fanout hpartner hmate =>
    have hcross := h.shareChassis_eq_false_of_partner hpartner (mem_mates_iff.1 hmate).2
    rw [hcross] at hshare
    exact absurd hshare (by simp)
  | uplink hpartner hinner =>
    have hmate := mem_mates_of_mem_inners hinner
    have hcross := h.shareChassis_eq_false_of_partner hpartner (mem_mates_iff.1 hmate).2
    rw [Topology.shareChassis_comm, hshare] at hcross
    exact absurd hcross (by simp)
  | cross hchosen hinner =>
    obtain ⟨partner, fellow, hpartner, -, hchoice⟩ := chosen?_eq_some_iff.1 hchosen
    have hsource := mem_mates_of_mem_inners (crossChoice_eq_some hchoice).1
    have hmate := mem_mates_of_mem_inners hinner
    have hcross := h.shareChassis_eq_false_of_partner hpartner (mem_mates_iff.1 hmate).2
    rw [Topology.shareChassis_trans (mem_mates_iff.1 hsource).2 hshare] at hcross
    exact absurd hcross (by simp)

/-- The data of a node comes to its partner from the node itself. -/
theorem eq_of_feeds_of_partner (hfeeds : b.Feeds source near far)
    (hsource : b.partner? far = some source) : near = source := by
  cases hfeeds with
  | direct joined => rfl
  | fanout hpartner hmate =>
    have hback := h.partner?_comm hpartner
    obtain rfl := Option.some.inj ((h.partner?_comm hsource).symm.trans hback)
    exact absurd hmate (by simp [mem_mates_iff])
  | uplink hpartner hinner =>
    have hback := h.partner?_comm hpartner
    exact Option.some.inj (hback.symm.trans hsource)
  | cross hchosen hinner =>
    rw [h.partner?_of_mem_inners hinner] at hsource
    exact absurd hsource (by simp)

theorem eq_of_feeds_of_joined (hfeeds : b.Feeds source near far) (hjoined : b.Joined source far) :
    near = source := by
  by_cases hshare : b.topology.shareChassis source far = true
  · exact h.eq_of_feeds_of_shareChassis hfeeds hshare
  · have hpartner := h.partner?_eq_some_iff.2 ⟨hjoined, by simpa using hshare⟩
    exact h.eq_of_feeds_of_partner hfeeds (h.partner?_comm hpartner)

theorem notMem_inners_of_partner (hpartner : b.partner? node = some partner) :
    partner ∉ b.inners other := by
  intro hinner
  have hnone := h.partner?_of_mem_inners hinner
  rw [h.partner?_comm hpartner] at hnone
  exact absurd hnone (by simp)

theorem chosen?_ne_of_partner (hpartner : b.partner? node = some partner) :
    b.chosen? other ≠ some partner := by
  intro hchosen
  obtain ⟨_, _, -, -, hchoice⟩ := chosen?_eq_some_iff.1 hchosen
  exact h.notMem_inners_of_partner hpartner (crossChoice_eq_some hchoice).1

/-- The two outer nodes of a chassis choose differently, so an inner node gets the data of a source
from one of them only. -/
theorem eq_of_chosen (hchosen : b.chosen? first = some source)
    (hchosen' : b.chosen? second = some source) (hinner : far ∈ b.inners first)
    (hinner' : far ∈ b.inners second) : first = second := by
  obtain ⟨partner, fellow, hpartner, hfellow, hchoice⟩ := chosen?_eq_some_iff.1 hchosen
  obtain ⟨partner', fellow', hpartner', hfellow', hchoice'⟩ := chosen?_eq_some_iff.1 hchosen'
  refine Decidable.byContradiction fun hne => ?_
  have hmate : second ∈ b.mates first := by
    have hfirst := (mem_mates_iff.1 (mem_mates_of_mem_inners hinner)).2
    have hsecond := (mem_mates_iff.1 (mem_mates_of_mem_inners hinner')).2
    rw [Topology.shareChassis_comm] at hsecond
    exact mem_mates_iff.2 ⟨Ne.symm hne, Topology.shareChassis_trans hfirst hsecond⟩
  have hcube := (h.fellow?_eq_some_iff.1 hfellow).1
  have hother : b.fellow? first = some second :=
    h.fellow?_eq_some_iff.2 ⟨hcube, by rw [hpartner]; rfl, hmate, by rw [hpartner']; rfl⟩
  obtain rfl := Option.some.inj (hother.symm.trans hfellow)
  obtain rfl := Option.some.inj ((h.fellow?_comm hother).symm.trans hfellow')
  rw [h.inners_eq (h.fellow?_partner? hother hpartner hpartner')] at hchoice
  exact crossChoice_ne hne hchoice hchoice' rfl

/-- No receiver is fed the data of a source by two nodes. -/
theorem eq_of_feeds (hfeeds : b.Feeds source first far) (hfeeds' : b.Feeds source second far) :
    first = second := by
  cases hfeeds with
  | direct joined => exact (h.eq_of_feeds_of_joined hfeeds' joined).symm
  | fanout hpartner hmate =>
    cases hfeeds' with
    | direct joined => exact h.eq_of_feeds_of_joined (.fanout hpartner hmate) joined
    | fanout hpartner' hmate' =>
      exact Option.some.inj ((h.partner?_comm hpartner).symm.trans (h.partner?_comm hpartner'))
    | uplink hpartner' hinner => exact absurd hinner (h.notMem_inners_of_partner hpartner)
    | cross hchosen hinner => exact absurd hchosen (h.chosen?_ne_of_partner hpartner)
  | uplink hpartner hinner =>
    cases hfeeds' with
    | direct joined => exact h.eq_of_feeds_of_joined (.uplink hpartner hinner) joined
    | fanout hpartner' hmate' => exact absurd hinner (h.notMem_inners_of_partner hpartner')
    | uplink hpartner' hinner' =>
      exact Option.some.inj ((h.partner?_comm hpartner).symm.trans (h.partner?_comm hpartner'))
    | cross hchosen hinner' => exact absurd hinner' (h.notMem_inners_of_partner hpartner)
  | cross hchosen hinner =>
    cases hfeeds' with
    | direct joined => exact h.eq_of_feeds_of_joined (.cross hchosen hinner) joined
    | fanout hpartner' hmate' => exact absurd hchosen (h.chosen?_ne_of_partner hpartner')
    | uplink hpartner' hinner' => exact absurd hinner (h.notMem_inners_of_partner hpartner')
    | cross hchosen' hinner' => exact h.eq_of_chosen hchosen hchosen' hinner hinner'

/-- The data of a node is never sent to itself, and it stays in the partition. -/
theorem of_feeds (hfeeds : b.Feeds source near far) :
    source ≠ far ∧ b.topology.hasMember source = true ∧ b.topology.hasMember far = true ∧
      b.topology.sharePartition source far = true := by
  have hmates : ∀ {node mate}, mate ∈ b.mates node → b.topology.hasMember mate = true ∧
      b.topology.sharePartition node mate = true := fun hmate =>
    ⟨(Topology.hasMember_of_shareChassis (mem_mates_iff.1 hmate).2).2,
      Topology.sharePartition_of_shareChassis (mem_mates_iff.1 hmate).2⟩
  have hacross : ∀ {near partner one other}, b.partner? near = some partner →
      b.topology.shareChassis near one = true → b.topology.shareChassis partner other = true →
        other ≠ one ∧ b.topology.sharePartition other one = true := by
    intro near partner one other hpartner hone hother
    have hcross := h.shareChassis_eq_false_of_partner hpartner hone
    obtain ⟨-, -, -, hpartition⟩ := h.of_joined (h.partner?_eq_some_iff.1 hpartner).1
    constructor
    · rintro rfl
      rw [hcross] at hother
      exact absurd hother (by simp)
    · rw [Topology.shareChassis_comm] at hother
      rw [Topology.sharePartition_comm] at hpartition
      exact Topology.sharePartition_trans (Topology.sharePartition_trans
        (Topology.sharePartition_of_shareChassis hother) hpartition)
        (Topology.sharePartition_of_shareChassis hone)
  have hself : ∀ {node}, b.topology.hasMember node = true →
      b.topology.shareChassis node node = true := by
    intro node hmember
    obtain ⟨name, hname⟩ := Topology.exists_chassis?_iff.2 hmember
    exact Topology.shareChassis_iff.2 ⟨beq_self_eq_true _, name, hname, hname⟩
  cases hfeeds with
  | direct joined => exact h.of_joined joined
  | fanout hpartner hmate =>
    have hsource := (h.of_joined (h.partner?_eq_some_iff.1 hpartner).1).2.2.1
    obtain ⟨hne, hshare⟩ := hacross hpartner (mem_mates_iff.1 hmate).2 (hself hsource)
    exact ⟨hne, hsource, (hmates hmate).1, hshare⟩
  | uplink hpartner hinner =>
    have hmate := mem_mates_of_mem_inners hinner
    have hfar := (h.of_joined (h.partner?_eq_some_iff.1 hpartner).1).2.2.1
    obtain ⟨hne, hshare⟩ := hacross hpartner (mem_mates_iff.1 hmate).2 (hself hfar)
    rw [Topology.sharePartition_comm] at hshare
    exact ⟨hne.symm, (hmates hmate).1, hfar, hshare⟩
  | cross hchosen hinner =>
    obtain ⟨partner, fellow, hpartner, -, hchoice⟩ := chosen?_eq_some_iff.1 hchosen
    have hsource := mem_mates_of_mem_inners (crossChoice_eq_some hchoice).1
    have hmate := mem_mates_of_mem_inners hinner
    obtain ⟨hne, hshare⟩ := hacross hpartner (mem_mates_iff.1 hmate).2 (mem_mates_iff.1 hsource).2
    exact ⟨hne, (hmates hsource).1, (hmates hmate).1, hshare⟩

end Valid

end Blueprint

end MeshFormation
