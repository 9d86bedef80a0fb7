import MeshFormation.Proofs.Formation.Charges

/-!
# What full cabling covers

With all nodes of a chassis linked to each other and all links between the chassis in place, the
data of every node is to be sent to every other node of its partition. The list of all that a node
sends is then as long as the number of transmits that the node counts.
-/

namespace MeshFormation.Blueprint

variable {b : Blueprint} {near far source node other mate inner first second partner : Rank}
  {router : Router} {rule : RelayRule}

/-- All nodes of a chassis are linked to each other. Two links lead from one chassis of a cube to
the other one, and every node of a hypercube has a partner. -/
structure Full (b : Blueprint) : Prop extends b.Valid where
  mated : ∀ {node mate}, mate ∈ b.mates node → b.Joined node mate
  crossed : b.topology.profile = .cube → b.crossLinks.length = 2
  partnered : b.topology.profile = .hypercube → ∀ {node}, b.topology.hasMember node = true →
    (b.partner? node).isSome = true

/-- All that a node sends in the end. -/
def duties (b : Blueprint) (near : Rank) : List (Rank × Rank) :=
  b.inward near ++ (b.partner? near).toList.flatMap (b.outward near)

namespace Valid

variable (h : b.Valid)
include h

theorem mem_inners (hfellow : b.fellow? node = some other) (hmate : mate ∈ b.mates node)
    (hinner : b.partner? mate = none) : mate ∈ b.inners node := by
  refine mem_inners_iff.2 ⟨other, hfellow, hmate, ?_⟩
  rintro rfl
  have houter := (h.fellow?_eq_some_iff.1 hfellow).2.2.2
  rw [hinner] at houter
  exact absurd houter (by simp)

/-- A member of a partition is in the chassis of a node or in that of its partner. -/
theorem shareChassis_or_partner (hpartner : b.partner? node = some partner)
    (hmember : b.topology.hasMember other = true)
    (hshare : b.topology.sharePartition node other = true) :
    b.topology.shareChassis node other = true ∨ b.topology.shareChassis partner other = true := by
  obtain ⟨hjoined, hcross⟩ := h.partner?_eq_some_iff.1 hpartner
  obtain ⟨-, hnode, hpartnerMember, hpartition⟩ := h.of_joined hjoined
  exact (h.balanced hnode).shareChassis_or hnode
    (Topology.mem_group_iff.2 ⟨hpartnerMember, hpartition⟩)
      (Topology.mem_group_iff.2 ⟨hmember, hshare⟩) hcross

/-- Each link between the chassis of a cube has an end in the chassis of a node. -/
theorem exists_end (hcube : b.topology.profile = .cube)
    (hmember : b.topology.hasMember node = true) {link : Link} (hlink : link ∈ b.crossLinks) :
    ∃ outer, (outer = link.1 ∨ outer = link.2) ∧ b.topology.shareChassis outer node = true ∧
      (b.partner? outer).isSome = true := by
  obtain ⟨hmem, hcross⟩ := List.mem_filter.1 hlink
  have hfirst : b.partner? link.1 = some link.2 :=
    h.partner?_eq_some_iff.2 ⟨.inl hmem, by simpa using hcross⟩
  have hsecond := h.partner?_comm hfirst
  have hshare : b.topology.sharePartition link.1 node = true := by
    simp [Topology.sharePartition, Topology.partitionIndex, hcube]
  rcases h.shareChassis_or_partner hfirst hmember hshare with hsame | hsame
  · exact ⟨link.1, .inl rfl, hsame, by rw [hfirst]; rfl⟩
  · exact ⟨link.2, .inr rfl, hsame, by rw [hsecond]; rfl⟩

theorem nodup_outward (hpartner : b.partner? near = some partner) :
    (b.outward near partner).Nodup := by
  have hmates : (b.mates near).Nodup := b.topology.nodup_chassisMates near
  have hinners := nodup_inners b near
  have hdisjoint : ∀ {rule rule' : RelayRule} {pair other : Rank × Rank}, rule ≠ rule' →
      b.Assigned near rule pair.1 pair.2 → b.Assigned near rule' other.1 other.2 →
        pair ≠ other := by
    rintro rule rule' pair other hne hassigned hassigned' rfl
    exact hne (h.rule_eq hassigned hassigned')
  have hfan : ∀ pair ∈ (b.mates near).map fun mate => (partner, mate),
      b.Assigned near .fanout pair.1 pair.2 := by
    intro pair hmem
    obtain ⟨mate, hmate, rfl⟩ := List.mem_map.1 hmem
    exact ⟨hpartner, hmate⟩
  have hup : ∀ pair ∈ (b.inners near).map fun inner => (inner, partner),
      b.Assigned near .uplink pair.1 pair.2 := by
    intro pair hmem
    obtain ⟨inner, hinner, rfl⟩ := List.mem_map.1 hmem
    exact ⟨hpartner, hinner⟩
  have hcross : ∀ pair ∈ (b.chosen? near).toList.flatMap fun chosen =>
      (b.inners near).map fun inner => (chosen, inner), b.Assigned near .cross pair.1 pair.2 := by
    intro pair hmem
    obtain ⟨chosen, hchosen, hmem⟩ := List.mem_flatMap.1 hmem
    obtain ⟨inner, hinner, rfl⟩ := List.mem_map.1 hmem
    exact ⟨Option.mem_toList.1 hchosen, hinner⟩
  rw [outward, List.nodup_append, List.nodup_append, List.nodup_cons]
  refine ⟨⟨⟨?_, ?_⟩, ?_, ?_⟩, ?_, ?_⟩
  · intro hmem
    exact h.ne_of_assigned (hfan _ hmem) rfl
  · exact hmates.map fun _ _ heq => (Prod.mk.inj heq).2
  · exact hinners.map fun _ _ heq => (Prod.mk.inj heq).1
  · intro pair hmem other hother
    rcases List.mem_cons.1 hmem with rfl | hmem
    · rintro rfl
      exact h.ne_of_assigned (hup _ hother) rfl
    · exact hdisjoint (by simp) (hfan _ hmem) (hup _ hother)
  · cases b.chosen? near with
    | none => exact .nil
    | some chosen =>
      rw [Option.toList_some, List.flatMap_cons, List.flatMap_nil, List.append_nil]
      exact hinners.map fun _ _ heq => (Prod.mk.inj heq).2
  · intro pair hmem other hother
    rcases List.mem_append.1 hmem with hmem | hmem
    · rcases List.mem_cons.1 hmem with rfl | hmem
      · rintro rfl
        exact h.ne_of_assigned (hcross _ hother) rfl
      · exact hdisjoint (by simp) (hfan _ hmem) (hcross _ hother)
    · exact hdisjoint (by simp) (hup _ hmem) (hcross _ hother)

theorem nodup_duties (near : Rank) : (b.duties near).Nodup := by
  have hmates : (b.mates near).Nodup := b.topology.nodup_chassisMates near
  have hinward : (b.inward near).Nodup := hmates.map fun _ _ heq => (Prod.mk.inj heq).2
  rw [duties]
  cases hpartner : b.partner? near with
  | none => simpa using hinward
  | some partner =>
    rw [Option.toList_some, List.flatMap_cons, List.flatMap_nil, List.append_nil, List.nodup_append]
    refine ⟨hinward, h.nodup_outward hpartner, ?_⟩
    rintro ⟨source, far⟩ hmem other hother rfl
    obtain ⟨rfl, hmate⟩ := mem_inward_iff.1 hmem
    rcases (mem_outward_iff hpartner).1 hother with ⟨-, rfl⟩ | ⟨rule, hassigned⟩
    · exact h.partner?_notMem_mates hpartner hmate
    · exact h.ne_of_assigned hassigned rfl

end Valid

namespace Full

variable (h : b.Full)
include h

/-- In a chassis of a cube two nodes have a partner. -/
theorem exists_outers (hcube : b.topology.profile = .cube)
    (hmember : b.topology.hasMember node = true) : ∃ first second, first ≠ second ∧
      b.topology.shareChassis first node = true ∧ b.topology.shareChassis second node = true ∧
        (b.partner? first).isSome = true ∧ (b.partner? second).isSome = true := by
  obtain ⟨link, other, hlinks⟩ := List.length_eq_two.1 (h.crossed hcube)
  have hapart := h.apart
  rw [hlinks] at hapart
  have hapart : Apart link other := by simpa using hapart
  obtain ⟨first, hfirst, hshare, houter⟩ := h.exists_end hcube hmember
    (show link ∈ b.crossLinks by rw [hlinks]; simp)
  obtain ⟨second, hsecond, hshare', houter'⟩ := h.exists_end hcube hmember
    (show other ∈ b.crossLinks by rw [hlinks]; simp)
  refine ⟨first, second, ?_, hshare, hshare', houter, houter'⟩
  obtain ⟨hne₁, hne₂, hne₃, hne₄⟩ := hapart
  rcases hfirst with rfl | rfl <;> rcases hsecond with rfl | rfl
  · exact hne₁
  · exact hne₂
  · exact hne₃
  · exact hne₄

theorem exists_fellow? (hcube : b.topology.profile = .cube)
    (hpartner : b.partner? node = some partner) : ∃ fellow, b.fellow? node = some fellow := by
  have hmember := (h.of_joined (h.partner?_eq_some_iff.1 hpartner).1).2.1
  obtain ⟨first, second, hne, hfirst, hsecond, houter, houter'⟩ := h.exists_outers hcube hmember
  have hnode : (b.partner? node).isSome = true := by
    rw [hpartner]
    rfl
  rw [Topology.shareChassis_comm] at hfirst hsecond
  by_cases heq : first = node
  · exact ⟨second, h.fellow?_eq_some_iff.2
      ⟨hcube, hnode, Valid.mem_mates_iff.2 ⟨fun hsame => hne (heq.trans hsame.symm), hsecond⟩,
        houter'⟩⟩
  · exact ⟨first, h.fellow?_eq_some_iff.2
      ⟨hcube, hnode, Valid.mem_mates_iff.2 ⟨heq, hfirst⟩, houter⟩⟩

/-- The data of an inner node of a cube is to be sent to the inner nodes of the other chassis. -/
theorem exists_feeds_of_inners (hcube : b.topology.profile = .cube)
    (hsource : b.topology.hasMember source = true) (hfar : b.topology.hasMember far = true)
    (hcross : b.topology.shareChassis source far = false) (hinner : b.partner? source = none)
    (hinner' : b.partner? far = none) : ∃ near, b.Feeds source near far := by
  obtain ⟨first, second, hne, hfirst, hsecond, houter, houter'⟩ := h.exists_outers hcube hfar
  obtain ⟨partner, hpartner⟩ := Option.isSome_iff_exists.1 houter
  obtain ⟨partner', hpartner'⟩ := Option.isSome_iff_exists.1 houter'
  have hmate : second ∈ b.mates first := by
    rw [Topology.shareChassis_comm] at hsecond
    exact Valid.mem_mates_iff.2 ⟨hne.symm, Topology.shareChassis_trans hfirst hsecond⟩
  have hfellow : b.fellow? first = some second :=
    h.fellow?_eq_some_iff.2 ⟨hcube, houter, hmate, houter'⟩
  have hback := h.fellow?_comm hfellow
  have hfellows := h.fellow?_partner? hfellow hpartner hpartner'
  -- The source sits with the partners of these two nodes.
  have hsame : b.topology.shareChassis partner source = true := by
    have hshare : b.topology.sharePartition first source = true := by
      simp [Topology.sharePartition, Topology.partitionIndex, hcube]
    rcases h.shareChassis_or_partner hpartner hsource hshare with hsame | hsame
    · rw [Topology.shareChassis_comm] at hsame
      rw [Topology.shareChassis_trans hsame hfirst] at hcross
      exact absurd hcross (by simp)
    · exact hsame
  have hnotPartner : ∀ {node}, (b.partner? node).isSome = true → ∀ {inner : Rank},
      b.partner? inner = none → inner ≠ node := by
    rintro node hsome inner hnone rfl
    rw [hnone] at hsome
    exact absurd hsome (by simp)
  have houterPartner : (b.partner? partner).isSome = true := by
    rw [h.partner?_comm hpartner]
    rfl
  have hmem : source ∈ b.inners partner := h.mem_inners hfellows
    (Valid.mem_mates_iff.2 ⟨hnotPartner houterPartner hinner, hsame⟩) hinner
  obtain ⟨one, two, hlist⟩ := List.length_eq_two.1 (h.length_inners hfellows)
  have hsorted := Valid.pairwise_inners b partner
  rw [hlist] at hsorted
  have hdiff : one ≠ two := UInt32.ne_of_lt (by simpa using hsorted)
  rw [hlist] at hmem
  have hlist' : b.inners partner' = [one, two] := (h.inners_eq hfellows).symm.trans hlist
  rcases crossChoice_or hne hdiff (by simpa using hmem) with hchoice | hchoice
  · refine ⟨first, .cross (chosen?_eq_some_iff.2 ⟨partner, second, hpartner, hfellow, ?_⟩) ?_⟩
    · rwa [hlist]
    · exact h.mem_inners hfellow
        (Valid.mem_mates_iff.2 ⟨hnotPartner houter hinner', hfirst⟩) hinner'
  · refine ⟨second, .cross (chosen?_eq_some_iff.2 ⟨partner', first, hpartner', hback, ?_⟩) ?_⟩
    · rwa [hlist']
    · exact h.mem_inners hback
        (Valid.mem_mates_iff.2 ⟨hnotPartner houter' hinner', hsecond⟩) hinner'

/-- The data of every node is to be sent to every other node of its partition. -/
theorem exists_feeds (hsource : b.topology.hasMember source = true)
    (hfar : far ∈ b.topology.peers source) : ∃ near, b.Feeds source near far := by
  obtain ⟨hne, hmember, hshare⟩ := Topology.mem_peers_iff.1 hfar
  cases hchassis : b.topology.shareChassis source far with
  | true => exact ⟨source, .direct (h.mated (Valid.mem_mates_iff.2 ⟨hne, hchassis⟩))⟩
  | false =>
    cases hpartner : b.partner? source with
    | some partner =>
      have hsame : b.topology.shareChassis partner far = true := by
        rcases h.shareChassis_or_partner hpartner hmember hshare with hsame | hsame
        · rw [hchassis] at hsame
          exact absurd hsame (by simp)
        · exact hsame
      by_cases heq : far = partner
      · subst heq
        exact ⟨source, .direct (h.partner?_eq_some_iff.1 hpartner).1⟩
      · exact ⟨partner, .fanout (h.partner?_comm hpartner) (Valid.mem_mates_iff.2 ⟨heq, hsame⟩)⟩
    | none =>
      have hcube : b.topology.profile = .cube := by
        cases hprofile : b.topology.profile with
        | pair => exact absurd hprofile h.profile
        | cube => rfl
        | hypercube =>
          have hsome := h.partnered hprofile hsource
          rw [hpartner] at hsome
          exact absurd hsome (by simp)
      cases hpartner' : b.partner? far with
      | none => exact h.exists_feeds_of_inners hcube hsource hmember hchassis hpartner hpartner'
      | some partner =>
        have hback := h.partner?_comm hpartner'
        obtain ⟨fellow, hfellow⟩ := h.exists_fellow? hcube hback
        have hsame : b.topology.shareChassis partner source = true := by
          rw [Topology.sharePartition_comm] at hshare
          rcases h.shareChassis_or_partner hpartner' hsource hshare with hsame | hsame
          · rw [Topology.shareChassis_comm, hchassis] at hsame
            exact absurd hsame (by simp)
          · exact hsame
        have hsourceNe : source ≠ partner := by
          rintro rfl
          rw [hpartner] at hback
          exact absurd hback (by simp)
        exact ⟨partner, .uplink hback
          (h.mem_inners hfellow (Valid.mem_mates_iff.2 ⟨hsourceNe, hsame⟩) hpartner)⟩

/-- What a node sends in the end is what it is to send by the blueprint. -/
theorem mem_duties_iff : (source, far) ∈ b.duties near ↔ b.Feeds source near far := by
  rw [duties, List.mem_append, List.mem_flatMap]
  constructor
  · rintro (hmem | ⟨partner, hpartner, hmem⟩)
    · obtain ⟨rfl, hmate⟩ := mem_inward_iff.1 hmem
      exact .direct (h.mated hmate)
    · have hpartner := Option.mem_toList.1 hpartner
      rcases (mem_outward_iff hpartner).1 hmem with ⟨rfl, rfl⟩ | ⟨rule, hassigned⟩
      · exact .direct (h.partner?_eq_some_iff.1 hpartner).1
      · exact hassigned.feeds
  · intro hfeeds
    have hrule : ∀ {partner rule}, b.partner? near = some partner →
        b.Assigned near rule source far → ∃ partner ∈ (b.partner? near).toList,
          (source, far) ∈ b.outward near partner := fun hpartner hassigned =>
      ⟨_, Option.mem_toList.2 hpartner, (mem_outward_iff hpartner).2 (.inr ⟨_, hassigned⟩)⟩
    cases hfeeds with
    | direct hjoined =>
      cases hshare : b.topology.shareChassis near far with
      | true =>
        have hne := (h.of_joined hjoined).1
        exact .inl (mem_inward_iff.2 ⟨rfl, Valid.mem_mates_iff.2 ⟨hne.symm, hshare⟩⟩)
      | false =>
        have hpartner := h.partner?_eq_some_iff.2 ⟨hjoined, hshare⟩
        exact .inr ⟨far, Option.mem_toList.2 hpartner,
          (mem_outward_iff hpartner).2 (.inl ⟨rfl, rfl⟩)⟩
    | fanout hpartner hmate => exact .inr (@hrule _ .fanout hpartner ⟨hpartner, hmate⟩)
    | uplink hpartner hinner => exact .inr (@hrule _ .uplink hpartner ⟨hpartner, hinner⟩)
    | cross hchosen hinner =>
      obtain ⟨partner, -, hpartner, -⟩ := chosen?_eq_some_iff.1 hchosen
      exact .inr (@hrule _ .cross hpartner ⟨hchosen, hinner⟩)

/-- A node that knows its partner counts as many transmits as it has to make. -/
theorem length_duties (hmember : b.topology.hasMember near = true) {forwarding : Forwarding}
    (hprofile : forwarding.profile = b.topology.profile)
    (hpartner : forwarding.crossPartner? = b.partner? near) :
    (b.duties near).length = forwarding.limit := by
  have hinward := h.length_inward hmember
  rw [duties, List.length_append, hinward, Forwarding.limit, hprofile, hpartner]
  cases hkind : b.topology.profile with
  | pair => exact absurd hkind h.profile
  | cube =>
    cases hknown : b.partner? near with
    | none => rfl
    | some partner =>
      obtain ⟨fellow, hfellow⟩ := h.exists_fellow? hkind hknown
      have houtward := h.length_outward_of_fellow hknown hfellow
      simp [houtward]
  | hypercube =>
    obtain ⟨partner, hknown⟩ := Option.isSome_iff_exists.1 (h.partnered hkind hmember)
    have hnone : b.fellow? near = none := by simp [fellow?, hkind]
    have houtward := @Valid.length_outward_of_none b near partner h.toValid hmember hnone
    simp [hknown, houtward]

end Full

end MeshFormation.Blueprint
