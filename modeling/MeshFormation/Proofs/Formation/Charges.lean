import MeshFormation.Proofs.Formation.Messages

/-!
# All that a node sends

The transmits with which a node is charged in the end are listed. There are as many as the node
counts, so a node never asks for more than it expects, and a node that asked for all of them has
nothing left to ask for.
-/

namespace MeshFormation.Blueprint

variable {b : Blueprint} {near far source partner : Rank} {router : Router} {rule : RelayRule}

/-- The transmits of a node within its chassis. -/
def inward (b : Blueprint) (near : Rank) : List (Rank × Rank) :=
  (b.mates near).map fun mate => (near, mate)

/-- The transmits of a node that has a partner, beyond those within its chassis. -/
def outward (b : Blueprint) (near partner : Rank) : List (Rank × Rank) :=
  (near, partner) :: (b.mates near).map (fun mate => (partner, mate)) ++
    (b.inners near).map (fun inner => (inner, partner)) ++
      (b.chosen? near).toList.flatMap fun chosen =>
        (b.inners near).map fun inner => (chosen, inner)

theorem mem_inward_iff :
    (source, far) ∈ b.inward near ↔ source = near ∧ far ∈ b.mates near := by
  rw [inward, List.mem_map]
  constructor
  · rintro ⟨mate, hmate, heq⟩
    obtain ⟨rfl, rfl⟩ := Prod.mk.inj heq
    exact ⟨rfl, hmate⟩
  · rintro ⟨rfl, hmate⟩
    exact ⟨far, hmate, rfl⟩

theorem mem_outward_iff (hpartner : b.partner? near = some partner) :
    (source, far) ∈ b.outward near partner ↔
      (source = near ∧ far = partner) ∨ ∃ rule, b.Assigned near rule source far := by
  rw [outward, List.mem_append, List.mem_append, List.mem_cons, List.mem_map, List.mem_map,
    List.mem_flatMap]
  constructor
  · rintro (((heq | ⟨mate, hmate, heq⟩) | ⟨inner, hinner, heq⟩) | ⟨chosen, hchosen, hmem⟩)
    · exact .inl (Prod.mk.inj heq)
    · obtain ⟨rfl, rfl⟩ := Prod.mk.inj heq
      exact .inr ⟨.fanout, hpartner, hmate⟩
    · obtain ⟨rfl, rfl⟩ := Prod.mk.inj heq
      exact .inr ⟨.uplink, hpartner, hinner⟩
    · obtain ⟨inner, hinner, heq⟩ := List.mem_map.1 hmem
      obtain ⟨rfl, rfl⟩ := Prod.mk.inj heq
      exact .inr ⟨.cross, Option.mem_toList.1 hchosen, hinner⟩
  · rintro (⟨rfl, rfl⟩ | ⟨rule, hassigned⟩)
    · exact .inl (.inl (.inl rfl))
    · cases rule with
      | fanout =>
        obtain rfl := Option.some.inj (hpartner.symm.trans hassigned.1)
        exact .inl (.inl (.inr ⟨far, hassigned.2, rfl⟩))
      | uplink =>
        obtain rfl := Option.some.inj (hpartner.symm.trans hassigned.1)
        exact .inl (.inr ⟨source, hassigned.2, rfl⟩)
      | cross =>
        exact .inr ⟨source, Option.mem_toList.2 hassigned.1,
          List.mem_map.2 ⟨far, hassigned.2, rfl⟩⟩

namespace Valid

variable (h : b.Valid)
include h

theorem length_mates (hmember : b.topology.hasMember near = true) :
    (b.mates near).length = 3 :=
  (h.balanced hmember).length_chassisMates hmember

theorem length_inward (hmember : b.topology.hasMember near = true) :
    (b.inward near).length = 3 := by
  rw [inward, List.length_map, h.length_mates hmember]

/-- A cube node with a partner makes eight transmits more if its chassis has another such node. -/
theorem length_outward_of_fellow {fellow : Rank} (hpartner : b.partner? near = some partner)
    (hfellow : b.fellow? near = some fellow) : (b.outward near partner).length = outerExtraTx := by
  have hmember := (h.of_joined (h.partner?_eq_some_iff.1 hpartner).1).2.1
  have hinners := h.length_inners hfellow
  have hchosen : ∃ chosen, b.chosen? near = some chosen := by
    obtain ⟨other, hother⟩ := h.exists_fellow?_partner hpartner hfellow
    obtain ⟨first, second, hlist⟩ := List.length_eq_two.1 (h.length_inners hother)
    have hsorted := pairwise_inners b partner
    rw [hlist] at hsorted
    have hne : first ≠ second := UInt32.ne_of_lt (by simpa using hsorted)
    rw [chosen?, hpartner, hfellow, Option.bind_some, Option.bind_some, hlist]
    simp only [crossChoice, if_neg hne]
    split
    · exact ⟨_, rfl⟩
    · exact ⟨_, rfl⟩
  obtain ⟨chosen, hchosen⟩ := hchosen
  rw [outward, hchosen]
  simp [h.length_mates hmember, hinners, outerExtraTx]

/-- Without another node with a partner there are only the first four of these transmits. -/
theorem length_outward_of_none (hmember : b.topology.hasMember near = true)
    (hfellow : b.fellow? near = none) : (b.outward near partner).length = 4 := by
  have hinners : b.inners near = [] := by
    rw [inners, hfellow]
  have hchosen : b.chosen? near = none := by
    rw [chosen?, hfellow]
    simp
  rw [outward, hinners, hchosen]
  simp [h.length_mates hmember]

end Valid

/-! ## What a node asked for -/

def sent (node : Node) : List (Rank × Rank) :=
  node.journal.requests.filterMap fun request =>
    (node.boundPeer? request.2).map fun far => (request.1, far)

namespace Steady

theorem mem_sent_iff (h : b.Steady near router) :
    (source, far) ∈ sent router.node ↔ (∃ channel, router.node.boundPeer? channel = some far) ∧
      b.Charged near router.forwarding source far := by
  rw [sent, List.mem_filterMap]
  constructor
  · rintro ⟨⟨source', channel⟩, hmem, hpair⟩
    obtain ⟨far', hbound, heq⟩ := Option.map_eq_some_iff.1 hpair
    obtain ⟨rfl, rfl⟩ := Prod.mk.inj heq
    obtain ⟨far', hbound', hcharged⟩ := h.asked.1 hmem
    obtain rfl := Option.some.inj (hbound.symm.trans hbound')
    exact ⟨⟨channel, hbound⟩, hcharged⟩
  · rintro ⟨⟨channel, hbound⟩, hcharged⟩
    exact ⟨(source, channel), h.asked.2 ⟨far, hbound, hcharged⟩, by simp [hbound]⟩

theorem nodup_sent (h : b.Steady near router) : (sent router.node).Nodup := by
  rw [sent, List.Nodup, List.pairwise_filterMap]
  apply h.nodup.imp_of_mem
  rintro ⟨source, channel⟩ ⟨source', channel'⟩ - - hne pair hpair pair' hpair' heq
  subst heq
  obtain ⟨far, hbound, rfl⟩ := Option.map_eq_some_iff.1 hpair
  obtain ⟨far', hbound', heq⟩ := Option.map_eq_some_iff.1 hpair'
  obtain ⟨rfl, rfl⟩ : source' = source ∧ far' = far := Prod.mk.inj heq
  obtain rfl := h.once hbound hbound'
  exact hne rfl

theorem length_sent (h : b.Steady near router) :
    (sent router.node).length = router.node.journal.requests.length := by
  rw [sent, List.filterMap_length_eq_length]
  rintro ⟨source, channel⟩ hmem
  obtain ⟨far, hbound, -⟩ := h.asked.1 hmem
  simp [hbound]

/-- A node knows its partner as soon as it asked for anything beyond its chassis. -/
theorem mem_inward_or_outward (h : b.Steady near router) (hvalid : b.Valid)
    (hsent : (source, far) ∈ sent router.node) : (source, far) ∈ b.inward near ∨
      ∃ partner, router.forwarding.crossPartner? = some partner ∧
        (source, far) ∈ b.outward near partner := by
  obtain ⟨⟨channel, hbound⟩, hcharged⟩ := h.mem_sent_iff.1 hsent
  rcases hcharged with rfl | ⟨rule, hran, hassigned⟩
  · have hjoined := h.joined hbound
    cases hshare : b.topology.shareChassis source far with
    | true =>
      have hne := (hvalid.of_joined hjoined).1
      exact .inl (mem_inward_iff.2 ⟨rfl, Valid.mem_mates_iff.2 ⟨hne.symm, hshare⟩⟩)
    | false =>
      have hpartner := hvalid.partner?_eq_some_iff.2 ⟨hjoined, hshare⟩
      exact .inr ⟨far, h.partner.2 ⟨hpartner, channel, hbound⟩,
        (mem_outward_iff hpartner).2 (.inl ⟨rfl, rfl⟩)⟩
  · obtain ⟨partner, hknown, -⟩ := (h.ran hran).partner
    exact .inr ⟨partner, hknown, (mem_outward_iff (h.partner.1 hknown).1).2
      (.inr ⟨rule, hassigned⟩)⟩

/-- A node without a known partner asks for nothing beyond its chassis. -/
theorem length_requests_le_of_alone (h : b.Steady near router) (hvalid : b.Valid)
    (hmember : b.topology.hasMember near = true)
    (hknown : router.forwarding.crossPartner? = none) :
    router.node.journal.requests.length ≤ 3 := by
  have hsubset : sent router.node ⊆ b.inward near := by
    rintro ⟨source, far⟩ hsent
    rcases h.mem_inward_or_outward hvalid hsent with hmem | ⟨partner, hsome, -⟩
    · exact hmem
    · rw [hknown] at hsome
      exact absurd hsome (by simp)
  have hlength := (List.subperm_of_subset h.nodup_sent hsubset).length_le
  rw [h.length_sent, hvalid.length_inward hmember] at hlength
  exact hlength

theorem length_requests_le (h : b.Steady near router) (hvalid : b.Valid)
    (hmember : b.topology.hasMember near = true) :
    router.node.journal.requests.length ≤ router.forwarding.limit := by
  have hinward := hvalid.length_inward hmember
  cases hknown : router.forwarding.crossPartner? with
  | none =>
    have hlength := h.length_requests_le_of_alone hvalid hmember hknown
    rw [Forwarding.limit, hknown, h.profile]
    cases hprofile : b.topology.profile with
    | pair => exact absurd hprofile hvalid.profile
    | cube =>
      simp only [Option.isSome_none, Bool.false_eq_true, if_false]
      omega
    | hypercube =>
      dsimp only
      omega
  | some partner =>
    have hsubset : sent router.node ⊆ b.inward near ++ b.outward near partner := by
      rintro ⟨source, far⟩ hsent
      rw [List.mem_append]
      rcases h.mem_inward_or_outward hvalid hsent with hmem | ⟨other, hother, hmem⟩
      · exact .inl hmem
      · obtain rfl := Option.some.inj (hknown.symm.trans hother)
        exact .inr hmem
    have hlength := (List.subperm_of_subset h.nodup_sent hsubset).length_le
    have hpartner := (h.partner.1 hknown).1
    rw [h.length_sent, List.length_append, hinward] at hlength
    rw [Forwarding.limit, hknown, h.profile]
    cases hfellow : b.fellow? near with
    | none =>
      rw [hvalid.length_outward_of_none hmember hfellow] at hlength
      cases hprofile : b.topology.profile with
      | pair => exact absurd hprofile hvalid.profile
      | cube =>
        simp only [Option.isSome_some, if_true, outerExtraTx]
        omega
      | hypercube =>
        dsimp only
        omega
    | some fellow =>
      rw [hvalid.length_outward_of_fellow hpartner hfellow] at hlength
      have hcube := (hvalid.fellow?_eq_some_iff.1 hfellow).1
      rw [hcube]
      simp only [Option.isSome_some, if_true]
      exact hlength

end Steady

end MeshFormation.Blueprint
