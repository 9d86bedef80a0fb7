import MeshFormation.Proofs.Fabric.Delivery
import MeshFormation.Proofs.Router.Relayed

/-!
# A bound on the transmits of any router

A router of a cube or of a hypercube asks for eleven transmits at most, as its rules and its
channels allow. A node of a pair runs no rules and has one peer, so it asks for a single one.
Sending messages changes nothing about this, so the bound also holds of a router that is part of a
service.
-/

namespace MeshFormation

namespace Node

theorem transmits_sending (node : Node) (outbox : Outbox) :
    (node.sending outbox).journal.transmits = node.journal.transmits := by
  apply Asks.transmits
  refine ⟨outbox.attempts, rfl, fun attempt hmem => ?_⟩
  obtain ⟨outbound, -, rfl⟩ := List.mem_map.1 hmem
  rfl

/-- The channels of a node that are apart lead to as many different peers. -/
theorem Apart.size_le_peers {node : Node} {profile : Profile} (h : node.Apart profile) :
    node.bindings.size ≤ (node.topology.peers node.rank).length := by
  have hsize : node.bindings.values.length = node.bindings.size := List.length_map _
  rw [← hsize]
  apply (List.subperm_of_subset (Table.nodup_values h.once) _).length_le
  intro peer hpeer
  obtain ⟨channel, hbound⟩ := Table.mem_values_iff.1 hpeer
  exact h.peer hbound

end Node

namespace Router

variable {router next full start : Router} {backend : Backend} {event : Event} {outbox : Outbox}
  {result : Except RouterError Outbox} {profile : Profile} {topology : Topology}

/-- Without a partner no rule has run, so a router has asked to transmit its own data only. -/
theorem Relays.length_of_unset (h : router.Relays)
    (hunset : router.forwarding.crossPartner? = none) :
    router.node.journal.transmits.length = router.node.bindings.size := by
  obtain ⟨partner, fellow, far, asked, h⟩ := h
  have hasked : ∀ rule, asked rule = [] := by
    intro rule
    apply h.idle
    rw [← Bool.not_eq_true]
    intro hran
    exact absurd ((h.chosen hran).symm.trans hunset) (by simp)
  have hlength := h.transmits.length_eq
  simpa [hasked] using hlength

/-- A router that asks for eleven transmits at most, and what keeps it from asking for more. -/
structure Sparing (router : Router) : Prop where
  attached : router.Attached
  mates : router.forwarding.profile ≠ .pair → router.mates.length = 3
  peers : router.forwarding.profile = .pair →
    (router.node.topology.peers router.rank).length = 1
  relays : router.node.isFailed = false → router.Relays
  most : router.node.journal.transmits.length ≤ 11

theorem Sparing.frugal (h : router.Sparing) (hprofile : router.forwarding.profile ≠ .pair) :
    router.Frugal :=
  ⟨h.attached, hprofile, h.mates hprofile, h.relays, h.most⟩

theorem crossPartner?_of_pair (h : router.forwarding.profile = .pair) :
    router.forwarding.crossPartner? = none := by
  rw [Forwarding.eq_pair h]
  rfl

theorem Step.sparing (hrouter : router.Sparing) (hworking : router.node.isFailed = false)
    (h : router.Step backend event next result) : next.Sparing := by
  have hattached := h.attached hrouter.attached hworking
  have hpeers : next.forwarding.profile = .pair →
      (next.node.topology.peers next.rank).length = 1 := by
    intro hprofile
    rw [rank_congr h.topology_eq, h.topology_eq]
    exact hrouter.peers (h.profile_eq ▸ hprofile)
  obtain ⟨full, hwithin, hagrees⟩ := h.exists_within (hrouter.relays hworking) hworking
  constructor
  case attached => exact hattached
  case mates =>
    intro hprofile
    rw [mates_congr h.topology_eq]
    exact hrouter.mates (h.profile_eq ▸ hprofile)
  case peers => exact hpeers
  case relays => exact hwithin.working
  case most =>
    by_cases hprofile : router.forwarding.profile = .pair
    · have hnext : next.forwarding.profile = .pair := h.profile_eq.trans hprofile
      have hfull : full.forwarding.crossPartner? = none ∧ full.node.bindings.size ≤ 1 := by
        rcases hagrees with hagrees | hagrees
        · rw [hagrees.partner, hagrees.bindings, ← hrouter.peers hprofile]
          exact ⟨crossPartner?_of_pair hprofile, hrouter.attached.apart.size_le_peers⟩
        · rw [hagrees.partner, hagrees.bindings, ← hpeers hnext]
          exact ⟨crossPartner?_of_pair hnext, hattached.apart.size_le_peers⟩
      have hlength := hwithin.relays.length_of_unset hfull.1
      have hprefix := hwithin.transmits.length_le
      omega
    · exact (h.frugal (hrouter.frugal hprofile) hworking).most

theorem Sparing.handle (h : router.Sparing) (backend : Backend) (event : Event) :
    (router.handle backend event).1.Sparing := by
  cases hfailed : router.node.isFailed with
  | true =>
    rw [handle_of_isFailed hfailed]
    exact h
  | false => exact (step_handle backend event hfailed).sparing h hfailed

theorem Sparing.sending (h : router.Sparing) (outbox : Outbox) :
    Sparing { router with node := router.node.sending outbox } := by
  have htransmits := router.node.transmits_sending outbox
  constructor
  case attached =>
    obtain ⟨⟨honce, hpeer, hacross⟩, hchosen, hknown, hbound⟩ := h.attached
    exact ⟨⟨honce, hpeer, hacross⟩, hchosen, hknown, hbound⟩
  case mates => exact h.mates
  case peers => exact h.peers
  case relays =>
    exact fun hworking => (h.relays hworking).rest htransmits rfl rfl (.refl _) id (fun _ => rfl) id
  case most =>
    dsimp only
    rw [htransmits]
    exact h.most

theorem sparing_create {members : List Member} {localRank : Rank} {request : ProfileRequest}
    (htopology : Topology.ofMembers members localRank request = .ok topology)
    (h : (create profile topology).2 = .ok start) : start.Sparing := by
  have hmember := Topology.hasMember_localRank htopology
  have hprofile : start.forwarding.profile = topology.profile := (fresh_create h).profile_eq
  obtain ⟨-, hosts, hnode⟩ := create_eq_ok h
  have hstart : start.node.topology = topology := by
    rw [hnode]
    rfl
  constructor
  case attached => exact attached_create h
  case mates =>
    intro hkind
    rw [mates, rank, Node.rank, hstart]
    rw [hprofile] at hkind
    exact (Topology.balanced_of_ofMembers htopology hkind hmember).length_chassisMates hmember
  case peers =>
    intro hkind
    rw [rank, Node.rank, hstart, Topology.length_peers htopology hmember, Topology.receiveCount,
      ← hprofile, hkind]
  case relays => exact fun _ => relays_create h
  case most =>
    rw [hnode]
    exact Nat.zero_le _

end Router

end MeshFormation
