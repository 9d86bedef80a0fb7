import MeshFormation.Proofs.Formation.Blueprint
import Mathlib.Data.List.ProdSigma

/-!
# The cables of a blueprint

Two nodes that a blueprint links may be connected by several cables. The ensemble then uses one of
them. If no pair of nodes is linked twice, the links themselves are such an installation, with all
cables in use.
-/

namespace MeshFormation

/-- The cables that were laid for a blueprint, and the channels at whose ends they are used. -/
structure Installation extends Blueprint where
  cabling : Cabling
  used : Rank → Channel → Bool
  joined : ∀ {near far : Rank} {channel farChannel : Channel},
    cabling.farEnd? near channel = some (far, farChannel) → toBlueprint.Joined near far
  symmetric : ∀ {near far : Rank} {channel farChannel : Channel},
    cabling.farEnd? near channel = some (far, farChannel) →
      cabling.farEnd? far farChannel = some (near, channel)
  shared : ∀ {near far : Rank} {channel farChannel : Channel},
    cabling.farEnd? near channel = some (far, farChannel) → used near channel = true →
      used far farChannel = true
  single : ∀ {near far : Rank} {channel other farChannel otherFar : Channel},
    cabling.farEnd? near channel = some (far, farChannel) → used near channel = true →
      cabling.farEnd? near other = some (far, otherFar) → used near other = true → channel = other
  laid : ∀ {near far : Rank}, toBlueprint.Joined near far →
    ∃ channel farChannel, cabling.farEnd? near channel = some (far, farChannel) ∧
      used near channel = true

namespace Blueprint.Valid

variable {b : Blueprint}

theorem length_ranks_le (h : b.Valid) : b.topology.ranks.length ≤ 32 := by
  have hfault := h.fault
  have hlength : b.topology.ranks.length = b.topology.size := Table.length_keys _
  rw [hlength]
  cases hprofile : b.topology.profile with
  | pair => exact absurd hprofile h.profile
  | cube =>
    rw [Topology.fault?, hprofile] at hfault
    dsimp only at hfault
    split at hfault
    · exact absurd hfault (by simp)
    · rename_i hsize
      rw [not_not] at hsize
      rw [hsize, partitionSize]
      omega
  | hypercube =>
    obtain ⟨hsize, -⟩ := Topology.ranks_of_hypercube hprofile hfault
    omega

/-- The links are pairs of members, none of which occurs twice. -/
theorem length_links_le (h : b.Valid) : b.links.length ≤ 1024 := by
  have hnodup : b.links.Nodup := h.simple.once.imp And.left
  have hsubset : b.links ⊆ b.topology.ranks ×ˢ b.topology.ranks := by
    rintro ⟨first, second⟩ hmem
    obtain ⟨hfirst, hsecond, -⟩ := h.member _ hmem
    exact List.pair_mem_product.2
      ⟨Topology.mem_ranks_iff.2 hfirst, Topology.mem_ranks_iff.2 hsecond⟩
  have hlength := (List.subperm_of_subset hnodup hsubset).length_le
  rw [List.length_product] at hlength
  have hranks := h.length_ranks_le
  exact Nat.le_trans hlength (Nat.mul_le_mul hranks hranks)

theorem fits (h : b.Valid) : Cabling.Fits b.links :=
  Cabling.fits_of_length (Nat.le_trans h.length_links_le (by decide))

/-- With one cable for each link, all of them are used. -/
@[reducible] def installation (h : b.Valid) : Installation where
  toBlueprint := b
  cabling := .ofLinks b.links
  used _ _ := true
  joined := Cabling.joined_of_farEnd?
  symmetric := (Cabling.sound_ofLinks h.fits).symmetric
  shared _ _ := rfl
  single hcable _ hcable' _ := Cabling.single_ofLinks h.simple hcable hcable'
  laid hjoined := by
    obtain ⟨channel, farChannel, hcable⟩ := hjoined.exists_farEnd? h.fits
    exact ⟨channel, farChannel, hcable, rfl⟩

end Blueprint.Valid

end MeshFormation
