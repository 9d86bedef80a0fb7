import MeshFormation.Proofs.Formation.Begin
import MeshFormation.Proofs.Formation.Complete

/-!
# Formation in any order

An ensemble with the full cabling of its profile forms whatever entries are delivered next, as long
as the delivery contract allows them. It comes to an empty queue after a bounded number of steps and
ends with the same routes as a run in the order of arrival.
-/

namespace MeshFormation

/-- All pairs of nodes in a chassis are linked, and two links with four different ends lead from one
chassis of the cube to the other one. -/
structure CubeCabled (topology : Topology) (links : List Link) : Prop where
  simple : Cabling.Simple links
  member : ∀ link ∈ links, topology.hasMember link.1 = true ∧ topology.hasMember link.2 = true
  chassis : ∀ first ∈ topology.ranks, ∀ second ∈ topology.ranks, first ≠ second →
    topology.shareChassis first second = true → Cabling.Joined links first second
  crossing : (Blueprint.crossLinks ⟨topology, links⟩).length = 2
  apart : (Blueprint.crossLinks ⟨topology, links⟩).Pairwise Blueprint.Apart

/-- All links stay within a partition. All pairs of nodes in a chassis are linked, and the links
between the two chassis of a partition match their nodes one to one. -/
structure HypercubeCabled (topology : Topology) (links : List Link) : Prop where
  simple : Cabling.Simple links
  member : ∀ link ∈ links, topology.hasMember link.1 = true ∧ topology.hasMember link.2 = true ∧
    topology.sharePartition link.1 link.2 = true
  chassis : ∀ first ∈ topology.ranks, ∀ second ∈ topology.ranks, first ≠ second →
    topology.shareChassis first second = true → Cabling.Joined links first second
  apart : (Blueprint.crossLinks ⟨topology, links⟩).Pairwise Blueprint.Apart
  matched : ∀ node ∈ topology.ranks,
    ∃ link ∈ Blueprint.crossLinks ⟨topology, links⟩, link.1 = node ∨ link.2 = node

def chassisLinked (topology : Topology) (links : List Link) : Bool :=
  topology.ranks.all fun first => topology.ranks.all fun second =>
    first == second || !topology.shareChassis first second ||
      decide (Cabling.Joined links first second)

theorem chassisLinked_iff {topology : Topology} {links : List Link} :
    chassisLinked topology links = true ↔
      ∀ first ∈ topology.ranks, ∀ second ∈ topology.ranks, first ≠ second →
        topology.shareChassis first second = true → Cabling.Joined links first second := by
  simp only [chassisLinked, List.all_eq_true, Bool.or_eq_true, beq_iff_eq, Bool.not_eq_true',
    decide_eq_true_eq]
  refine forall₂_congr fun first _ => forall₂_congr fun second _ => ?_
  by_cases heq : first = second
  · simp [heq]
  · cases topology.shareChassis first second <;> simp [heq]

instance (topology : Topology) (links : List Link) : Decidable (CubeCabled topology links) :=
  decidable_of_iff (Cabling.Simple links ∧
    (links.all fun link => topology.hasMember link.1 && topology.hasMember link.2) = true ∧
    chassisLinked topology links = true ∧
    (Blueprint.crossLinks ⟨topology, links⟩).length = 2 ∧
    (Blueprint.crossLinks ⟨topology, links⟩).Pairwise Blueprint.Apart) <| by
      rw [chassisLinked_iff, List.all_eq_true]
      simp only [Bool.and_eq_true]
      exact ⟨fun ⟨simple, member, chassis, crossing, apart⟩ =>
          ⟨simple, member, chassis, crossing, apart⟩,
        fun ⟨simple, member, chassis, crossing, apart⟩ =>
          ⟨simple, member, chassis, crossing, apart⟩⟩

instance (topology : Topology) (links : List Link) : Decidable (HypercubeCabled topology links) :=
  decidable_of_iff (Cabling.Simple links ∧
    (links.all fun link => topology.hasMember link.1 && (topology.hasMember link.2 &&
      topology.sharePartition link.1 link.2)) = true ∧
    chassisLinked topology links = true ∧
    (Blueprint.crossLinks ⟨topology, links⟩).Pairwise Blueprint.Apart ∧
    (topology.ranks.all fun node => (Blueprint.crossLinks ⟨topology, links⟩).any
      fun link => link.1 == node || link.2 == node) = true) <| by
      rw [chassisLinked_iff, List.all_eq_true, List.all_eq_true]
      simp only [Bool.and_eq_true, List.any_eq_true, Bool.or_eq_true, beq_iff_eq]
      exact ⟨fun ⟨simple, member, chassis, apart, matched⟩ =>
        ⟨simple, member, chassis, apart, matched⟩, fun ⟨simple, member, chassis, apart, matched⟩ =>
          ⟨simple, member, chassis, apart, matched⟩⟩

variable {members : List Member} {request : ProfileRequest} {links : List Link}
  {topology : Topology} {localRank : Rank}

theorem joined_of_mem_mates (hchassis : ∀ first ∈ topology.ranks, ∀ second ∈ topology.ranks,
      first ≠ second → topology.shareChassis first second = true →
        Cabling.Joined links first second) {node mate : Rank}
    (hmate : mate ∈ Blueprint.mates ⟨topology, links⟩ node) :
    Blueprint.Joined ⟨topology, links⟩ node mate := by
  obtain ⟨hne, hshare⟩ := Blueprint.Valid.mem_mates_iff.1 hmate
  obtain ⟨hnode, hmember⟩ := Topology.hasMember_of_shareChassis hshare
  exact hchassis node (Topology.mem_ranks_iff.2 hnode) mate (Topology.mem_ranks_iff.2 hmember)
    hne.symm hshare

theorem CubeCabled.full (h : CubeCabled topology links) (hfault : topology.fault? = none)
    (hprofile : topology.profile = .cube) : Blueprint.Full ⟨topology, links⟩ where
  fault := hfault
  profile := by simp [hprofile]
  member := by
    intro link hmem
    obtain ⟨hfirst, hsecond⟩ := h.member link hmem
    exact ⟨hfirst, hsecond, by simp [Topology.sharePartition, Topology.partitionIndex, hprofile]⟩
  simple := h.simple
  apart := h.apart
  few := fun _ => h.crossing.le
  mated := joined_of_mem_mates h.chassis
  crossed := fun _ => h.crossing
  partnered := fun hhypercube => absurd (hprofile.symm.trans hhypercube) (by simp)

theorem HypercubeCabled.full (h : HypercubeCabled topology links) (hfault : topology.fault? = none)
    (hprofile : topology.profile = .hypercube) : Blueprint.Full ⟨topology, links⟩ where
  fault := hfault
  profile := by simp [hprofile]
  member := h.member
  simple := h.simple
  apart := h.apart
  few := fun hcube => absurd (hprofile.symm.trans hcube) (by simp)
  mated := joined_of_mem_mates h.chassis
  crossed := fun hcube => absurd (hprofile.symm.trans hcube) (by simp)
  partnered := by
    intro _ node hmember
    obtain ⟨link, hlink, hend⟩ := h.matched node (Topology.mem_ranks_iff.2 hmember)
    rw [Blueprint.partner?, List.findSome?_isSome_iff]
    refine ⟨link, hlink, ?_⟩
    rw [Blueprint.oppositeEnd?]
    split
    · rfl
    · rename_i hne
      rw [if_pos (hend.resolve_left hne)]
      rfl

namespace Fabric

/-- As long as an entry waits, the contract allows to deliver one, and only so many steps can be
made. Every state in which nothing waits any more is one in which the ensemble has formed, with the
routes of the run in the order of arrival. -/
structure FormsInAnyOrder (topology : Topology) (start : Fabric) : Prop where
  live : ∀ {count fabric}, start.Proceeds count fabric → fabric.queue ≠ [] →
    ∃ next, fabric.Delivers next
  finite : ∃ bound, ∀ {count fabric}, start.Proceeds count fabric → count ≤ bound
  settles : ∀ states : Nat → Fabric, states 0 = start →
    (∀ count, (states count).queue ≠ [] → (states count).Delivers (states (count + 1))) →
      ∃ count, start.Proceeds count (states count) ∧ (states count).queue = []
  ends : (start.run inOrder).queue = []
  formed : ∀ {count fabric}, start.Proceeds count fabric → fabric.queue = [] →
    Formed topology fabric ∧ ∀ rank peer,
      fabric.route? rank peer = (start.run inOrder).route? rank peer

variable {start fabric : Fabric}

theorem exists_step_of_allows {index : Nat} (h : fabric.allows index = true) :
    ∃ next, fabric.step? index = some next := by
  rw [step?]
  cases hparcel : fabric.queue[index]? with
  | none =>
    rw [allows, hparcel] at h
    exact absurd h (by simp)
  | some parcel => exact ⟨_, rfl⟩

theorem Created.formsInAnyOrder
    (htopology : Topology.ofMembers members localRank request = .ok topology)
    (hfull : Blueprint.Full ⟨topology, links⟩) (h : Created members request links start) :
    FormsInAnyOrder topology start := by
  have hvalid := hfull.toValid
  have hforming := h.forming htopology hvalid
  have hcount : ∀ {count fabric}, start.Proceeds count fabric →
      count ≤ start.effort ⟨topology, links⟩ := fun hrun => hrun.count_le hforming hvalid
  have heffort := h.effort_le htopology hvalid
  have hlimit : start.delivered - start.delivered + start.effort ⟨topology, links⟩ ≤
      deliveryLimit := by omega
  obtain ⟨⟨last, hlast⟩, hend⟩ :=
    Proceeds.start.runRounds hvalid hforming h.front heffort hlimit
  constructor
  case live =>
    intro count fabric hrun hqueue
    obtain ⟨hnow, -⟩ := hrun.forming hforming hvalid
    obtain ⟨index, hallows⟩ := hnow.exists_allows hqueue
    obtain ⟨next, hstep⟩ := exists_step_of_allows hallows
    exact ⟨next, index, hallows, hstep⟩
  case finite => exact ⟨_, hcount⟩
  case settles =>
    intro states hstart hdelivers
    refine Classical.byContradiction fun hnever => ?_
    have hall : ∀ count, start.Proceeds count (states count) := by
      intro count
      induction count with
      | zero =>
        rw [hstart]
        exact .start
      | succ count ih =>
        exact ih.step (hdelivers count fun hqueue => hnever ⟨count, ih, hqueue⟩)
    exact absurd (hcount (hall (start.effort ⟨topology, links⟩ + 1))) (by omega)
  case ends => exact hend
  case formed =>
    intro count fabric hrun hqueue
    obtain ⟨hnow, -⟩ := hrun.forming hforming hvalid
    obtain ⟨hrunInOrder, -⟩ := hlast.forming hforming hvalid
    have hformed := hnow.formed hfull hqueue
    exact ⟨hformed, hnow.route?_eq hrunInOrder hvalid hformed (hrunInOrder.formed hfull hend)⟩

/-- A cube forms in any order. -/
theorem forms_in_any_order_of_cube
    (htopology : Topology.ofMembers members localRank request = .ok topology)
    (hprofile : topology.profile = .cube) (hcabled : CubeCabled topology links) :
    ∃ start, create members request links = .ok start ∧ FormsInAnyOrder topology start := by
  have hnone : ∀ near, topology.counterparts near = [] := by
    intro near
    simp [Topology.counterparts, hprofile]
  obtain ⟨start, hcreate⟩ := exists_create htopology fun {near peer} _ hpeer => by
    rw [hnone] at hpeer
    exact absurd hpeer (by simp)
  have hfull := hcabled.full (Topology.fault?_of_ofMembers htopology) hprofile
  exact ⟨start, hcreate, (created_of_create hcreate).formsInAnyOrder htopology hfull⟩

theorem forms_in_any_order_of_cube_eight : ∃ topology start,
    Topology.ofMembers (Layout.members 8) 0 .auto = .ok topology ∧ topology.profile = .cube ∧
      CubeCabled topology (Layout.links .cube 8) ∧
        create (Layout.members 8) .auto (Layout.links .cube 8) = .ok start ∧
          FormsInAnyOrder topology start := by
  have hcheck : ((Topology.ofMembers (Layout.members 8) 0 .auto).toOption.map fun topology =>
      decide (topology.profile = .cube ∧ CubeCabled topology (Layout.links .cube 8))) =
        some true := by decide +kernel
  obtain ⟨topology, htopology, hcabled⟩ := Option.map_eq_some_iff.1 hcheck
  obtain ⟨hprofile, hcabled⟩ := of_decide_eq_true hcabled
  have htopology := eq_ok_of_toOption htopology
  obtain ⟨start, hcreate, hforms⟩ := forms_in_any_order_of_cube htopology hprofile hcabled
  exact ⟨topology, start, htopology, hprofile, hcabled, hcreate, hforms⟩

/-- A hypercube forms in any order if the partners of its partitions have hostnames. -/
theorem forms_in_any_order_of_hypercube
    (htopology : Topology.ofMembers members localRank request = .ok topology)
    (hprofile : topology.profile = .hypercube)
    (hhosts : ∀ node ∈ topology.ranks, ∀ peer ∈ topology.counterparts node,
      ((topology.member? peer).bind (·.hostname)).isSome = true)
    (hcabled : HypercubeCabled topology links) :
    ∃ start, create members request links = .ok start ∧ FormsInAnyOrder topology start := by
  obtain ⟨start, hcreate⟩ := exists_create htopology fun {near peer} hmember hpeer =>
    hhosts near (Topology.mem_ranks_iff.2 hmember) peer hpeer
  have hfull := hcabled.full (Topology.fault?_of_ofMembers htopology) hprofile
  exact ⟨start, hcreate, (created_of_create hcreate).formsInAnyOrder htopology hfull⟩

theorem forms_in_any_order_of_hypercube_sixteen : ∃ topology start,
    Topology.ofMembers (Layout.members 16) 0 .auto = .ok topology ∧
      topology.profile = .hypercube ∧ HypercubeCabled topology (Layout.links .hypercube 16) ∧
        create (Layout.members 16) .auto (Layout.links .hypercube 16) = .ok start ∧
          FormsInAnyOrder topology start := by
  have hcheck : ((Topology.ofMembers (Layout.members 16) 0 .auto).toOption.map fun topology =>
      decide (topology.profile = .hypercube ∧
        (topology.ranks.all fun node => (topology.counterparts node).all fun peer =>
          ((topology.member? peer).bind (·.hostname)).isSome) = true ∧
        HypercubeCabled topology (Layout.links .hypercube 16))) = some true := by decide +kernel
  obtain ⟨topology, htopology, hcabled⟩ := Option.map_eq_some_iff.1 hcheck
  obtain ⟨hprofile, hall, hcabled⟩ := of_decide_eq_true hcabled
  have hhosts : ∀ node ∈ topology.ranks, ∀ peer ∈ topology.counterparts node,
      ((topology.member? peer).bind (·.hostname)).isSome = true := fun node hnode peer hpeer =>
    List.all_eq_true.1 (List.all_eq_true.1 hall node hnode) peer hpeer
  have htopology := eq_ok_of_toOption htopology
  obtain ⟨start, hcreate, hforms⟩ :=
    forms_in_any_order_of_hypercube htopology hprofile hhosts hcabled
  exact ⟨topology, start, htopology, hprofile, hcabled, hcreate, hforms⟩

end Fabric

end MeshFormation
