import MeshFormation.Proofs.Cabling.Agreement
import MeshFormation.Proofs.Formation.Complete
import MeshFormation.Proofs.Formation.Pairing

/-!
# Surplus cables

If some nodes of an ensemble are connected by several cables, each end uses the channel that it is
told of first and disables the others. As long as both ends use the same cable, this disturbs
nothing. But nothing makes them do so: if they are told of different cables first, the data of
either arrives on a channel that the other one has disabled, which is taken for a broken contract.
-/

namespace MeshFormation

namespace Cabling.Parallel

variable {cables links : List Link} {known : List (Rank × Channel)}

/-- Parallel cables as an installation, in which those are used that the ends agree on. -/
@[reducible] def installation (h : Parallel cables links) (topology : Topology)
    (hdistinct : ∀ link ∈ links, link.1 ≠ link.2) (hfits : Fits cables)
    (hagree : (ofLinks cables).EndsAgree known) : Installation where
  toBlueprint := ⟨topology, links⟩
  cabling := .ofLinks cables
  used := (ofLinks cables).usedChannel known
  joined hcable := h.joined_iff.1 (joined_of_farEnd? hcable)
  symmetric := (sound_ofLinks hfits).symmetric
  shared := by
    intro near far channel farChannel hcable hused
    have hne : near ≠ far := by
      rcases h.joined_iff.1 (joined_of_farEnd? hcable) with hmem | hmem
      · exact hdistinct _ hmem
      · exact (hdistinct _ hmem).symm
    rw [usedChannel_eq hcable] at hused
    rw [usedChannel_eq ((sound_ofLinks hfits).symmetric hcable),
      ← uses_comm hagree (sound_ofLinks hfits).symmetric hne hcable]
    exact hused
  single := by
    intro near far channel other farChannel otherFar hcable hused hcable' hused'
    rw [usedChannel_eq hcable] at hused
    rw [usedChannel_eq hcable'] at hused'
    exact eq_of_uses (sound_ofLinks hfits).symmetric hcable hused hcable' hused'
  laid := by
    intro near far hjoined
    obtain ⟨channel, farChannel, hcable⟩ := (h.joined_iff.2 hjoined).exists_farEnd? hfits
    obtain ⟨other, otherFar, hcable', huses⟩ := exists_uses (sound_ofLinks hfits).symmetric hcable
    exact ⟨other, otherFar, hcable', by rw [usedChannel_eq hcable', huses]⟩

end Cabling.Parallel

namespace Cabling

variable {cabling : Cabling} {known earlier later : List (Rank × Channel)} {rank peer : Rank}
  {channel far : Channel}

/-- A channel that a node was told of is used if it is the first one to its peer. -/
theorem usedChannel_iff (hcable : cabling.farEnd? rank channel = some (peer, far))
    (hmem : (rank, channel) ∈ known) : cabling.usedChannel known rank channel = true ↔
      cabling.firstKnown? known rank peer = some channel := by
  obtain ⟨later, earlier, rfl⟩ := List.append_of_mem hmem
  rw [usedChannel_eq hcable]
  rcases @firstKnown?_of_mem cabling later earlier rank peer channel far hcable with
    hfirst | ⟨other, hfirst, -⟩
  · rw [uses_of_firstKnown? hfirst, hfirst]
    simp
  · rw [uses_of_firstKnown? hfirst, hfirst]
    simp

end Cabling

/-- Each node is told first of the channel in use. -/
theorem Installation.inOrder (b : Installation) {known : List (Rank × Channel)}
    (hused : b.used = b.cabling.usedChannel known) {later earlier : List (Rank × Channel)}
    (hknown : known = later ++ earlier) : b.InOrder earlier := by
  induction earlier generalizing later with
  | nil => trivial
  | cons first rest ih =>
    obtain ⟨node, channel⟩ := first
    refine ⟨fun hunused peer far hcable => ?_, ih (by rw [hknown, ← List.append_cons])⟩
    rw [hused, Cabling.usedChannel_eq hcable] at hunused
    subst hknown
    rcases @Cabling.firstKnown?_of_mem b.cabling later rest node peer channel far hcable with
      hfirst | ⟨other, hfirst, hmem⟩
    · rw [(Cabling.uses_of_firstKnown? hfirst).2 rfl] at hunused
      exact absurd hunused (by simp)
    · obtain ⟨-, otherFar, hother⟩ := Cabling.of_firstKnown? hfirst
      refine ⟨other, otherFar, hmem, ?_, hother⟩
      rw [hused, Cabling.usedChannel_eq hother]
      exact (Cabling.uses_of_firstKnown? hfirst).2 rfl

/-! ## The reference layouts -/

theorem PartlyCabled.seenFrom {topology : Topology} {links : List Link}
    (h : PartlyCabled topology links) (rank : Rank) : PartlyCabled (topology.seenFrom rank) links :=
  ⟨h.simple, h.member, h.apart, h.few⟩

theorem PartlyCabled.ofPair {topology : Topology} {links : List Link}
    (h : PartlyCabled topology links) (hfault : topology.fault? = none)
    (hprofile : topology.profile = .pair) :
    Blueprint.OfPair ⟨topology, links⟩ :=
  ⟨hfault, hprofile, fun link hmem =>
    ⟨h.simple.distinct link hmem, (h.member link hmem).1, (h.member link hmem).2.1⟩⟩

/-- The numbers of members with which a profile can be formed. -/
def Profile.sizes : Profile → List Nat
  | .pair => [2]
  | .cube => [8]
  | .hypercube => [8, 16, 32]

theorem Topology.size_of_fault? {topology : Topology} (h : topology.fault? = none) :
    topology.size ∈ topology.profile.sizes := by
  rw [fault?] at h
  cases hprofile : topology.profile with
  | pair | cube =>
    simp only [hprofile] at h
    split at h
    · exact absurd h (by simp)
    · rename_i hsize
      simpa [Profile.sizes, partitionSize] using hsize
  | hypercube =>
    simp only [hprofile] at h
    split at h
    · exact absurd h (by simp)
    · rename_i hsize
      simp only [partitionSize, List.mem_cons, List.not_mem_nil, or_false] at hsize
      simp only [Profile.sizes, List.mem_cons, List.not_mem_nil, or_false]
      omega

/-- A reference layout with which an ensemble can be formed holds the links that its profile
needs. -/
theorem partlyCabled_layout {members : Nat} {request : ProfileRequest} {topology : Topology}
    {localRank : Rank}
    (htopology : Topology.ofMembers (Layout.members members) localRank request = .ok topology) :
    PartlyCabled topology (Layout.links topology.profile members) := by
  have hsize := Topology.size_of_fault? (Topology.fault?_of_ofMembers htopology)
  obtain ⟨table, profile, htable, -, -, rfl, -⟩ := Topology.ofMembers_eq_ok_iff.1 htopology
  have hcount : table.size = members := by
    rw [Topology.size_gather htable, Table.size_empty, Nat.zero_add]
    simp [Layout.members]
  have hcheck : ∀ profile : Profile, ∀ count ∈ profile.sizes,
      (Topology.gather (Layout.members count) ∅).toOption.any (fun table =>
        decide (PartlyCabled ⟨profile, 0, table⟩ (Layout.links profile count))) = true := by
    intro profile
    cases profile <;> decide +kernel
  have hcabled := hcheck profile members (hcount ▸ hsize)
  rw [htable] at hcabled
  exact (of_decide_eq_true hcabled).seenFrom localRank

theorem exists_partlyCabled_pair : ∃ topology,
    Topology.ofMembers (Layout.members 2) 0 .auto = .ok topology ∧
      PartlyCabled topology (Layout.links .pair 2) := by
  have hpair : ((Topology.ofMembers (Layout.members 2) 0 .auto).toOption.map
      fun topology => decide (topology.profile = .pair)) = some true := by decide +kernel
  obtain ⟨topology, htopology, hprofile⟩ := Option.map_eq_some_iff.1 hpair
  have htopology := eq_ok_of_toOption htopology
  have hcabled := partlyCabled_layout htopology
  rw [of_decide_eq_true hprofile] at hcabled
  exact ⟨topology, htopology, hcabled⟩

namespace Fabric

variable {members : List Member} {request : ProfileRequest} {cables links : List Link}
  {topology : Topology} {localRank : Rank} {start fabric : Fabric} {count : Nat}

/-- No node has failed or answered an error. Each has bound the first channel to each peer of which
it was told, and has disabled the other channels of which it was told. -/
structure RejectsSurplus (cabling : Cabling) (fabric : Fabric) : Prop where
  errors : fabric.errors = []
  working : ∀ {rank node}, fabric.node? rank = some node → node.isFailed = false
  bound : ∀ {rank node channel peer far}, fabric.node? rank = some node →
    cabling.farEnd? rank channel = some (peer, far) → (node.boundPeer? channel = some peer ↔
      cabling.firstKnown? fabric.knownChannels rank peer = some channel)
  disabled : ∀ {rank node channel}, fabric.node? rank = some node →
    (.disable channel ∈ node.journal.accepted ↔
      (rank, channel) ∈ fabric.knownChannels ∧ node.boundPeer? channel = none)

theorem Tolerates.rejectsSurplus {b : Installation} {Kind : Fabric → Prop}
    (h : Tolerates b Kind fabric) (hsustains : Sustains b Kind)
    (hused : b.used = b.cabling.usedChannel fabric.knownChannels) :
    RejectsSurplus b.cabling fabric := by
  have hoperates := hsustains.operates h.kind
  have hknown : ∀ {rank node channel}, fabric.node? rank = some node →
      ((rank, channel) ∈ fabric.knownChannels ∧ b.used rank channel = true ↔
        ∃ peer, node.boundPeer? channel = some peer) := by
    intro rank node channel hnode
    rw [← mem_known_inUse, hoperates.known]
    constructor
    · rintro ⟨state, peer, hstate, hbound⟩
      obtain rfl := Option.some.inj (hnode.symm.trans hstate)
      exact ⟨peer, hbound⟩
    · rintro ⟨peer, hbound⟩
      exact ⟨node, peer, hnode, hbound⟩
  constructor
  case errors => exact hoperates.errors
  case working => exact hoperates.working
  case bound =>
    intro rank node channel peer far hnode hcable
    constructor
    · intro hbound
      obtain ⟨hmem, huses⟩ := (hknown hnode).2 ⟨peer, hbound⟩
      rw [hused] at huses
      exact (Cabling.usedChannel_iff hcable hmem).1 huses
    · intro hfirst
      obtain ⟨hmem, -⟩ := Cabling.of_firstKnown? hfirst
      have huses : b.used rank channel = true := by
        rw [hused]
        exact (Cabling.usedChannel_iff hcable hmem).2 hfirst
      obtain ⟨other, hbound⟩ := (hknown hnode).1 ⟨hmem, huses⟩
      obtain ⟨-, _, hcable'⟩ := h.traced.binding hnode hbound
      obtain ⟨rfl, -⟩ := Prod.mk.inj (Option.some.inj (hcable.symm.trans hcable'))
      exact hbound
  case disabled =>
    intro rank node channel hnode
    rw [h.disabled hnode]
    refine and_congr_right fun hmem => ?_
    rw [← Bool.not_eq_true, Option.eq_none_iff_forall_ne_some, ← not_exists, ← hknown hnode]
    simp [hmem]

section Agree

variable (htopology : Topology.ofMembers members localRank request = .ok topology)
  (hparallel : Cabling.Parallel cables links) (hfits : Cabling.Fits cables)
  (hcreate : create members request cables = .ok start) (hrun : start.Proceeds count fabric)
  (hagree : (Cabling.ofLinks cables).EndsAgree fabric.knownChannels)
include htopology hparallel hfits hcreate hrun hagree

/-! The cables in use are read off the channels that are known at the end of the run. From its start
on, the other cables are surplus. -/

/-- A pair whose ends agree forms on the cable that is in use. -/
theorem tolerates_of_pair (hpair : Blueprint.OfPair ⟨topology, links⟩) :
    Tolerates (hparallel.installation topology hpair.distinct hfits hagree)
      (Pairing (hparallel.installation topology hpair.distinct hfits hagree)) fabric := by
  have hcreated := created_of_create hcreate
  let b := hparallel.installation topology hpair.distinct hfits hagree
  have hpair : b.OfPair := hpair
  have hstart := hcreated.tolerates htopology rfl hfits
    (fun hjoined => (hpair.of_joined hjoined).2.2)
    (hcreated.pairing_inUse hpair htopology rfl hfits)
  exact hrun.tolerates (sustains_pairing hpair) hstart (b.inOrder rfl (List.nil_append _).symm)

/-- A cube or hypercube whose ends agree forms on the cables that are in use. -/
theorem tolerates_of_valid (hvalid : Blueprint.Valid ⟨topology, links⟩) :
    Tolerates (hparallel.installation topology hvalid.simple.distinct hfits hagree)
      (Forming (hparallel.installation topology hvalid.simple.distinct hfits hagree)) fabric := by
  have hcreated := created_of_create hcreate
  let b := hparallel.installation topology hvalid.simple.distinct hfits hagree
  have hvalid : b.Valid := hvalid
  have hstart := hcreated.tolerates htopology rfl hfits
    (fun hjoined => (hvalid.of_joined hjoined).2.2.1)
    (hcreated.forming_inUse hvalid htopology rfl hfits)
  exact hrun.tolerates (sustains_forming hvalid) hstart (b.inOrder rfl (List.nil_append _).symm)

/-- Surplus cables are rejected without harm if the first channels of which two nodes were told
belong to one cable. -/
theorem rejects_surplus_of_endsAgree (hcabled : PartlyCabled topology links) :
    RejectsSurplus (.ofLinks cables) fabric := by
  have hfault := Topology.fault?_of_ofMembers htopology
  cases hprofile : topology.profile with
  | pair =>
    have hpair := hcabled.ofPair hfault hprofile
    have htolerates := tolerates_of_pair htopology hparallel hfits hcreate hrun hagree hpair
    exact htolerates.rejectsSurplus (sustains_pairing hpair) rfl
  | cube | hypercube =>
    have hvalid : Blueprint.Valid ⟨topology, links⟩ := hcabled.valid hfault (by simp [hprofile])
    have htolerates := tolerates_of_valid htopology hparallel hfits hcreate hrun hagree hvalid
    exact htolerates.rejectsSurplus (sustains_forming hvalid) rfl

end Agree

/-- The two nodes of a pair with two cables are both told of the second one first. -/
theorem rejects_surplus_of_pair : ∃ topology start fabric,
    Topology.ofMembers (Layout.members 2) 0 .auto = .ok topology ∧
      PartlyCabled topology (Layout.links .pair 2) ∧
        Cabling.Parallel [(0, 1), (0, 1)] (Layout.links .pair 2) ∧
          create (Layout.members 2) .auto [(0, 1), (0, 1)] = .ok start ∧ start.Proceeds 6 fabric ∧
            fabric.knownChannels = [(1, 0), (0, 0), (1, 1), (0, 1)] ∧ fabric.queue = [] ∧
              RejectsSurplus (.ofLinks [(0, 1), (0, 1)]) fabric := by
  have hcheck : ((create (Layout.members 2) .auto [(0, 1), (0, 1)]).toOption.bind fun start =>
      (start.proceed? [2, 2, 0, 1, 1, 0]).map fun fabric =>
        decide ((Cabling.ofLinks [(0, 1), (0, 1)]).EndsAgree fabric.knownChannels ∧
          fabric.knownChannels = [(1, 0), (0, 0), (1, 1), (0, 1)] ∧ fabric.queue = [])) =
        some true := by decide +kernel
  obtain ⟨start, hstart, hcheck⟩ := Option.bind_eq_some_iff.1 hcheck
  obtain ⟨fabric, hproceed, hfacts⟩ := Option.map_eq_some_iff.1 hcheck
  obtain ⟨hagree, hknown, hqueue⟩ := of_decide_eq_true hfacts
  obtain ⟨topology, htopology, hcabled⟩ := exists_partlyCabled_pair
  have hparallel : Cabling.Parallel [(0, 1), (0, 1)] (Layout.links .pair 2) := by decide
  have hcreate := eq_ok_of_toOption hstart
  have hrun : start.Proceeds 6 fabric := Proceeds.start.proceed? hproceed
  exact ⟨topology, start, fabric, htopology, hcabled, hparallel, hcreate, hrun, hknown, hqueue,
    rejects_surplus_of_endsAgree htopology hparallel
      (Cabling.fits_of_length (by decide)) hcreate hrun hagree hcabled⟩

/-- If the two nodes of a pair are told of different cables first, the one to which data is sent
takes its channel for unknown and fails. -/
theorem not_rejects_surplus_of_pair : ∃ topology start fabric,
    Topology.ofMembers (Layout.members 2) 0 .auto = .ok topology ∧
      PartlyCabled topology (Layout.links .pair 2) ∧
        Cabling.Parallel [(0, 1), (0, 1)] (Layout.links .pair 2) ∧
          create (Layout.members 2) .auto [(0, 1), (0, 1)] = .ok start ∧ start.Proceeds 4 fabric ∧
            fabric.errors = [(1, .protocolViolation 1 (.undiscoveredChannel .rx 0))] ∧
              (fabric.node? 1).map Node.isFailed = some true ∧
                ¬RejectsSurplus (.ofLinks [(0, 1), (0, 1)]) fabric := by
  have hcheck : ((create (Layout.members 2) .auto [(0, 1), (0, 1)]).toOption.bind fun start =>
      (start.proceed? [0, 2, 0, 1]).map fun fabric =>
        decide (fabric.errors = [(1, .protocolViolation 1 (.undiscoveredChannel .rx 0))] ∧
          (fabric.node? 1).map Node.isFailed = some true)) = some true := by decide +kernel
  obtain ⟨start, hstart, hcheck⟩ := Option.bind_eq_some_iff.1 hcheck
  obtain ⟨fabric, hproceed, hfacts⟩ := Option.map_eq_some_iff.1 hcheck
  obtain ⟨herrors, hfailed⟩ := of_decide_eq_true hfacts
  obtain ⟨topology, htopology, hcabled⟩ := exists_partlyCabled_pair
  have hparallel : Cabling.Parallel [(0, 1), (0, 1)] (Layout.links .pair 2) := by decide
  have hrun : start.Proceeds 4 fabric := Proceeds.start.proceed? hproceed
  refine ⟨topology, start, fabric, htopology, hcabled, hparallel, eq_ok_of_toOption hstart, hrun,
    herrors, hfailed, fun hrejects => ?_⟩
  rw [hrejects.errors] at herrors
  exact absurd herrors (by simp)

end Fabric

end MeshFormation
