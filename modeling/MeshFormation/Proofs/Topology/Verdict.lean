import MeshFormation.Layout
import MeshFormation.Proofs.Router.Start
import MeshFormation.Proofs.Topology.Layout

/-!
# Which lists of members are accepted

A topology is built from a list of members if they meet a series of demands, and the first demand
that they do not meet decides which error is answered instead. The demands are stated here on the
list itself. Only the first one depends on its order, and only in the rank that its error names.
-/

namespace MeshFormation

/-- The profile that a request stands for, given the number of members. -/
def ProfileRequest.States (count : Nat) : ProfileRequest → Profile → Prop
  | .exact stated, profile => profile = stated
  | .auto, .pair => count = 2
  | .auto, .cube => count = 8
  | .auto, .hypercube => count = 16 ∨ count = 32

namespace Profile

/-- The numbers of members that a profile can have. -/
def Holds (count : Nat) : Profile → Prop
  | pair => count = 2
  | cube => count = 8
  | hypercube => count = 8 ∨ count = 16 ∨ count = 32

/-- The number of groups whose chassis a profile restricts. -/
def groupCount (count : Nat) : Profile → Nat
  | pair => 0
  | cube => 1
  | hypercube => count / 8

/-- The chassis of the members of a group. A cube is one group, in a hypercube every eight ranks
are. -/
def groupChassis (members : List Member) (group : Nat) : Profile → List String
  | hypercube => (members.filter fun member => member.rank.toNat / 8 == group).map (·.chassis)
  | _ => members.map (·.chassis)

end Profile

/-- Every rank is that of one member only, and the local one is among them. -/
structure Listed (members : List Member) (localRank : Rank) : Prop where
  distinct : (members.map (·.rank)).Nodup
  listed : localRank ∈ members.map (·.rank)

/-- The members of a hypercube have the ranks below their number. -/
def Contiguous (members : List Member) (profile : Profile) : Prop :=
  profile = .hypercube → ∀ rank : Rank, rank.toNat < members.length → rank ∈ members.map (·.rank)

/-- The members meet the demands of a profile. -/
structure Fits (members : List Member) (profile : Profile) : Prop where
  holds : profile.Holds members.length
  contiguous : Contiguous members profile
  balanced : ∀ group < profile.groupCount members.length,
    FourAndFour (profile.groupChassis members group)

/-- The first demand of a profile that the members do not meet. -/
inductive Misfit (members : List Member) (profile : Profile) : ConfigurationError → Prop where
  | size (unheld : ¬profile.Holds members.length) :
    Misfit members profile (.profileSizeMismatch profile members.length)
  | gap {missing : Rank} (hypercube : profile = .hypercube) (holds : profile.Holds members.length)
    (below : missing.toNat < members.length) (unlisted : missing ∉ members.map (·.rank))
    (least : ∀ rank < missing, rank ∈ members.map (·.rank)) :
    Misfit members profile (.nonContiguousRanks missing)
  | layout {group : Nat} {fault : ChassisFault} (holds : profile.Holds members.length)
    (contiguous : Contiguous members profile) (below : group < profile.groupCount members.length)
    (unbalanced : ¬FourAndFour (profile.groupChassis members group))
    (least : ∀ earlier < group, FourAndFour (profile.groupChassis members earlier))
    (described : LayoutFault (profile.groupChassis members group) fault) :
    Misfit members profile (.invalidChassisLayout group fault)

namespace Topology

/-- The members of a topology are those of a list. -/
structure Lists (topology : Topology) (members : List Member) : Prop where
  distinct : (members.map (·.rank)).Nodup
  member? : ∀ rank member, topology.member? rank = some member ↔
    member ∈ members ∧ member.rank = rank

/-- What is answered to a list of members, a local rank and a request. -/
inductive Verdict (members : List Member) (localRank : Rank) (request : ProfileRequest) :
    Except ConfigurationError Topology → Prop where
  | duplicate {before after : List Member} {member : Member}
    (split : members = before ++ member :: after)
    (distinct : (before.map (·.rank)).Nodup) (repeated : member.rank ∈ before.map (·.rank)) :
    Verdict members localRank request (.error (.duplicateRank member.rank))
  | unknownSelf (distinct : (members.map (·.rank)).Nodup)
    (unlisted : localRank ∉ members.map (·.rank)) :
    Verdict members localRank request (.error (.unknownSelfRank localRank))
  | unsupported (listed : Listed members localRank) (auto : request = .auto)
    (size : members.length ∉ [2, 8, 16, 32]) :
    Verdict members localRank request (.error (.unsupportedSize members.length))
  | misfit {profile : Profile} {fault : ConfigurationError} (listed : Listed members localRank)
    (states : request.States members.length profile) (misfit : Misfit members profile fault) :
    Verdict members localRank request (.error fault)
  | accepted {topology : Topology} (listed : Listed members localRank)
    (states : request.States members.length topology.profile) (fits : Fits members topology.profile)
    (seen : topology.localRank = localRank) (lists : topology.Lists members) :
    Verdict members localRank request (.ok topology)

/-! ## Ranks -/

section Gather

variable {members rest before : List Member} {table middle : Table Member} {rank : Rank}
  {fault : ConfigurationError}

theorem gather_append (h : gather before table = .ok middle) :
    gather (before ++ rest) table = gather rest middle := by
  induction before generalizing table with
  | nil =>
    obtain rfl := Except.ok.inj h
    rfl
  | cons member before ih =>
    rw [gather] at h
    split at h
    · exact absurd h (by simp)
    · rename_i hfree
      rw [List.cons_append, gather, if_neg hfree, ih h]

/-- Gathering stops at the first member whose rank is there already. -/
theorem exists_split_of_gather (h : gather members table = .error fault) :
    ∃ before member after middle, members = before ++ member :: after ∧
      gather before table = .ok middle ∧ middle.contains member.rank = true ∧
        fault = .duplicateRank member.rank := by
  induction members generalizing table with
  | nil => exact absurd h (by simp [gather])
  | cons member rest ih =>
    rw [gather] at h
    split at h
    · rename_i htaken
      exact ⟨[], member, rest, table, rfl, rfl, htaken, (Except.error.inj h).symm⟩
    · rename_i hfree
      obtain ⟨before, other, after, middle, rfl, hbefore, htaken, rfl⟩ := ih h
      refine ⟨member :: before, other, after, middle, rfl, ?_, htaken, rfl⟩
      rw [gather, if_neg hfree, hbefore]

theorem contains_gather_iff (h : gather members ∅ = .ok table) :
    table.contains rank = true ↔ rank ∈ members.map (·.rank) := by
  rw [Table.contains_eq_isSome, get?_gather h]
  simp

theorem gather_eq_error_iff :
    gather members ∅ = .error fault ↔ ∃ before member after, members = before ++ member :: after ∧
      (before.map (·.rank)).Nodup ∧ member.rank ∈ before.map (·.rank) ∧
        fault = .duplicateRank member.rank := by
  constructor
  · intro h
    obtain ⟨before, member, after, middle, hsplit, hbefore, htaken, hfault⟩ :=
      exists_split_of_gather h
    exact ⟨before, member, after, hsplit, (fresh_of_gather hbefore).1,
      (contains_gather_iff hbefore).1 htaken, hfault⟩
  · rintro ⟨before, member, after, rfl, hdistinct, hrepeated, rfl⟩
    cases hbefore : gather before ∅ with
    | error fault =>
      -- The members before the repeated one would repeat a rank themselves.
      obtain ⟨first, other, last, middle, rfl, hfirst, htaken, -⟩ := exists_split_of_gather hbefore
      rw [List.map_append, List.map_cons, List.nodup_append] at hdistinct
      have hmem := (contains_gather_iff hfirst).1 htaken
      exact absurd rfl (hdistinct.2.2 _ hmem _ List.mem_cons_self)
    | ok middle =>
      rw [gather_append hbefore, gather, if_pos ((contains_gather_iff hbefore).2 hrepeated)]

theorem exists_gather_iff :
    (∃ table, gather members ∅ = .ok table) ↔ (members.map (·.rank)).Nodup := by
  constructor
  · rintro ⟨table, h⟩
    exact (fresh_of_gather h).1
  · intro hdistinct
    cases h : gather members ∅ with
    | ok table => exact ⟨table, rfl⟩
    | error fault =>
      obtain ⟨before, member, after, rfl, -, hrepeated, -⟩ := gather_eq_error_iff.1 h
      rw [List.map_append, List.map_cons, List.nodup_append] at hdistinct
      exact absurd rfl (hdistinct.2.2 _ hrepeated _ List.mem_cons_self)

theorem lists_of_gather (h : gather members ∅ = .ok table) (profile : Profile) (localRank : Rank) :
    (⟨profile, localRank, table⟩ : Topology).Lists members := by
  have hdistinct := (fresh_of_gather h).1
  refine ⟨hdistinct, fun rank member => ?_⟩
  rw [Topology.member?, get?_gather h, Table.get?_empty, Option.or_none]
  constructor
  · intro hfind
    exact ⟨List.mem_of_find?_eq_some hfind, by simpa using List.find?_some hfind⟩
  · rintro ⟨hmem, rfl⟩
    cases hfind : members.find? (·.rank == member.rank) with
    | none => exact absurd (List.find?_eq_none.1 hfind member hmem) (by simp)
    | some other =>
      have hother : other.rank = member.rank := by simpa using List.find?_some hfind
      rw [List.inj_on_of_nodup_map hdistinct (List.mem_of_find?_eq_some hfind) hmem hother]

end Gather

/-! ## The members of a topology -/

namespace Lists

variable {topology other : Topology} {members : List Member} {rank : Rank}

theorem hasMember_iff (h : topology.Lists members) :
    topology.hasMember rank = true ↔ rank ∈ members.map (·.rank) := by
  rw [hasMember, Table.contains_eq_isSome, Option.isSome_iff_exists, List.mem_map]
  apply exists_congr
  intro member
  exact h.member? rank member

theorem ranks_perm (h : topology.Lists members) : topology.ranks.Perm (members.map (·.rank)) :=
  (List.perm_ext_iff_of_nodup topology.nodup_ranks h.distinct).2 fun rank => by
    rw [mem_ranks_iff, h.hasMember_iff]

theorem size_eq (h : topology.Lists members) : topology.size = members.length := by
  have hlength := h.ranks_perm.length_eq
  rwa [ranks, Table.length_keys, List.length_map] at hlength

/-- The members in rank order are the members in any order. -/
theorem members_perm (h : topology.Lists members) :
    (topology.ranks.filterMap topology.member?).Perm members := by
  have hnodup : (topology.ranks.filterMap topology.member?).Nodup := by
    refine topology.nodup_ranks.filterMap fun first second member hfirst hsecond => ?_
    have hone := ((h.member? first member).1 hfirst).2
    have hother := ((h.member? second member).1 hsecond).2
    exact hone.symm.trans hother
  refine (List.perm_ext_iff_of_nodup hnodup h.distinct.of_map).2 fun member => ?_
  rw [List.mem_filterMap]
  constructor
  · rintro ⟨rank, -, hmember⟩
    exact ((h.member? rank member).1 hmember).1
  · intro hmem
    refine ⟨member.rank, ?_, (h.member? _ _).2 ⟨hmem, rfl⟩⟩
    rw [mem_ranks_iff, h.hasMember_iff]
    exact List.mem_map_of_mem hmem

/-- The chassis of a group do not depend on the order in which its members are taken. -/
theorem groupChassis_perm (h : topology.Lists members) {group : Nat}
    (hgroup : group < topology.profile.groupCount members.length) :
    ((topology.partitionRanks group).filterMap topology.chassis?).Perm
      (topology.profile.groupChassis members group) := by
  have hpartition : (topology.partitionRanks group).filterMap topology.chassis? =
      ((topology.ranks.filterMap topology.member?).filter fun member =>
        topology.partitionIndex member.rank == group).map (·.chassis) := by
    have hchassis : topology.chassis? = fun rank => (topology.member? rank).map (·.chassis) := rfl
    rw [partitionRanks, hchassis, List.filterMap_filter, List.filter_filterMap, List.map_filterMap]
    apply List.filterMap_congr
    intro rank _
    cases hmember : topology.member? rank with
    | none => simp
    | some member =>
      rw [← ((h.member? rank member).1 hmember).2]
      cases hindex : topology.partitionIndex member.rank == group <;> simp [Option.filter, hindex]
  have hperm := (h.members_perm.filter fun member =>
    topology.partitionIndex member.rank == group).map (·.chassis)
  rw [hpartition]
  cases hprofile : topology.profile with
  | pair => simp [Profile.groupCount, hprofile] at hgroup
  | cube =>
    simp only [Profile.groupCount, hprofile, Nat.lt_one_iff] at hgroup
    simpa [partitionIndex, hprofile, hgroup, Profile.groupChassis] using hperm
  | hypercube => simpa [partitionIndex, hprofile, Profile.groupChassis, partitionSize] using hperm

end Lists

/-! ## The demands of a profile -/

theorem findSome?_range_eq_some_iff {α : Type} {find : Nat → Option α} {count : Nat} {found : α} :
    (List.range count).findSome? find = some found ↔
      ∃ index < count, find index = some found ∧ ∀ earlier < index, find earlier = none := by
  induction count with
  | zero => simp
  | succ count ih =>
    rw [List.range_succ, List.findSome?_append, Option.or_eq_some_iff, ih,
      List.findSome?_eq_none_iff]
    constructor
    · rintro (⟨index, hlt, hfound⟩ | ⟨hnone, hlast⟩)
      · exact ⟨index, Nat.lt_succ_of_lt hlt, hfound⟩
      · exact ⟨count, Nat.lt_succ_self count, by simpa using hlast,
          fun earlier hlt => hnone earlier (List.mem_range.2 hlt)⟩
    · rintro ⟨index, hlt, hfound, hnone⟩
      rcases Nat.lt_succ_iff_lt_or_eq.1 hlt with hlt | rfl
      · exact .inl ⟨index, hlt, hfound, hnone⟩
      · exact .inr ⟨fun earlier hmem => hnone earlier (List.mem_range.1 hmem),
          by simpa using hfound⟩

/-- The ranks below a number that is itself a rank, in ascending order. -/
theorem mem_map_range_iff {count : Nat} (hcount : count ≤ UInt32.size) {rank : Rank} :
    rank ∈ (List.range count).map UInt32.ofNat ↔ rank.toNat < count := by
  rw [List.mem_map]
  constructor
  · rintro ⟨number, hmem, rfl⟩
    have hlt := List.mem_range.1 hmem
    rwa [UInt32.toNat_ofNat_of_lt' (by omega)]
  · intro hlt
    exact ⟨rank.toNat, List.mem_range.2 hlt, UInt32.ofNat_toNat⟩

theorem pairwise_map_range {count : Nat} (hcount : count ≤ UInt32.size) :
    ((List.range count).map UInt32.ofNat).Pairwise (· < ·) := by
  rw [List.pairwise_map]
  refine List.pairwise_lt_range.imp_of_mem fun {first second} hfirst hsecond hlt => ?_
  have hone := List.mem_range.1 hfirst
  have hother := List.mem_range.1 hsecond
  rw [UInt32.lt_iff_toNat_lt, UInt32.toNat_ofNat_of_lt' (by omega),
    UInt32.toNat_ofNat_of_lt' (by omega)]
  exact hlt

section Fault

variable {topology : Topology} {members : List Member} {fault : ConfigurationError} {missing : Rank}
  {group : Nat}

theorem Holds.le_of_hypercube {count : Nat} (h : Profile.hypercube.Holds count) :
    count ≤ UInt32.size := by
  rcases h with rfl | rfl | rfl <;> decide

namespace Lists

theorem missingRank?_eq_some_iff (h : topology.Lists members) (hsize : members.length ≤ UInt32.size)
    (missing : Rank) : topology.missingRank? = some missing ↔
      missing.toNat < members.length ∧ missing ∉ members.map (·.rank) ∧
        ∀ rank < missing, rank ∈ members.map (·.rank) := by
  rw [missingRank?, h.size_eq,
    find?_eq_some_iff_of_pairwise (fun _ _ => UInt32.lt_asymm) (pairwise_map_range hsize),
    mem_map_range_iff hsize, ← h.hasMember_iff]
  apply and_congr_right
  intro hlt
  simp only [Bool.not_eq_true', Bool.not_eq_false', Bool.not_eq_true]
  apply and_congr_right
  intro _
  constructor
  · intro hleast rank hrank
    have hbelow : rank.toNat < members.length :=
      Nat.lt_trans (UInt32.lt_iff_toNat_lt.1 hrank) hlt
    exact h.hasMember_iff.1 (hleast rank ((mem_map_range_iff hsize).2 hbelow) hrank)
  · intro hleast rank _ hrank
    exact h.hasMember_iff.2 (hleast rank hrank)

theorem missingRank?_eq_none_iff (h : topology.Lists members)
    (hsize : members.length ≤ UInt32.size) :
    topology.missingRank? = none ↔
      ∀ rank : Rank, rank.toNat < members.length → rank ∈ members.map (·.rank) := by
  rw [missingRank?, h.size_eq, List.find?_eq_none]
  simp only [mem_map_range_iff hsize, Bool.not_eq_true', Bool.not_eq_false, h.hasMember_iff]

theorem groupFault?_eq_some_iff (h : topology.Lists members)
    (hgroup : group < topology.profile.groupCount members.length) :
    topology.groupFault? group (topology.partitionRanks group) = some fault ↔
      ∃ described, LayoutFault (topology.profile.groupChassis members group) described ∧
        fault = .invalidChassisLayout group described := by
  have hperm := h.groupChassis_perm hgroup
  rw [groupFault?, Option.map_eq_some_iff]
  apply exists_congr
  intro described
  rw [chassisFault?_eq_some_iff, eq_comm (a := fault)]
  apply and_congr_left
  intro _
  exact ⟨fun hdescribed => hdescribed.perm hperm, fun hdescribed => hdescribed.perm hperm.symm⟩

theorem groupFault?_eq_none_iff (h : topology.Lists members)
    (hgroup : group < topology.profile.groupCount members.length) :
    topology.groupFault? group (topology.partitionRanks group) = none ↔
      FourAndFour (topology.profile.groupChassis members group) := by
  have hperm := h.groupChassis_perm hgroup
  rw [groupFault?, Option.map_eq_none_iff, chassisFault?_eq_none_iff]
  exact ⟨fun hsplit => hsplit.perm hperm, fun hsplit => hsplit.perm hperm.symm⟩

end Lists

/-! The check of a topology makes the demands of its profile one after the other. -/

theorem fault?_of_not_holds (h : ¬topology.profile.Holds topology.size) :
    topology.fault? = some topology.sizeMismatch := by
  rw [fault?]
  cases hprofile : topology.profile with
  | pair =>
    rw [hprofile] at h
    exact if_pos h
  | cube =>
    rw [hprofile] at h
    exact if_pos h
  | hypercube =>
    rw [hprofile] at h
    refine if_pos ?_
    simp only [Profile.Holds, partitionSize, List.mem_cons, List.not_mem_nil, or_false] at h ⊢
    omega

theorem fault?_of_hypercube (hprofile : topology.profile = .hypercube)
    (h : topology.profile.Holds topology.size) :
    topology.fault? = match topology.missingRank? with
      | some missing => some (.nonContiguousRanks missing)
      | none => (List.range topology.partitionCount).findSome? fun partition =>
          topology.groupFault? partition (topology.partitionRanks partition) := by
  rw [hprofile] at h
  rw [fault?, hprofile]
  refine if_neg ?_
  simp only [Profile.Holds, partitionSize, List.mem_cons, List.not_mem_nil, or_false] at h ⊢
  omega

theorem fault?_of_missing (hprofile : topology.profile = .hypercube)
    (h : topology.profile.Holds topology.size) (hmissing : topology.missingRank? = some missing) :
    topology.fault? = some (.nonContiguousRanks missing) := by
  rw [fault?_of_hypercube hprofile h, hmissing]

theorem fault?_of_contiguous (h : topology.profile.Holds topology.size)
    (hmissing : topology.profile = .hypercube → topology.missingRank? = none) :
    topology.fault? = (List.range (topology.profile.groupCount topology.size)).findSome?
      fun group => topology.groupFault? group (topology.partitionRanks group) := by
  cases hprofile : topology.profile with
  | pair =>
    rw [hprofile] at h
    rw [fault?, hprofile]
    exact if_neg (not_not_intro h)
  | cube =>
    rw [hprofile] at h
    have hranks : topology.partitionRanks 0 = topology.ranks := by
      rw [partitionRanks, List.filter_eq_self]
      intro rank _
      simp [partitionIndex, hprofile]
    rw [fault?, hprofile]
    refine (if_neg (not_not_intro h)).trans ?_
    rw [Profile.groupCount, List.range_one, List.findSome?_singleton, hranks]
  | hypercube =>
    rw [fault?_of_hypercube hprofile h, hmissing hprofile, partitionCount, hprofile]
    rfl

namespace Lists

theorem contiguous_iff (h : topology.Lists members)
    (hholds : topology.profile.Holds members.length) :
    Contiguous members topology.profile ↔
      (topology.profile = .hypercube → topology.missingRank? = none) := by
  apply forall_congr'
  intro hprofile
  rw [hprofile] at hholds
  exact (h.missingRank?_eq_none_iff (Holds.le_of_hypercube hholds)).symm

/-! The first demand that is not met: the size, the ranks, or the chassis of a group. -/

theorem misfit_iff_of_not_holds (h : topology.Lists members)
    (hunheld : ¬topology.profile.Holds members.length) :
    topology.fault? = some fault ↔ Misfit members topology.profile fault := by
  rw [fault?_of_not_holds (by rwa [h.size_eq]), sizeMismatch, h.size_eq]
  constructor
  · intro hfault
    obtain rfl := Option.some.inj hfault
    exact .size hunheld
  · intro hmisfit
    cases hmisfit with
    | size => rfl
    | gap _ holds | layout holds => exact absurd holds hunheld

theorem misfit_iff_of_not_contiguous (h : topology.Lists members)
    (hholds : topology.profile.Holds members.length)
    (hcontiguous : ¬Contiguous members topology.profile) :
    topology.fault? = some fault ↔ Misfit members topology.profile fault := by
  have hsize : topology.profile.Holds topology.size := by rwa [h.size_eq]
  obtain ⟨hprofile, hsome⟩ := Classical.not_imp.1 (mt (h.contiguous_iff hholds).2 hcontiguous)
  obtain ⟨missing, hmissing⟩ := Option.ne_none_iff_exists'.1 hsome
  have hle := hholds
  rw [hprofile] at hle
  have hiff := h.missingRank?_eq_some_iff (Holds.le_of_hypercube hle)
  rw [fault?_of_missing hprofile hsize hmissing]
  constructor
  · intro hfault
    obtain rfl := Option.some.inj hfault
    obtain ⟨hbelow, hunlisted, hleast⟩ := (hiff missing).1 hmissing
    exact .gap hprofile hholds hbelow hunlisted hleast
  · intro hmisfit
    cases hmisfit with
    | size unheld => exact absurd hholds unheld
    | gap _ _ below unlisted least =>
      have hsame := (hiff _).2 ⟨below, unlisted, least⟩
      rw [Option.some.inj (hmissing.symm.trans hsame)]
    | layout _ contiguous => exact absurd contiguous hcontiguous

theorem misfit_iff_of_contiguous (h : topology.Lists members)
    (hholds : topology.profile.Holds members.length)
    (hcontiguous : Contiguous members topology.profile) :
    topology.fault? = some fault ↔ Misfit members topology.profile fault := by
  have hsize : topology.profile.Holds topology.size := by rwa [h.size_eq]
  rw [fault?_of_contiguous hsize ((h.contiguous_iff hholds).1 hcontiguous), h.size_eq,
    findSome?_range_eq_some_iff]
  constructor
  · rintro ⟨group, hgroup, hfault, hleast⟩
    obtain ⟨described, hdescribed, rfl⟩ := (h.groupFault?_eq_some_iff hgroup).1 hfault
    refine .layout hholds hcontiguous hgroup ?_ (fun earlier hlt => ?_) hdescribed
    · rw [← h.groupFault?_eq_none_iff hgroup, hfault]
      simp
    · exact (h.groupFault?_eq_none_iff (Nat.lt_trans hlt hgroup)).1 (hleast earlier hlt)
  · intro hmisfit
    cases hmisfit with
    | size unheld => exact absurd hholds unheld
    | gap hypercube _ below unlisted => exact absurd (hcontiguous hypercube _ below) unlisted
    | layout _ _ below _ least described =>
      exact ⟨_, below, (h.groupFault?_eq_some_iff below).2 ⟨_, described, rfl⟩, fun earlier hlt =>
        (h.groupFault?_eq_none_iff (Nat.lt_trans hlt below)).2 (least earlier hlt)⟩

/-- The check answers the first demand of the profile that the members do not meet. -/
theorem fault?_eq_some_iff (h : topology.Lists members) :
    topology.fault? = some fault ↔ Misfit members topology.profile fault := by
  by_cases hholds : topology.profile.Holds members.length
  · by_cases hcontiguous : Contiguous members topology.profile
    · exact h.misfit_iff_of_contiguous hholds hcontiguous
    · exact h.misfit_iff_of_not_contiguous hholds hcontiguous
  · exact h.misfit_iff_of_not_holds hholds

theorem fault?_eq_none_iff (h : topology.Lists members) :
    topology.fault? = none ↔ Fits members topology.profile := by
  constructor
  · intro hnone
    have hmet : ∀ fault, ¬Misfit members topology.profile fault := by
      intro fault hmisfit
      rw [h.fault?_eq_some_iff.2 hmisfit] at hnone
      exact absurd hnone (by simp)
    have hholds : topology.profile.Holds members.length :=
      not_not.1 fun hunheld => hmet _ (.size hunheld)
    have hsize : topology.profile.Holds topology.size := by rwa [h.size_eq]
    have hcontiguous : Contiguous members topology.profile := by
      rw [h.contiguous_iff hholds]
      intro hprofile
      cases hmissing : topology.missingRank? with
      | none => rfl
      | some missing =>
        rw [fault?_of_missing hprofile hsize hmissing] at hnone
        exact absurd hnone (by simp)
    refine ⟨hholds, hcontiguous, fun group hgroup => ?_⟩
    rw [fault?_of_contiguous hsize ((h.contiguous_iff hholds).1 hcontiguous), h.size_eq,
      List.findSome?_eq_none_iff] at hnone
    exact (h.groupFault?_eq_none_iff hgroup).1 (hnone group (List.mem_range.2 hgroup))
  · intro hfits
    cases hfault : topology.fault? with
    | none => rfl
    | some fault =>
      cases h.fault?_eq_some_iff.1 hfault with
      | size unheld => exact absurd hfits.holds unheld
      | gap hypercube _ below unlisted => exact absurd (hfits.contiguous hypercube _ below) unlisted
      | layout _ _ below unbalanced => exact absurd (hfits.balanced _ below) unbalanced

end Lists

end Fault

/-! ## The verdict -/

section Verdict

variable {members shuffled : List Member} {localRank : Rank} {request : ProfileRequest}
  {topology : Topology} {profile : Profile} {fault : ConfigurationError}

theorem resolve_eq_ok_iff {count : Nat} :
    request.resolve count = .ok profile ↔ request.States count profile := by
  cases request with
  | exact stated =>
    rw [ProfileRequest.resolve, Except.ok.injEq]
    exact eq_comm
  | auto =>
    rw [ProfileRequest.resolve]
    cases profile <;> simp only [ProfileRequest.States] <;> split_ifs <;> simp <;> omega

theorem resolve_eq_error_iff {count : Nat} :
    request.resolve count = .error fault ↔
      request = .auto ∧ count ∉ [2, 8, 16, 32] ∧ fault = .unsupportedSize count := by
  cases request with
  | exact stated => simp [ProfileRequest.resolve]
  | auto =>
    rw [ProfileRequest.resolve]
    split_ifs <;> simp [eq_comm] <;> omega

/-- Every answer is the verdict on what was given. -/
theorem verdict_ofMembers (members : List Member) (localRank : Rank) (request : ProfileRequest) :
    Verdict members localRank request (ofMembers members localRank request) := by
  unfold ofMembers
  cases hgather : gather members ∅ with
  | error fault =>
    obtain ⟨before, member, after, hsplit, hdistinct, hrepeated, rfl⟩ :=
      gather_eq_error_iff.1 hgather
    exact .duplicate hsplit hdistinct hrepeated
  | ok table =>
    have hdistinct := (fresh_of_gather hgather).1
    dsimp only
    split
    · rename_i hunlisted
      apply Verdict.unknownSelf hdistinct
      rw [← contains_gather_iff hgather]
      simpa using hunlisted
    rename_i hlisted
    have hlisted : Listed members localRank :=
      ⟨hdistinct, (contains_gather_iff hgather).1 (by simpa using hlisted)⟩
    cases hresolve : request.resolve members.length with
    | error fault =>
      obtain ⟨hauto, hsize, rfl⟩ := resolve_eq_error_iff.1 hresolve
      exact .unsupported hlisted hauto hsize
    | ok profile =>
      have hlists := lists_of_gather hgather profile localRank
      have hstates := resolve_eq_ok_iff.1 hresolve
      dsimp only
      cases hfault : (⟨profile, localRank, table⟩ : Topology).fault? with
      | some fault => exact .misfit hlisted hstates (hlists.fault?_eq_some_iff.1 hfault)
      | none => exact .accepted hlisted hstates (hlists.fault?_eq_none_iff.1 hfault) rfl hlists

/-- Members with a rank each are only judged by the profile that is requested of them. -/
theorem exists_of_listed (h : Listed members localRank) (request : ProfileRequest) :
    ∃ table, gather members ∅ = .ok table ∧
      ofMembers members localRank request = (request.resolve members.length).bind fun profile =>
        match (⟨profile, localRank, table⟩ : Topology).fault? with
        | some fault => .error fault
        | none => .ok ⟨profile, localRank, table⟩ := by
  obtain ⟨table, hgather⟩ := exists_gather_iff.2 h.distinct
  refine ⟨table, hgather, ?_⟩
  have hlisted := (contains_gather_iff hgather).2 h.listed
  rw [ofMembers, hgather]
  dsimp only
  rw [if_neg (by simp [hlisted])]
  cases request.resolve members.length <;> rfl

theorem Lists.unique {other : Topology} (h : topology.Lists members) (h' : other.Lists members)
    (hprofile : topology.profile = other.profile) (hlocal : topology.localRank = other.localRank) :
    topology = other := by
  have hmembers : topology.members = other.members := by
    apply Table.ext_get?
    intro rank
    apply Option.ext
    intro member
    exact (h.member? rank member).trans (h'.member? rank member).symm
  cases topology
  cases other
  simp_all

theorem Verdict.ofMembers_eq {result : Except ConfigurationError Topology}
    (h : Verdict members localRank request result) :
    ofMembers members localRank request = result := by
  cases h with
  | duplicate split distinct repeated =>
    rw [ofMembers, gather_eq_error_iff.2 ⟨_, _, _, split, distinct, repeated, rfl⟩]
  | unknownSelf distinct unlisted =>
    obtain ⟨table, hgather⟩ := exists_gather_iff.2 distinct
    rw [← contains_gather_iff hgather, Bool.not_eq_true] at unlisted
    rw [ofMembers, hgather]
    dsimp only
    rw [if_pos (by simp [unlisted])]
  | unsupported listed auto size =>
    obtain ⟨table, -, hofMembers⟩ := exists_of_listed listed request
    rw [hofMembers, resolve_eq_error_iff.2 ⟨auto, size, rfl⟩]
    rfl
  | @misfit profile fault listed states misfit =>
    obtain ⟨table, hgather, hofMembers⟩ := exists_of_listed listed request
    have hlists := lists_of_gather hgather profile localRank
    rw [hofMembers, resolve_eq_ok_iff.2 states]
    simp only [Except.bind, hlists.fault?_eq_some_iff.2 misfit]
  | accepted listed states fits seen lists =>
    obtain ⟨table, hgather, -⟩ := exists_of_listed listed request
    have hsame := lists.unique (lists_of_gather hgather _ _) rfl seen
    exact ofMembers_eq_ok_iff.2 ⟨table, _, hgather, (contains_gather_iff hgather).2 listed.listed,
      resolve_eq_ok_iff.2 states, hsame, lists.fault?_eq_none_iff.2 fits⟩

/-! ## The order of the members -/

theorem groupChassis_perm (hperm : members.Perm shuffled) (group : Nat) (profile : Profile) :
    (profile.groupChassis members group).Perm (profile.groupChassis shuffled group) := by
  cases profile with
  | pair | cube => exact hperm.map _
  | hypercube => exact (hperm.filter _).map _

/-- A list that is accepted is accepted in any other order, as the same topology. -/
theorem Verdict.perm (h : Verdict members localRank request (.ok topology))
    (hperm : members.Perm shuffled) : Verdict shuffled localRank request (.ok topology) := by
  cases h with
  | accepted listed states fits seen lists =>
    have hranks := hperm.map (·.rank)
    have hlength := hperm.length_eq
    constructor
    case listed => exact ⟨hranks.nodup_iff.1 listed.distinct, hranks.mem_iff.1 listed.listed⟩
    case states => rwa [← hlength]
    case fits =>
      constructor
      case holds => exact hlength ▸ fits.holds
      case contiguous =>
        intro hprofile rank hlt
        exact hranks.mem_iff.1 (fits.contiguous hprofile rank (hlength ▸ hlt))
      case balanced =>
        intro group hlt
        exact (fits.balanced group (hlength ▸ hlt)).perm (groupChassis_perm hperm group _)
    case seen => exact seen
    case lists =>
      refine ⟨hranks.nodup_iff.1 lists.distinct, fun rank member => ?_⟩
      rw [lists.member? rank member, hperm.mem_iff]

/-- Every list of members gets one answer, which is the verdict on it. Another order of the members
of an accepted list gives the same topology. -/
theorem ofMembers_judges (members : List Member) (localRank : Rank) (request : ProfileRequest) :
    (∀ result,
      ofMembers members localRank request = result ↔ Verdict members localRank request result) ∧
      ∀ shuffled topology, members.Perm shuffled →
        ofMembers members localRank request = .ok topology →
          ofMembers shuffled localRank request = .ok topology := by
  constructor
  · intro result
    constructor
    · rintro rfl
      exact verdict_ofMembers members localRank request
    · exact Verdict.ofMembers_eq
  · intro shuffled topology hperm haccepted
    have hverdict := verdict_ofMembers members localRank request
    rw [haccepted] at hverdict
    exact (hverdict.perm hperm).ofMembers_eq

/-- Eight members in any order make the same cube. A ninth one with the rank of another is
refused. -/
theorem ofMembers_judges_eight : ∃ topology,
    ofMembers (Layout.members 8) 0 .auto = .ok topology ∧ topology.profile = .cube ∧
      ofMembers (Layout.members 8).reverse 0 .auto = .ok topology ∧
      ofMembers (Layout.members 8 ++ [Layout.member 3]) 0 .auto = .error (.duplicateRank 3) := by
  have hcube : ((ofMembers (Layout.members 8) 0 .auto).toOption.map (·.profile)) = some .cube := by
    decide +kernel
  obtain ⟨topology, haccepted, hprofile⟩ := Option.map_eq_some_iff.1 hcube
  have haccepted := eq_ok_of_toOption haccepted
  refine ⟨topology, haccepted, hprofile, ?_, ?_⟩
  · exact (ofMembers_judges _ _ _).2 _ topology (List.reverse_perm _).symm haccepted
  · rw [(ofMembers_judges _ _ _).1]
    change Verdict _ _ _ (.error (.duplicateRank (Layout.member 3).rank))
    exact .duplicate rfl (by decide +kernel) (by decide +kernel)

end Verdict

end Topology

end MeshFormation
