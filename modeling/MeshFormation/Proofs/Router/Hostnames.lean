import MeshFormation.Proofs.Topology.Structure

/-!
# Hostnames of the partition partners

A hypercube node is built only if all its partners in other partitions have hostnames. The hostnames
are looked up first, in rank order, and only when none is missing is the delegate asked to open the
links. So either a node exists that wants one link to each partner, or the delegate has heard
nothing.
-/

namespace MeshFormation

/-- A member is at home in another partition than a rank, in the same place. -/
structure Member.Faces (member : Member) (rank : Rank) : Prop where
  place : member.rank.toNat % partitionSize = rank.toNat % partitionSize
  partition : member.rank.toNat / partitionSize ≠ rank.toNat / partitionSize

namespace HypercubeForwarding

variable {topology : Topology} {ranks : List Rank} {hosts : List (Rank × String)}
  {fault : ConfigurationError}

/-- The hostname of a member, if it has one. -/
def hostname? (topology : Topology) (rank : Rank) : Option String :=
  (topology.member? rank).bind (·.hostname)

theorem hostname?_of_hostnames (h : hostnames topology ranks = .ok hosts) :
    ∀ host ∈ hosts, hostname? topology host.1 = some host.2 := by
  induction ranks generalizing hosts with
  | nil =>
    obtain rfl := Except.ok.inj h
    simp
  | cons rank rest ih =>
    rw [hostnames] at h
    split at h
    · exact absurd h (by simp)
    rename_i name hname
    split at h
    · exact absurd h (by simp)
    rename_i others hothers
    obtain rfl := Except.ok.inj h
    intro host hmem
    rcases List.mem_cons.1 hmem with rfl | hmem
    · exact hname
    · exact ih hothers host hmem

/-- Of the ranks without a hostname the first one is named. -/
theorem least_of_hostnames (hascending : ranks.Pairwise (· < ·))
    (h : hostnames topology ranks = .error fault) :
    ∃ rank ∈ ranks, hostname? topology rank = none ∧ fault = .missingHostname rank ∧
      ∀ other ∈ ranks, hostname? topology other = none → rank ≤ other := by
  induction ranks with
  | nil => exact absurd h (by simp [hostnames])
  | cons rank rest ih =>
    obtain ⟨hhead, hrest⟩ := List.pairwise_cons.1 hascending
    rw [hostnames] at h
    split at h
    · rename_i hnone
      refine ⟨rank, List.mem_cons_self, hnone, (Except.error.inj h).symm, fun other hmem _ => ?_⟩
      rcases List.mem_cons.1 hmem with rfl | hmem
      · exact UInt32.le_refl _
      · exact UInt32.le_of_lt (hhead other hmem)
    · rename_i name hname
      split at h
      · rename_i error herror
        obtain rfl := Except.error.inj h
        obtain ⟨least, hmem, hnone, hfault, hleast⟩ := ih hrest herror
        refine ⟨least, List.mem_cons_of_mem _ hmem, hnone, hfault, fun other hother hmissing => ?_⟩
        rcases List.mem_cons.1 hother with rfl | hother
        · exact absurd (hname.symm.trans hmissing) (by simp)
        · exact hleast other hother hmissing
      · exact absurd h (by simp)

end HypercubeForwarding

namespace Topology

variable {topology : Topology} {members : List Member} {request : ProfileRequest}
  {localRank rank : Rank}

theorem lists_of_ofMembers (h : ofMembers members localRank request = .ok topology) :
    topology.Lists members := by
  obtain ⟨table, profile, htable, -, -, rfl, -⟩ := ofMembers_eq_ok_iff.1 h
  exact lists_of_gather htable profile localRank

/-- The counterparts of a hypercube node are the members that it faces. -/
theorem Lists.mem_counterparts_iff (h : topology.Lists members)
    (hprofile : topology.profile = .hypercube) :
    rank ∈ topology.counterparts localRank ↔
      ∃ member ∈ members, member.Faces localRank ∧ member.rank = rank := by
  simp only [Topology.mem_counterparts_iff, h.hasMember_iff, List.mem_map, partitionIndex, hprofile,
    true_and]
  constructor
  · rintro ⟨⟨member, hmem, rfl⟩, hplace, hpartition⟩
    exact ⟨member, hmem, ⟨hplace, hpartition⟩, rfl⟩
  · rintro ⟨member, hmem, hfaces, rfl⟩
    exact ⟨⟨member, hmem, rfl⟩, hfaces.place, hfaces.partition⟩

theorem Lists.hostname?_eq (h : topology.Lists members) {member : Member}
    (hmem : member ∈ members) :
    HypercubeForwarding.hostname? topology member.rank = member.hostname := by
  rw [HypercubeForwarding.hostname?, (h.member? _ _).2 ⟨hmem, rfl⟩]
  rfl

/-- The partners with their hostnames are the members that the node faces with theirs. -/
theorem Lists.mem_hostnames_iff (h : topology.Lists members)
    (hprofile : topology.profile = .hypercube) {partners : List (Rank × String)} {name : String}
    (hpartners : HypercubeForwarding.hostnames topology (topology.counterparts localRank) =
      .ok partners) :
    (rank, name) ∈ partners ↔
      ∃ member ∈ members, member.Faces localRank ∧ member.rank = rank ∧
        member.hostname = some name := by
  have hnames := HypercubeForwarding.hostname?_of_hostnames hpartners
  have hranks := HypercubeForwarding.map_fst_hostnames hpartners
  constructor
  · intro hpartner
    have hrank : rank ∈ partners.map Prod.fst := List.mem_map_of_mem hpartner
    rw [hranks, h.mem_counterparts_iff hprofile] at hrank
    obtain ⟨member, hlisted, hfaces, rfl⟩ := hrank
    exact ⟨member, hlisted, hfaces, rfl, (h.hostname?_eq hlisted).symm.trans (hnames _ hpartner)⟩
  · rintro ⟨member, hlisted, hfaces, rfl, hname⟩
    have hrank := (h.mem_counterparts_iff hprofile).2 ⟨member, hlisted, hfaces, rfl⟩
    rw [← hranks] at hrank
    obtain ⟨⟨other, hostname⟩, hpartner, rfl⟩ := List.mem_map.1 hrank
    have hsame := (hnames _ hpartner).symm.trans ((h.hostname?_eq hlisted).trans hname)
    obtain rfl : hostname = name := Option.some.inj hsame
    exact hpartner

theorem Lists.isSome_hostname (h : topology.Lists members)
    (hprofile : topology.profile = .hypercube) {partners : List (Rank × String)} {member : Member}
    (hpartners : HypercubeForwarding.hostnames topology (topology.counterparts localRank) =
      .ok partners)
    (hmember : member ∈ members) (hfaces : member.Faces localRank) :
    member.hostname.isSome = true := by
  have hrank := (h.mem_counterparts_iff hprofile).2 ⟨member, hmember, hfaces, rfl⟩
  rw [← HypercubeForwarding.map_fst_hostnames hpartners] at hrank
  obtain ⟨partner, hpartner, hrank⟩ := List.mem_map.1 hrank
  have hname := HypercubeForwarding.hostname?_of_hostnames hpartners partner hpartner
  rw [hrank, h.hostname?_eq hmember] at hname
  exact Option.isSome_of_mem hname

end Topology

namespace Router

variable {members : List Member} {request : ProfileRequest} {localRank : Rank} {topology : Topology}

/-- What comes of the construction of a hypercube node. If a member that it faces has no hostname,
the one of lowest rank is named and nothing was asked of the delegate. Otherwise the delegate was
asked for one link to each of them, in rank order, and these are the links that the node wants and
expects. -/
inductive Construction (members : List Member) (localRank : Rank) :
    Journal × Except RouterError Router → Prop where
  | refused {lacking : Member} (listed : lacking ∈ members) (faces : lacking.Faces localRank)
      (nameless : lacking.hostname = none)
      (least : ∀ other ∈ members, other.Faces localRank → other.hostname = none →
        lacking.rank ≤ other.rank) :
      Construction members localRank
        (.empty, .error (.configuration (.missingHostname lacking.rank)))
  | built {router : Router} {rules : HypercubeForwarding} {partners : List (Rank × String)}
      (named : ∀ member ∈ members, member.Faces localRank → member.hostname.isSome = true)
      (partners_iff : ∀ rank name, (rank, name) ∈ partners ↔ ∃ member ∈ members,
        member.Faces localRank ∧ member.rank = rank ∧ member.hostname = some name)
      (ascending : (partners.map Prod.fst).Pairwise (· < ·))
      (journal : router.node.journal =
        ⟨[], partners.map fun partner => .hostname partner.2 partner.1⟩)
      (hypercube : router.forwarding = .hypercube rules)
      (links : rules.requestedLinks.keys = partners.map Prod.fst)
      (expected : router.expected.network = partners.length) :
      Construction members localRank
        (⟨[], partners.map fun partner => .hostname partner.2 partner.1⟩, .ok router)

/-- The requests for links to the partners, in their order. -/
def hostnameRequests (partners : List (Rank × String)) : Journal :=
  ⟨[], partners.map fun partner => .hostname partner.2 partner.1⟩

theorem create_of_hostnames_error {fault : ConfigurationError}
    (hprofile : topology.profile = .hypercube)
    (h : HypercubeForwarding.hostnames topology (topology.counterparts topology.localRank) =
      .error fault) :
    create .hypercube topology = (.empty, .error (.configuration fault)) := by
  simp [create, hprofile, Forwarding.start, HypercubeForwarding.start, Node.start, Node.rank, h]

theorem create_of_hostnames {partners : List (Rank × String)}
    (hprofile : topology.profile = .hypercube)
    (h : HypercubeForwarding.hostnames topology (topology.counterparts topology.localRank) =
      .ok partners) :
    create .hypercube topology = (hostnameRequests partners, .ok
      ⟨{ Node.start topology topology.expected with journal := hostnameRequests partners },
        .hypercube
          ⟨.unset, partners.foldl (fun set link => KeySet.add set link.1) ∅, ∅, false⟩⟩) := by
  simp [create, hprofile, Forwarding.start, HypercubeForwarding.start, Node.start, Node.rank, h,
    Forwarding.foldl_notify_hostname, Journal.empty, hostnameRequests]

theorem construction_of_ofMembers (h : Topology.ofMembers members localRank request = .ok topology)
    (hprofile : topology.profile = .hypercube) :
    Construction members localRank (create .hypercube topology) := by
  have hlists := Topology.lists_of_ofMembers h
  obtain rfl := Topology.localRank_of_ofMembers h
  have hascending := Forwarding.pairwise_counterparts topology topology.localRank
  cases hhosts : HypercubeForwarding.hostnames topology
      (topology.counterparts topology.localRank) with
  | error fault =>
    obtain ⟨rank, hmem, hnone, rfl, hleast⟩ :=
      HypercubeForwarding.least_of_hostnames hascending hhosts
    obtain ⟨lacking, hlisted, hfaces, rfl⟩ := (hlists.mem_counterparts_iff hprofile).1 hmem
    rw [create_of_hostnames_error hprofile hhosts]
    refine .refused hlisted hfaces ((hlists.hostname?_eq hlisted).symm.trans hnone) ?_
    intro other hother hfaced hnameless
    apply hleast
    · exact (hlists.mem_counterparts_iff hprofile).2 ⟨other, hother, hfaced, rfl⟩
    · exact (hlists.hostname?_eq hother).trans hnameless
  | ok partners =>
    have hranks := HypercubeForwarding.map_fst_hostnames hhosts
    have hcreate := create_of_hostnames hprofile hhosts
    have hfresh := fresh_create (congrArg Prod.snd hcreate)
    rw [hcreate]
    apply Construction.built
    case named => exact fun member => hlists.isSome_hostname hprofile hhosts
    case partners_iff => exact fun rank name => hlists.mem_hostnames_iff hprofile hhosts
    case ascending => rwa [hranks]
    case journal => rfl
    case hypercube => rfl
    case links =>
      cases hfresh with
      | hypercube profile links => rw [links, hranks]
    case expected =>
      have hlength := congrArg List.length hranks
      rw [List.length_map] at hlength
      rw [hlength]
      rfl

/-- Thirty-two members, of which two do not state a hostname. -/
def membersUnnamed : List Member := (Layout.members 32).map fun member =>
  if member.rank = 21 ∨ member.rank = 29 then { member with hostname := none } else member

/-- Of four partitions, three partners are asked for. Where two of them have no hostname, the lower
one is named and the first one is not asked for either. -/
theorem construction_of_ofMembers_thirty_two : ∃ named unnamed,
    Topology.ofMembers (Layout.members 32) 13 .auto = .ok named ∧ named.profile = .hypercube ∧
      (create .hypercube named).1.notices =
        [.hostname "node5" 5, .hostname "node21" 21, .hostname "node29" 29] ∧
      Construction (Layout.members 32) 13 (create .hypercube named) ∧
      Topology.ofMembers membersUnnamed 13 .auto = .ok unnamed ∧ unnamed.profile = .hypercube ∧
      create .hypercube unnamed = (.empty, .error (.configuration (.missingHostname 21))) ∧
      Construction membersUnnamed 13 (create .hypercube unnamed) := by
  have hnamed : ((Topology.ofMembers (Layout.members 32) 13 .auto).toOption.any fun topology =>
      topology.profile = .hypercube ∧ (create .hypercube topology).1.notices =
        [.hostname "node5" 5, .hostname "node21" 21, .hostname "node29" 29]) = true := by
    decide +kernel
  have hunnamed : ((Topology.ofMembers membersUnnamed 13 .auto).toOption.any fun topology =>
      topology.profile = .hypercube ∧
        create .hypercube topology = (.empty, .error (.configuration (.missingHostname 21)))) =
          true := by
    decide +kernel
  obtain ⟨named, hfirst, hnamed⟩ := (Option.any_eq_true _ _).1 hnamed
  obtain ⟨unnamed, hsecond, hunnamed⟩ := (Option.any_eq_true _ _).1 hunnamed
  obtain ⟨hprofile, hnotices⟩ := of_decide_eq_true hnamed
  obtain ⟨hother, hrefused⟩ := of_decide_eq_true hunnamed
  have hfirst := eq_ok_of_toOption hfirst
  have hsecond := eq_ok_of_toOption hsecond
  exact ⟨named, unnamed, hfirst, hprofile, hnotices,
    construction_of_ofMembers hfirst hprofile, hsecond, hother, hrefused,
    construction_of_ofMembers hsecond hother⟩

end Router

end MeshFormation
