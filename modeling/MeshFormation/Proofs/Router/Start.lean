import MeshFormation.Proofs.Topology.Chassis
import MeshFormation.Router
import Mathlib.Tactic.Tauto

/-!
# The first state of a router

A router that was just created knows no peer and expects what its topology demands. It has asked its
delegate for hostnames and for nothing else.
-/

namespace MeshFormation

theorem eq_ok_of_toOption {ε α : Type} {result : Except ε α} {value : α}
    (h : result.toOption = some value) : result = .ok value := by
  cases result with
  | error error => exact absurd h (by simp [Except.toOption])
  | ok other =>
    obtain rfl := Option.some.inj h
    rfl

namespace HypercubeForwarding

variable {topology : Topology} {ranks : List Rank} {hosts : List (Rank × String)}

theorem map_fst_hostnames (h : hostnames topology ranks = .ok hosts) :
    hosts.map Prod.fst = ranks := by
  induction ranks generalizing hosts with
  | nil =>
    obtain rfl := Except.ok.inj h
    rfl
  | cons rank rest ih =>
    rw [hostnames] at h
    split at h
    · exact absurd h (by simp)
    · split at h
      · exact absurd h (by simp)
      · rename_i others hothers
        obtain rfl := Except.ok.inj h
        rw [List.map_cons, ih hothers]

theorem contains_foldl_add {peer : Rank} (set : KeySet) :
    (hosts.foldl (fun partners link => KeySet.add partners link.1) set).contains peer = true ↔
      set.contains peer = true ∨ peer ∈ hosts.map Prod.fst := by
  induction hosts generalizing set with
  | nil => simp
  | cons host rest ih =>
    rw [List.foldl_cons, ih, KeySet.contains_add, List.map_cons, List.mem_cons, Bool.or_eq_true,
      beq_iff_eq]
    tauto

end HypercubeForwarding

namespace Forwarding

/-- The hostnames are asked for one after the other. -/
theorem foldl_notify_hostname (links : List (Rank × String)) (journal : Journal) :
    links.foldl (fun journal link => journal.notify (.hostname link.2 link.1)) journal =
      { journal with
        notices := journal.notices ++ links.map fun link => .hostname link.2 link.1 } := by
  induction links generalizing journal with
  | nil => simp
  | cons link rest ih =>
    rw [List.foldl_cons, ih]
    simp [Journal.notify]

/-- The start of the rules asks for hostnames and does nothing else. -/
theorem start_eq_ok {profile : Profile} {node next : Node} {forwarding : Forwarding}
    (h : start profile node = (next, .ok forwarding)) :
    ∃ links : List (Rank × String), next = { node with journal := { node.journal with
      notices := node.journal.notices ++ links.map fun link => .hostname link.2 link.1 } } := by
  cases profile with
  | pair =>
    obtain ⟨rfl, -⟩ := Prod.mk.inj h
    exact ⟨[], by simp⟩
  | cube =>
    obtain ⟨rfl, -⟩ := Prod.mk.inj h
    exact ⟨[], by simp⟩
  | hypercube =>
    rw [start, HypercubeForwarding.start] at h
    cases hhosts : HypercubeForwarding.hostnames node.topology
        (node.topology.counterparts node.rank) with
    | error fault => simp [hhosts] at h
    | ok links =>
      rw [hhosts] at h
      obtain ⟨rfl, -⟩ := Prod.mk.inj h
      exact ⟨links, by rw [foldl_notify_hostname]⟩

theorem crossPartner?_of_start {profile : Profile} {node next : Node} {forwarding : Forwarding}
    (h : start profile node = (next, .ok forwarding)) : forwarding.crossPartner? = none := by
  cases profile with
  | pair =>
    obtain ⟨-, hrules⟩ := Prod.mk.inj h
    rw [← Except.ok.inj hrules]
    rfl
  | cube =>
    obtain ⟨-, hrules⟩ := Prod.mk.inj h
    rw [← Except.ok.inj hrules]
    rfl
  | hypercube =>
    unfold start HypercubeForwarding.start at h
    cases hhosts : HypercubeForwarding.hostnames node.topology
        (node.topology.counterparts node.rank) with
    | error fault => simp [hhosts] at h
    | ok links =>
      rw [hhosts] at h
      obtain ⟨-, hrules⟩ := Prod.mk.inj h
      rw [← Except.ok.inj hrules]
      rfl

/-- The rules of a node that has seen no event. -/
inductive Fresh (topology : Topology) : Forwarding → Prop where
  | pair (profile : topology.profile = .pair) : Fresh topology pair
  | cube (profile : topology.profile = .cube) : Fresh topology (cube .start)
  | hypercube {requested : KeySet} (profile : topology.profile = .hypercube)
      (links : requested.keys = topology.counterparts topology.localRank) :
      Fresh topology (hypercube ⟨.unset, requested, ∅, false⟩)

theorem Fresh.profile_eq {topology : Topology} {forwarding : Forwarding}
    (h : forwarding.Fresh topology) : forwarding.profile = topology.profile := by
  cases h with
  | pair profile | cube profile | hypercube profile => exact profile.symm

theorem pairwise_counterparts (topology : Topology) (rank : Rank) :
    (topology.counterparts rank).Pairwise (· < ·) := by
  unfold Topology.counterparts
  split
  · exact (Table.pairwise_keys topology.members).filter _
  · exact .nil

theorem fresh_of_start {topology : Topology} {node next : Node} {forwarding : Forwarding}
    (htopology : node.topology = topology)
    (h : start topology.profile node = (next, .ok forwarding)) : forwarding.Fresh topology := by
  cases hprofile : topology.profile with
  | pair =>
    rw [hprofile] at h
    obtain ⟨-, hrules⟩ := Prod.mk.inj h
    rw [← Except.ok.inj hrules]
    exact .pair hprofile
  | cube =>
    rw [hprofile] at h
    obtain ⟨-, hrules⟩ := Prod.mk.inj h
    rw [← Except.ok.inj hrules]
    exact .cube hprofile
  | hypercube =>
    rw [hprofile, start, HypercubeForwarding.start, Node.rank, htopology] at h
    cases hhosts : HypercubeForwarding.hostnames topology
        (topology.counterparts topology.localRank) with
    | error fault => simp [hhosts] at h
    | ok links =>
      rw [hhosts] at h
      obtain ⟨-, hrules⟩ := Prod.mk.inj h
      rw [← Except.ok.inj hrules]
      refine .hypercube hprofile (Topology.eq_of_ascending (Table.pairwise_keys _)
        (pairwise_counterparts _ _) fun peer => ?_)
      rw [Table.mem_keys_iff, HypercubeForwarding.contains_foldl_add,
        HypercubeForwarding.map_fst_hostnames hhosts]
      simp [Table.contains_eq_isSome]

end Forwarding

namespace Router

variable {profile : Profile} {topology : Topology} {start : Router}

/-- What is known of a router that was just created. -/
theorem create_eq_ok (h : (create profile topology).2 = .ok start) :
    start.forwarding.crossPartner? = none ∧ ∃ hosts : List (Rank × String), start.node =
      { Node.start topology topology.expected with
        journal := ⟨[], hosts.map fun link => .hostname link.2 link.1⟩ } := by
  unfold create at h
  split at h
  · exact absurd h (by simp)
  split at h
  · exact absurd h (by simp)
  · rename_i node forwarding hstart
    obtain ⟨hosts, rfl⟩ := Forwarding.start_eq_ok hstart
    obtain rfl := Except.ok.inj h
    exact ⟨Forwarding.crossPartner?_of_start hstart, hosts, rfl⟩

theorem profile_of_create (h : (create profile topology).2 = .ok start) :
    topology.profile = profile := by
  unfold create at h
  split at h
  · exact absurd h (by simp)
  · rename_i hprofile
    exact not_not.1 hprofile

/-- What can be decided of the router that is built from a list of members. -/
theorem exists_created {members : List Member} {localRank : Rank} {request : ProfileRequest}
    {holds : Router → Prop} [DecidablePred holds]
    (h : ((Topology.ofMembers members localRank request).toOption.any fun topology =>
      (create profile topology).2.toOption.any fun start => holds start) = true) :
    ∃ topology start, Topology.ofMembers members localRank request = .ok topology ∧
      (create profile topology).2 = .ok start ∧ holds start := by
  obtain ⟨topology, htopology, hstart⟩ := (Option.any_eq_true _ _).1 h
  obtain ⟨start, hcreate, hholds⟩ := (Option.any_eq_true _ _).1 hstart
  exact ⟨topology, start, eq_ok_of_toOption htopology, eq_ok_of_toOption hcreate,
    of_decide_eq_true hholds⟩

theorem fresh_create (h : (create profile topology).2 = .ok start) :
    start.forwarding.Fresh topology := by
  obtain rfl := profile_of_create h
  rw [create, if_neg (by simp)] at h
  split at h
  · exact absurd h (by simp)
  · rename_i node forwarding hstart
    obtain rfl := Except.ok.inj h
    exact Forwarding.fresh_of_start rfl hstart

end Router

end MeshFormation
