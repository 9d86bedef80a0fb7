import MeshFormation.Proofs.Forwarding.Due
import MeshFormation.Proofs.Topology.Chassis
import Mathlib.Data.List.Permutation
import Mathlib.Data.List.Perm.Lattice
import Mathlib.Data.List.ProdSigma

/-!
# How two outer nodes share the third rule

Both outer nodes of a chassis hear the same two candidates, and each relays one of them to the two
inner nodes. They decide alone, from lists that may come in another order. As they compare the same
ranks, the one with the lower rank takes the higher candidate and the other one the lower: each
candidate is relayed to each inner node by one of them.
-/

namespace MeshFormation

/-- The relays of the third rule: the chosen candidate, to each inner node. -/
def crossShare (self fellow : Rank) (mates candidates : List Rank) : List (Rank × Rank) :=
  (crossChoice self fellow candidates).toList ×ˢ innerNodes mates fellow

variable {self fellow low high : Rank} {candidates mates chassis : List Rank}

/-- The choice does not depend on the order in which the candidates are listed. -/
theorem crossChoice_eq (hlt : low < high) (hcandidates : candidates.Perm [low, high]) :
    crossChoice self fellow candidates = some (if fellow < self then low else high) := by
  have hne : low ≠ high := UInt32.ne_of_lt hlt
  rw [apply_ite some]
  rcases List.perm_pair.1 hcandidates with rfl | rfl
  · simp only [crossChoice, if_neg hne, if_pos hlt]
  · have hnlt : ¬high < low := UInt32.not_lt.2 (UInt32.le_of_lt hlt)
    simp only [crossChoice, if_neg hne.symm, if_neg hnlt]

/-- Candidates between which there is no choice: they are not two different ranks. -/
def Undecided (candidates : List Rank) : Prop :=
  ∀ first second, candidates = [first, second] → first = second

theorem crossChoice_eq_none_iff :
    crossChoice self fellow candidates = none ↔ Undecided candidates := by
  unfold crossChoice Undecided
  split
  · rename_i first second
    split
    · rename_i hsame
      simp [hsame]
    · rename_i hne
      refine iff_of_false ?_ fun h => hne (h first second rfl)
      split <;> simp
  · rename_i hother
    exact iff_of_true rfl fun first second hcandidates => absurd hcandidates (hother first second)

/-- The inner nodes are the members of the chassis that are neither of the two outer nodes. -/
theorem innerNodes_perm (fellow : Rank)
    (hmates : mates.Perm (chassis.filter (· != self))) :
    (innerNodes mates fellow).Perm ((chassis.filter (· != self)).filter (· != fellow)) :=
  hmates.filter _

theorem crossShare_perm (fellow : Rank) (hlt : low < high)
    (hcandidates : candidates.Perm [low, high])
    (hmates : mates.Perm (chassis.filter (· != self))) :
    (crossShare self fellow mates candidates).Perm
      ([if fellow < self then low else high] ×ˢ
        (chassis.filter (· != self)).filter (· != fellow)) := by
  rw [crossShare, crossChoice_eq hlt hcandidates]
  exact (innerNodes_perm fellow hmates).product_left _

theorem crossShare_eq_nil (h : Undecided candidates) :
    crossShare self fellow mates candidates = [] := by
  rw [crossShare, crossChoice_eq_none_iff.2 h]
  rfl

namespace CubeForwarding

variable {cube : CubeForwarding} {node : Node} {partner : Rank} {uplink : Channel}

/-- A rule that is due asks for the relays of the share, on the channels of the inner nodes. -/
theorem crossRelays?_eq_mapM {requests : List RelayRequest}
    (h : cube.crossRelays? node partner fellow (innerNodes mates fellow) uplink = some requests) :
    (crossShare node.rank fellow mates
      ((node.ledger.heardOn uplink).filter (· != partner))).mapM
        (fun relay => node.ledger.relay? relay.1 relay.2) = some requests := by
  rw [crossRelays?] at h
  split at h
  · exact absurd h (by simp)
  split at h
  · exact absurd h (by simp)
  · rename_i candidate hchoice
    rw [← Ledger.mapM_relay?, mapM_eq_some_iff] at h
    rw [mapM_eq_some_iff, crossShare, hchoice, ← h]
    simp [List.product_cons, List.map_map, Function.comp_def]

/-- The third rule is not due without exactly two different candidates. -/
theorem crossRelays?_eq_none {inners : List Rank}
    (h : Undecided ((node.ledger.heardOn uplink).filter (· != partner))) :
    cube.crossRelays? node partner fellow inners uplink = none := by
  rw [crossRelays?, crossChoice_eq_none_iff.2 h]
  exact ite_self none

end CubeForwarding

/-! ## The two shares together -/

/-- Two lists of relays split the candidates for the inner nodes: each candidate goes to each inner
node once, by one of the two. -/
structure Splits (candidates inners : List Rank) (share other : List (Rank × Rank)) : Prop where
  disjoint : share.Disjoint other
  once : (share ++ other).Nodup
  all : (share ++ other).Perm (candidates ×ˢ inners)

/-- Two shares whose candidates differ split both candidates. -/
theorem Splits.of_perm {share other : List (Rank × Rank)} {candidate rival : Rank}
    {inners : List Rank} (hne : candidate ≠ rival) (hinners : inners.Nodup)
    (hcandidates : [candidate, rival].Perm candidates)
    (hshare : share.Perm ([candidate] ×ˢ inners)) (hother : other.Perm ([rival] ×ˢ inners)) :
    Splits candidates inners share other := by
  have hsum : [candidate] ×ˢ inners ++ [rival] ×ˢ inners = [candidate, rival] ×ˢ inners := by
    simp [List.product_cons]
  have hall : (share ++ other).Perm (candidates ×ˢ inners) :=
    ((hshare.append hother).trans (.of_eq hsum)).trans (hcandidates.product_right inners)
  have hboth : [candidate, rival].Nodup := by simpa using hne
  have honce : (share ++ other).Nodup :=
    hall.nodup_iff.2 ((hcandidates.nodup_iff.1 hboth).product hinners)
  exact ⟨List.disjoint_of_nodup_append honce, honce, hall⟩

theorem Splits.symm {share other : List (Rank × Rank)} {inners : List Rank}
    (h : Splits candidates inners share other) : Splits candidates inners other share where
  disjoint := h.disjoint.symm
  once := List.perm_append_comm.nodup_iff.1 h.once
  all := List.perm_append_comm.trans h.all

section Fellows

variable {first second : Rank} {mates' candidates' : List Rank}

/-- The lower outer node relays the higher candidate, and the higher outer node the lower one. -/
theorem splits_of_lt (hnodup : chassis.Nodup) (hlt : first < second) (hcandidate : low < high)
    (hmates : mates.Perm (chassis.filter (· != first)))
    (hmates' : mates'.Perm (chassis.filter (· != second)))
    (hcandidates : candidates.Perm [low, high]) (hcandidates' : candidates'.Perm [low, high]) :
    Splits [low, high] ((chassis.filter (· != first)).filter (· != second))
      (crossShare first second mates candidates) (crossShare second first mates' candidates') := by
  have hshare := crossShare_perm second hcandidate hcandidates hmates
  have hother := crossShare_perm first hcandidate hcandidates' hmates'
  rw [if_neg (UInt32.not_lt.2 (UInt32.le_of_lt hlt))] at hshare
  rw [if_pos hlt, List.filter_comm] at hother
  have hne : high ≠ low := (UInt32.ne_of_lt hcandidate).symm
  exact .of_perm hne ((hnodup.filter _).filter _) (List.Perm.swap low high []) hshare hother

theorem splits_of_ne (hnodup : chassis.Nodup) (hne : first ≠ second) (hcandidate : low < high)
    (hmates : mates.Perm (chassis.filter (· != first)))
    (hmates' : mates'.Perm (chassis.filter (· != second)))
    (hcandidates : candidates.Perm [low, high]) (hcandidates' : candidates'.Perm [low, high]) :
    Splits [low, high] ((chassis.filter (· != first)).filter (· != second))
      (crossShare first second mates candidates) (crossShare second first mates' candidates') := by
  rcases UInt32.lt_or_lt_of_ne hne with hlt | hgt
  · exact splits_of_lt hnodup hlt hcandidate hmates hmates' hcandidates hcandidates'
  · rw [List.filter_comm]
    exact (splits_of_lt hnodup hgt hcandidate hmates' hmates hcandidates' hcandidates).symm

theorem length_innerNodes (hnodup : chassis.Nodup) (hfirst : first ∈ chassis)
    (hsecond : second ∈ chassis) (hne : first ≠ second)
    (hmates : mates.Perm (chassis.filter (· != first))) :
    (innerNodes mates second).length + 2 = chassis.length := by
  have houter := Topology.Balanced.length_filter_ne hnodup hfirst
  have hinner := Topology.Balanced.length_filter_ne (hnodup.filter (· != first))
    (List.mem_filter.2 ⟨hsecond, bne_iff_ne.2 hne.symm⟩)
  have hsame := (innerNodes_perm second hmates).length_eq
  omega

theorem length_crossShare (hcandidate : low < high) (hcandidates : candidates.Perm [low, high]) :
    (crossShare self fellow mates candidates).length = (innerNodes mates fellow).length := by
  rw [crossShare, crossChoice_eq hcandidate hcandidates, List.length_product]
  exact Nat.one_mul _

/-- In a chassis of four the outer nodes split the third rule without overlap and without gap,
whatever the order of their mates and candidates. Without two different candidates no relay is
chosen. What the rule asks for is the share. -/
theorem crossShares_split (hnodup : chassis.Nodup) (hfour : chassis.length = chassisSize)
    (hfirst : first ∈ chassis) (hsecond : second ∈ chassis) (hne : first ≠ second)
    (hmates : mates.Perm (chassis.filter (· != first)))
    (hmates' : mates'.Perm (chassis.filter (· != second))) (hcandidate : low < high)
    (hcandidates : candidates.Perm [low, high]) (hcandidates' : candidates'.Perm [low, high]) :
    Splits [low, high] ((chassis.filter (· != first)).filter (· != second))
        (crossShare first second mates candidates) (crossShare second first mates' candidates') ∧
      ((crossShare first second mates candidates).length = 2 ∧
        (crossShare second first mates' candidates').length = 2) ∧
      (crossChoice first second candidates = some (if first < second then high else low) ∧
        crossChoice second first candidates' = some (if first < second then low else high)) ∧
      (∀ {self fellow : Rank} {mates odd : List Rank}, Undecided odd →
        crossChoice self fellow odd = none ∧ crossShare self fellow mates odd = []) ∧
      (∀ {cube : CubeForwarding} {node : Node} {partner fellow : Rank} {inners : List Rank}
        {uplink : Channel}, Undecided ((node.ledger.heardOn uplink).filter (· != partner)) →
        cube.crossRelays? node partner fellow inners uplink = none) ∧
      ∀ {cube : CubeForwarding} {node : Node} {partner fellow : Rank} {mates : List Rank}
        {uplink : Channel} {requests : List RelayRequest},
        cube.crossRelays? node partner fellow (innerNodes mates fellow) uplink = some requests →
        (crossShare node.rank fellow mates
          ((node.ledger.heardOn uplink).filter (· != partner))).mapM
            (fun relay => node.ledger.relay? relay.1 relay.2) = some requests := by
  refine ⟨splits_of_ne hnodup hne hcandidate hmates hmates' hcandidates hcandidates', ⟨?_, ?_⟩,
    ⟨?_, crossChoice_eq hcandidate hcandidates'⟩, ?_, CubeForwarding.crossRelays?_eq_none,
    CubeForwarding.crossRelays?_eq_mapM⟩
  · have hinners := length_innerNodes hnodup hfirst hsecond hne hmates
    rw [length_crossShare hcandidate hcandidates]
    exact Nat.add_right_cancel (hinners.trans hfour)
  · have hinners := length_innerNodes hnodup hsecond hfirst hne.symm hmates'
    rw [length_crossShare hcandidate hcandidates']
    exact Nat.add_right_cancel (hinners.trans hfour)
  · rw [crossChoice_eq hcandidate hcandidates]
    rcases UInt32.lt_or_lt_of_ne hne with hlt | hgt
    · rw [if_neg (UInt32.not_lt.2 (UInt32.le_of_lt hlt)), if_pos hlt]
    · rw [if_pos hgt, if_neg (UInt32.not_lt.2 (UInt32.le_of_lt hgt))]
  · intro self fellow mates odd hodd
    exact ⟨crossChoice_eq_none_iff.2 hodd, crossShare_eq_nil hodd⟩

/-- The outer nodes two and zero of a chassis share the candidates six and seven. -/
theorem crossShares_split_two_zero :
    Splits [6, 7] [1, 3] (crossShare 2 0 [3, 1, 0] [7, 6]) (crossShare 0 2 [1, 2, 3] [6, 7]) ∧
      crossShare 2 0 [3, 1, 0] [7, 6] = [(6, 3), (6, 1)] := by
  have hmates : List.Perm [3, 1, 0] (([0, 1, 2, 3] : List Rank).filter (· != 2)) := by decide
  have hmates' : List.Perm [1, 2, 3] (([0, 1, 2, 3] : List Rank).filter (· != 0)) := by decide
  have hcandidates : List.Perm [7, 6] ([6, 7] : List Rank) := by decide
  have hsplit := crossShares_split (by decide) rfl (by decide) (by decide)
    (by decide) hmates hmates' (by decide) hcandidates (.refl _)
  exact ⟨hsplit.1, by decide⟩

end Fellows

end MeshFormation
