import MeshFormation.Proofs.Ledger.Lookup
import MeshFormation.Proofs.Ledger.Totals
import Mathlib.Data.List.Nodup
import Mathlib.Data.List.Perm.Subperm

/-!
# Whose data arrives

The sources of a ledger are the peers with an input channel. Each of them is listed once, so how
many of given ranks still have no input can be read off the number of inputs.
-/

namespace MeshFormation.Ledger

variable {ledger : Ledger} {peer : Rank} {ranks : List Rank}

/-- The peers whose data arrives on some channel, in rank order. -/
def sources (ledger : Ledger) : List Rank :=
  (ledger.entries.rows.filter fun row => row.2.input.isSome).map (·.1)

theorem mem_sources_iff : peer ∈ ledger.sources ↔ (ledger.input? peer).isSome = true := by
  rw [sources, List.mem_map]
  constructor
  · rintro ⟨⟨key, entry⟩, hmem, rfl⟩
    obtain ⟨hrow, hinput⟩ := List.mem_filter.1 hmem
    rw [input?, entry_of_mem_rows hrow]
    exact hinput
  · intro hinput
    obtain ⟨channel, hchannel⟩ := Option.isSome_iff_exists.1 hinput
    obtain ⟨entry, hrow, hentry⟩ := mem_rows_of_input? hchannel
    exact ⟨_, List.mem_filter.2 ⟨hrow, by simp [hentry]⟩, rfl⟩

theorem pairwise_sources (ledger : Ledger) : ledger.sources.Pairwise (· < ·) :=
  List.pairwise_map.2 (ledger.entries.ascending.filter _)

theorem nodup_sources (ledger : Ledger) : ledger.sources.Nodup :=
  ledger.pairwise_sources.imp UInt32.ne_of_lt

theorem length_sources (ledger : Ledger) : ledger.sources.length = ledger.inputCount := by
  rw [sources, List.length_map, inputCount, Table.values, List.countP_map,
    List.countP_eq_length_filter]
  rfl

/-- A peer with an input has an entry. -/
theorem contains_of_mem_sources (h : peer ∈ ledger.sources) : ledger.contains peer = true := by
  rw [mem_sources_iff, input?, entry] at h
  rw [contains, Table.contains_eq_isSome]
  cases hget : ledger.get? peer with
  | none =>
    rw [hget] at h
    exact absurd h (by simp [Connectivity.blank])
  | some entry =>
    rw [get?] at hget
    rw [hget]
    rfl

/-- If only given ranks are heard, then their number is that of the inputs and of the ranks among
them without one. -/
theorem inputCount_add_length_filter (hnodup : ranks.Nodup) (h : ledger.sources ⊆ ranks) :
    ledger.inputCount + (ranks.filter fun rank => (ledger.input? rank).isNone).length =
      ranks.length := by
  have hheard : (ranks.filter fun rank => (ledger.input? rank).isSome).Perm ledger.sources := by
    rw [List.perm_ext_iff_of_nodup (hnodup.filter _) ledger.nodup_sources]
    intro rank
    rw [List.mem_filter, mem_sources_iff]
    exact ⟨And.right, fun hinput => ⟨h (mem_sources_iff.2 hinput), hinput⟩⟩
  have hsplit := List.length_eq_length_filter_add (l := ranks)
    fun rank => (ledger.input? rank).isSome
  simp only [Option.not_isSome] at hsplit
  rw [hsplit, hheard.length_eq, length_sources]

theorem inputCount_le (hnodup : ranks.Nodup) (h : ledger.sources ⊆ ranks) :
    ledger.inputCount ≤ ranks.length := by
  rw [← inputCount_add_length_filter hnodup h]
  exact Nat.le_add_right _ _

/-- If only given ranks are heard, and as many of them as there are, then all of them are heard. -/
theorem sources_perm (h : ledger.sources ⊆ ranks)
    (hcount : ranks.length ≤ ledger.inputCount) : ledger.sources.Perm ranks := by
  apply (List.subperm_of_subset ledger.nodup_sources h).perm_of_length_le
  rwa [length_sources]

end MeshFormation.Ledger
