import MeshFormation.Ledger
import Mathlib.Algebra.GroupWithZero.Nat

/-!
# How much a ledger holds

The inputs and the outputs that a ledger holds are sums over its entries. A write replaces one
entry, so it changes such a sum by what the entry gains.
-/

namespace MeshFormation

namespace Table

variable {α : Type}

/-- Putting a row into its place takes the weight of the row that it replaces. -/
theorem sum_insertRow (weight : α → Nat) (key : UInt32) (value : α) {rows : List (UInt32 × α)}
    (h : rows.Pairwise (fun a b => a.1 < b.1)) :
    ((insertRow key value rows).map fun row => weight row.2).sum +
        ((rows.lookup key).map weight).getD 0 =
      (rows.map fun row => weight row.2).sum + weight value := by
  induction rows with
  | nil => simp [insertRow]
  | cons head rest ih =>
    obtain ⟨hhead, hrest⟩ := List.pairwise_cons.1 h
    rw [insertRow, lookup_row]
    split
    · rename_i hlt
      have hnone := lookup_eq_none_of_le (UInt32.le_of_lt hlt) hhead
      have hne : key ≠ head.1 := UInt32.ne_of_lt hlt
      simp only [hnone, if_neg hne, List.map_cons, List.sum_cons, Option.map_none,
        Option.getD_none]
      omega
    · split
      · rename_i heq
        simp only [List.map_cons, List.sum_cons, Option.map_some, Option.getD_some]
        omega
      · have htail := ih hrest
        simp only [List.map_cons, List.sum_cons]
        omega

end Table

namespace Ledger

variable {ledger next : Ledger} {peer : Rank} {channel : Channel}

/-- The sum of a weight over all entries. -/
def total (ledger : Ledger) (weight : Connectivity → Nat) : Nat :=
  (ledger.entries.values.map weight).sum

/-- The number of peers with an input channel. -/
def inputCount (ledger : Ledger) : Nat := ledger.entries.values.countP (·.input.isSome)

/-- The number of output channels of all peers together. -/
def outputCount (ledger : Ledger) : Nat := ledger.total (·.outputs.length)

theorem inputCount_eq (ledger : Ledger) :
    ledger.inputCount = ledger.total fun entry => if entry.input.isSome then 1 else 0 := by
  rw [inputCount, total]
  induction ledger.entries.values with
  | nil => rfl
  | cons entry rest ih =>
    rw [List.countP_cons, ih, List.map_cons, List.sum_cons, Nat.add_comm]

/-- A weight that a blank entry does not have grows by what an entry gains. -/
theorem total_put (weight : Connectivity → Nat) (hblank : weight .blank = 0) (ledger : Ledger)
    (peer : Rank) (entry : Connectivity) :
    (ledger.put peer entry).total weight + weight (ledger.entry peer) =
      ledger.total weight + weight entry := by
  have hsum := Table.sum_insertRow weight peer entry ledger.entries.ascending
  have hentry : weight (ledger.entry peer) =
      ((ledger.entries.rows.lookup peer).map weight).getD 0 := by
    rw [Ledger.entry, get?, Table.get?]
    cases ledger.entries.rows.lookup peer with
    | none => exact hblank
    | some entry => rfl
  rw [hentry, total, total, Table.values, Table.values, List.map_map, List.map_map]
  exact hsum

theorem total_track (weight : Connectivity → Nat) (hblank : weight .blank = 0) (ledger : Ledger)
    (peer : Rank) : (ledger.track peer).total weight = ledger.total weight :=
  Nat.add_right_cancel (total_put weight hblank ledger peer _)

@[simp] theorem inputCount_track (ledger : Ledger) (peer : Rank) :
    (ledger.track peer).inputCount = ledger.inputCount := by
  rw [inputCount_eq, inputCount_eq, total_track _ rfl]

@[simp] theorem outputCount_track (ledger : Ledger) (peer : Rank) :
    (ledger.track peer).outputCount = ledger.outputCount :=
  total_track _ rfl ledger peer

@[simp] theorem inputCount_recordRoute (ledger : Ledger) (peer : Rank) (route : Route) :
    (ledger.recordRoute peer route).inputCount = ledger.inputCount := by
  rw [inputCount_eq, inputCount_eq]
  exact Nat.add_right_cancel (total_put _ rfl ledger peer _)

@[simp] theorem outputCount_recordRoute (ledger : Ledger) (peer : Rank) (route : Route) :
    (ledger.recordRoute peer route).outputCount = ledger.outputCount :=
  Nat.add_right_cancel (total_put (·.outputs.length) rfl ledger peer _)

@[simp] theorem inputCount_recordOutput (ledger : Ledger) (peer : Rank) (channel : Channel) :
    (ledger.recordOutput peer channel).inputCount = ledger.inputCount := by
  rw [inputCount_eq, inputCount_eq]
  exact Nat.add_right_cancel (total_put _ rfl ledger peer _)

@[simp] theorem outputCount_recordOutput (ledger : Ledger) (peer : Rank) (channel : Channel) :
    (ledger.recordOutput peer channel).outputCount = ledger.outputCount + 1 := by
  have hput := total_put (·.outputs.length) rfl ledger peer
    { ledger.entry peer with outputs := (ledger.entry peer).outputs ++ [channel] }
  simp only [List.length_append, List.length_singleton] at hput
  rw [recordOutput, outputCount, outputCount]
  omega

theorem counts_of_recordInput (h : ledger.recordInput peer channel = .ok next) :
    next.inputCount = ledger.inputCount + 1 ∧ next.outputCount = ledger.outputCount := by
  obtain ⟨hnone, rfl⟩ := recordInput_eq_ok_iff.1 h
  rw [input?] at hnone
  constructor
  · have hput := total_put (fun entry => if entry.input.isSome then 1 else 0) rfl ledger peer
      { ledger.entry peer with input := some channel }
    simp only [hnone, Option.isSome_none, Option.isSome_some, Bool.false_eq_true, if_false,
      if_true] at hput
    rw [inputCount_eq, inputCount_eq]
    omega
  · exact Nat.add_right_cancel (total_put (·.outputs.length) rfl ledger peer _)

end Ledger

end MeshFormation
