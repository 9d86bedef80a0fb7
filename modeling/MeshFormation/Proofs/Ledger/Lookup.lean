import MeshFormation.Ledger

/-!
# Who is heard and who is reached

The lists that a ledger answers, in terms of the inputs and routes of single peers, and what the
updates of a ledger do to them.
-/

namespace MeshFormation

/-- Only a direct route has one link. -/
theorem Route.linkCount_relayed_ne_one (base : Route) (last : Rank) :
    (base.relayed last).linkCount ≠ 1 := by
  cases base <;> simp [linkCount]

namespace Ledger

variable {ledger next : Ledger} {peer other : Rank} {channel : Channel} {route : Route}

def reaches (ledger : Ledger) (peer : Rank) : Bool := (ledger.entry peer).hasDirectRoute

theorem reaches_eq (ledger : Ledger) (peer : Rank) :
    ledger.reaches peer = (ledger.route? peer).any (·.linkCount == 1) := rfl

theorem reaches_iff : ledger.reaches peer = true ↔
    ∃ route, ledger.route? peer = some route ∧ route.linkCount = 1 := by
  rw [reaches_eq, Option.any_eq_true]
  simp

theorem reaches_congr (h : next.route? peer = ledger.route? peer) :
    next.reaches peer = ledger.reaches peer := by
  rw [reaches_eq, reaches_eq, h]

theorem of_reaches_recordRoute (h : (ledger.recordRoute other route).reaches peer = true) :
    ledger.reaches peer = true ∨ peer = other ∧ route.linkCount = 1 := by
  obtain ⟨found, hfound, hlink⟩ := reaches_iff.1 h
  rw [route?_recordRoute] at hfound
  split at hfound
  · rename_i heq
    subst heq
    cases hold : ledger.route? peer with
    | none =>
      obtain rfl : route = found := by simpa [hold] using hfound
      exact .inr ⟨rfl, hlink⟩
    | some first =>
      obtain rfl : first = found := by simpa [hold] using hfound
      exact .inl (reaches_iff.2 ⟨first, hold, hlink⟩)
  · exact .inl (reaches_iff.2 ⟨found, hfound, hlink⟩)

/-- A longer route reaches nobody in one hop. -/
theorem reaches_relayed (ledger : Ledger) (base : Route) (receiver other : Rank) :
    (ledger.recordRoute receiver (base.relayed receiver)).reaches other = ledger.reaches other := by
  have hlong := Route.linkCount_relayed_ne_one base receiver
  rw [reaches_eq, reaches_eq, route?_recordRoute]
  split
  · rename_i heq
    subst heq
    cases hknown : ledger.route? other with
    | none => simp [hlong]
    | some route => rfl
  · rfl

theorem exchangesDirectly_iff : ledger.exchangesDirectly peer = true ↔
    (ledger.input? peer).isSome = true ∧ ledger.reaches peer = true := by
  rw [exchangesDirectly, Connectivity.exchangesDirectly, Bool.and_eq_true]
  rfl

theorem mem_rows_of_input? (h : ledger.input? peer = some channel) :
    ∃ entry, (peer, entry) ∈ ledger.entries.rows ∧ entry.input = some channel := by
  rw [input?, Ledger.entry] at h
  cases hget : ledger.get? peer with
  | none =>
    rw [hget] at h
    exact absurd h (by simp [Connectivity.blank])
  | some entry =>
    rw [hget] at h
    exact ⟨entry, Table.get?_eq_some_iff.1 hget, h⟩

theorem entry_of_mem_rows {entry : Connectivity} (h : (peer, entry) ∈ ledger.entries.rows) :
    ledger.entry peer = entry := by
  rw [Ledger.entry, get?, Table.get?_eq_some_iff.2 h]
  rfl

theorem mem_heardOn_iff : peer ∈ ledger.heardOn channel ↔ ledger.input? peer = some channel := by
  rw [heardOn, List.mem_map]
  constructor
  · rintro ⟨⟨key, entry⟩, hmem, rfl⟩
    obtain ⟨hrow, hinput⟩ := List.mem_filter.1 hmem
    rw [input?, entry_of_mem_rows hrow]
    simpa using hinput
  · intro hinput
    obtain ⟨entry, hrow, hentry⟩ := mem_rows_of_input? hinput
    exact ⟨_, List.mem_filter.2 ⟨hrow, by simp [hentry]⟩, rfl⟩

theorem pairwise_heardOn (ledger : Ledger) (channel : Channel) :
    (ledger.heardOn channel).Pairwise (· < ·) :=
  List.pairwise_map.2 (ledger.entries.ascending.filter _)

theorem mem_directlyReached_iff : peer ∈ ledger.directlyReached ↔ ledger.reaches peer = true := by
  rw [directlyReached, List.mem_map]
  constructor
  · rintro ⟨⟨key, entry⟩, hmem, rfl⟩
    obtain ⟨hrow, hroute⟩ := List.mem_filter.1 hmem
    rw [reaches, entry_of_mem_rows hrow]
    exact hroute
  · intro hroute
    rw [reaches, Ledger.entry] at hroute
    cases hget : ledger.get? peer with
    | none =>
      rw [hget] at hroute
      exact absurd hroute (by simp [Connectivity.blank, Connectivity.hasDirectRoute])
    | some entry =>
      rw [hget] at hroute
      exact ⟨_, List.mem_filter.2 ⟨Table.get?_eq_some_iff.1 hget, hroute⟩, rfl⟩

theorem nodup_directlyReached (ledger : Ledger) : ledger.directlyReached.Nodup := by
  have hascending : ledger.directlyReached.Pairwise (· < ·) :=
    List.pairwise_map.2 (ledger.entries.ascending.filter _)
  exact hascending.imp UInt32.ne_of_lt

end Ledger

end MeshFormation
