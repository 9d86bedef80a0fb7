import MeshFormation.Route
import Mathlib.Data.List.Chain

/-!
# Routes along a relation are unique

Let every node but the origin be led to from at most one node, and the origin from none. Then there
is at most one route from the origin to a node that follows the relation, and it visits no node
twice.
-/

namespace MeshFormation.Route

variable {Leads : Rank → Rank → Prop} {route other : Route} {origin : Rank}

/-- No node is led to from two nodes, and the origin from none. -/
structure Rooted (Leads : Rank → Rank → Prop) (origin : Rank) : Prop where
  unique : ∀ {first second far}, Leads first far → Leads second far → first = second
  root : ∀ near, ¬ Leads near origin

theorem isChain_relayed_iff {base : Route} {destination : Rank} :
    (relayed base destination).hops.IsChain Leads ↔
      base.hops.IsChain Leads ∧ Leads base.destination destination := by
  rw [hops, List.isChain_append]
  constructor
  · rintro ⟨hbase, -, hlast⟩
    exact ⟨hbase, hlast _ (by rw [getLast?_hops]; rfl) _ rfl⟩
  · rintro ⟨hbase, hleads⟩
    refine ⟨hbase, .singleton _, fun last hlast first hfirst => ?_⟩
    rw [getLast?_hops] at hlast
    obtain rfl := Option.some.inj hlast
    obtain rfl := Option.some.inj hfirst
    exact hleads

theorem exists_leads (h : route.hops.IsChain Leads) : ∃ near, Leads near route.destination := by
  cases route with
  | direct first last => exact ⟨first, List.isChain_pair.1 h⟩
  | relayed base last => exact ⟨base.destination, (isChain_relayed_iff.1 h).2⟩

theorem eq_of_isChain (hrooted : Rooted Leads origin) (h : route.hops.IsChain Leads)
    (horigin : route.origin = origin) (h' : other.hops.IsChain Leads)
    (horigin' : other.origin = origin) (hsame : route.destination = other.destination) :
    route = other := by
  induction route generalizing other with
  | direct first last =>
    obtain rfl : first = origin := horigin
    cases other with
    | direct first' last' =>
      obtain rfl : first' = first := horigin'
      obtain rfl : last = last' := hsame
      rfl
    | relayed base last' =>
      obtain rfl : last = last' := hsame
      obtain ⟨hbase, hleads⟩ := isChain_relayed_iff.1 h'
      obtain ⟨near, hnear⟩ := exists_leads hbase
      rw [← hrooted.unique (List.isChain_pair.1 h) hleads] at hnear
      exact absurd hnear (hrooted.root near)
  | relayed base last ih =>
    obtain ⟨hbase, hleads⟩ := isChain_relayed_iff.1 h
    cases other with
    | direct first' last' =>
      obtain rfl : first' = origin := horigin'
      obtain rfl : last = last' := hsame
      obtain ⟨near, hnear⟩ := exists_leads hbase
      rw [hrooted.unique hleads (List.isChain_pair.1 h')] at hnear
      exact absurd hnear (hrooted.root near)
    | relayed base' last' =>
      obtain rfl : last = last' := hsame
      obtain ⟨hbase', hleads'⟩ := isChain_relayed_iff.1 h'
      rw [ih hbase horigin hbase' horigin' (hrooted.unique hleads hleads')]

/-- Every hop after the first one is the end of a route that is no longer. -/
theorem exists_start (h : route.hops.IsChain Leads) {hop : Rank} (hmem : hop ∈ route.hops) :
    hop = route.origin ∨ ∃ start : Route, start.origin = route.origin ∧
      start.destination = hop ∧ start.hops.IsChain Leads ∧ start.linkCount ≤ route.linkCount := by
  induction route with
  | direct first last =>
    rcases List.mem_pair.1 hmem with rfl | rfl
    · exact .inl rfl
    · exact .inr ⟨_, rfl, rfl, h, Nat.le_refl _⟩
  | relayed base last ih =>
    obtain ⟨hbase, hleads⟩ := isChain_relayed_iff.1 h
    rcases List.mem_append.1 hmem with hmem | hmem
    · rcases ih hbase hmem with horigin | ⟨start, horigin, hend, hchain, hlength⟩
      · exact .inl horigin
      · exact .inr ⟨start, horigin, hend, hchain, Nat.le_succ_of_le hlength⟩
    · obtain rfl := List.mem_singleton.1 hmem
      exact .inr ⟨_, rfl, rfl, h, Nat.le_refl _⟩

theorem nodup_of_isChain (hrooted : Rooted Leads origin) (h : route.hops.IsChain Leads)
    (horigin : route.origin = origin) : route.hops.Nodup := by
  induction route with
  | direct first last =>
    obtain rfl : first = origin := horigin
    have hleads := List.isChain_pair.1 h
    rw [hops, List.nodup_cons, List.mem_singleton]
    refine ⟨?_, by simp⟩
    rintro rfl
    exact hrooted.root _ hleads
  | relayed base last ih =>
    obtain ⟨hbase, hleads⟩ := isChain_relayed_iff.1 h
    rw [hops, List.nodup_append]
    refine ⟨ih hbase horigin, by simp, fun hop hmem other hother heq => ?_⟩
    obtain rfl := List.mem_singleton.1 hother
    subst heq
    rcases exists_start hbase hmem with hroot | ⟨start, horigin', hend, hchain, hlength⟩
    · have hbaseOrigin : base.origin = origin := horigin
      rw [hroot, hbaseOrigin] at hleads
      exact hrooted.root _ hleads
    · have hsame := eq_of_isChain hrooted hchain (horigin'.trans horigin) h horigin hend
      rw [hsame] at hlength
      exact absurd hlength (by simp [linkCount])

/-- A rooted route is sound for its origin and its end. -/
theorem fault?_of_isChain (hrooted : Rooted Leads origin) (h : route.hops.IsChain Leads)
    (horigin : route.origin = origin) : route.fault? origin route.destination = none :=
  fault?_eq_none_iff.2 ⟨horigin, rfl, nodup_of_isChain hrooted h horigin⟩

end MeshFormation.Route
