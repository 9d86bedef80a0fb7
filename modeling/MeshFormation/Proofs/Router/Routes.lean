import MeshFormation.Layout
import MeshFormation.Proofs.Router.Writes

/-!
# The routes of a node form a tree

A node stores two kinds of routes: direct ones, to the peers that it transmits to, and longer ones,
each an extension of a route that is stored already. As the first route to a peer stays, no
extension loses the route that it grew from. The stored routes are therefore a tree, with the node
itself as its root.
-/

namespace MeshFormation

namespace Ledger

variable {ledger next : Ledger} {topology : Topology} {peer : Rank} {route : Route}

/-- Every stored route is sound and stays among the members, and one that was learned from a forward
extends the route that is stored for the forwarder. -/
structure Rooted (ledger : Ledger) (topology : Topology) : Prop where
  sound : ∀ {peer route}, ledger.route? peer = some route →
    route.fault? topology.localRank peer = none
  members : ∀ {peer route}, ledger.route? peer = some route →
    ∀ rank ∈ route.hops, topology.hasMember rank = true
  base : ∀ {peer base last}, ledger.route? peer = some (.relayed base last) →
    ledger.route? base.destination = some base

namespace Rooted

theorem congr (h : ledger.Rooted topology) (hsame : ∀ peer, next.route? peer = ledger.route? peer) :
    next.Rooted topology := by
  constructor
  case sound =>
    intro peer route hroute
    exact h.sound ((hsame peer).symm.trans hroute)
  case members =>
    intro peer route hroute
    exact h.members ((hsame peer).symm.trans hroute)
  case base =>
    intro peer base last hroute
    exact (hsame _).trans (h.base ((hsame peer).symm.trans hroute))

/-- A new route may be stored if it is sound, and if the route that it extends is stored before. -/
theorem recordRoute (h : ledger.Rooted topology)
    (hsound : route.fault? topology.localRank peer = none)
    (hmembers : ∀ rank ∈ route.hops, topology.hasMember rank = true)
    (hbase : ∀ base last, route = .relayed base last → ledger.route? base.destination = some base) :
    (ledger.recordRoute peer route).Rooted topology := by
  have hcases : ∀ {other known}, (ledger.recordRoute peer route).route? other = some known →
      ledger.route? other = some known ∨ other = peer ∧ known = route := by
    intro other known hknown
    rw [route?_recordRoute] at hknown
    split at hknown
    · rename_i heq
      subst heq
      cases hold : ledger.route? other with
      | none => exact .inr ⟨rfl, by simpa [hold, eq_comm] using hknown⟩
      | some first => exact .inl (by simpa [hold] using hknown)
    · exact .inl hknown
  have hgrows := grows_recordRoute ledger peer route
  constructor
  case sound =>
    intro other known hknown
    rcases hcases hknown with hold | ⟨rfl, rfl⟩
    · exact h.sound hold
    · exact hsound
  case members =>
    intro other known hknown
    rcases hcases hknown with hold | ⟨rfl, rfl⟩
    · exact h.members hold
    · exact hmembers
  case base =>
    intro other base last hknown
    rcases hcases hknown with hold | ⟨rfl, hnew⟩
    · exact hgrows.route (h.base hold)
    · exact hgrows.route (hbase base last hnew.symm)

theorem empty (topology : Topology) : Ledger.empty.Rooted topology := by
  have hnone : ∀ peer, Ledger.empty.route? peer = none := fun _ => rfl
  constructor
  case sound => exact fun hroute => absurd hroute (by simp [hnone])
  case members => exact fun hroute => absurd hroute (by simp [hnone])
  case base => exact fun hroute => absurd hroute (by simp [hnone])

end Rooted

/-- The routes of a ledger form a tree of simple paths of members, rooted at the local rank: a route
of more than one hop is the route that is stored for the rank before its end, extended by that
end. -/
structure FormsTree (ledger : Ledger) (topology : Topology) : Prop where
  origin : ∀ {peer route}, ledger.route? peer = some route →
    route.hops.head? = some topology.localRank
  destination : ∀ {peer route}, ledger.route? peer = some route →
    route.hops.getLast? = some peer
  simple : ∀ {peer route}, ledger.route? peer = some route → route.hops.Nodup
  members : ∀ {peer route}, ledger.route? peer = some route →
    ∀ rank ∈ route.hops, topology.hasMember rank = true
  parent : ∀ {peer route}, ledger.route? peer = some route → 1 < route.linkCount →
    ∃ before base, route.hops.dropLast.getLast? = some before ∧
      ledger.route? before = some base ∧ base.hops = route.hops.dropLast

theorem Rooted.formsTree (h : ledger.Rooted topology) : ledger.FormsTree topology := by
  constructor
  case origin =>
    intro peer route hroute
    rw [Route.head?_hops, (Route.fault?_eq_none_iff.1 (h.sound hroute)).1]
  case destination =>
    intro peer route hroute
    rw [Route.getLast?_hops, (Route.fault?_eq_none_iff.1 (h.sound hroute)).2.1]
  case simple => exact fun hroute => (Route.fault?_eq_none_iff.1 (h.sound hroute)).2.2
  case members => exact h.members
  case parent =>
    intro peer route hroute hlong
    cases route with
    | direct origin destination => exact absurd hlong (by simp [Route.linkCount])
    | relayed base last =>
      have hshort : (Route.relayed base last).hops.dropLast = base.hops := by
        simp [Route.hops]
      refine ⟨base.destination, base, ?_, h.base hroute, hshort.symm⟩
      rw [hshort, Route.getLast?_hops]

end Ledger

namespace Node

variable {node : Node} {topology : Topology} {direction : Direction} {channel : Channel}
  {source bound : Rank} {ledger : Ledger}

/-- A completed connection stores no route but a direct one to the peer bound to its channel. -/
theorem rooted_of_ledgerAfter (h : node.ledger.Rooted topology)
    (htopology : node.topology = topology) (hbound : topology.hasMember bound = true)
    (hledger : node.ledgerAfter direction channel source = .ok (bound, ledger)) :
    ledger.Rooted topology := by
  cases direction with
  | rx =>
    obtain ⟨-, -, -, hrecord⟩ := ledgerAfter_rx_eq_ok hledger
    exact h.congr (Ledger.of_recordInput hrecord).2.2
  | tx =>
    obtain ⟨-, hsource, hother, rfl⟩ := ledgerAfter_tx_eq_ok hledger
    have houtput : (node.ledger.recordOutput bound channel).Rooted topology :=
      h.congr (by simp)
    split
    · rename_i hown
      have hlocal : source = topology.localRank := by rw [hown, rank, htopology]
      rw [htopology] at hsource
      apply houtput.recordRoute
      · apply Route.fault?_eq_none_iff.2
        exact ⟨hlocal, rfl, by simpa [Route.hops] using hother⟩
      · intro rank hmem
        have hends : rank = source ∨ rank = bound := by simpa [Route.hops] using hmem
        rcases hends with rfl | rfl
        · exact hsource
        · exact hbound
      · exact fun _ _ hrelayed => absurd hrelayed (by simp)
    · exact houtput

end Node

namespace Router

variable {router next start : Router} {backend : Backend} {event : Event}
  {result : Except RouterError Outbox} {profile : Profile} {topology : Topology}

/-- A node whose bound peers are members and whose routes form a tree. -/
structure Routed (router : Router) (topology : Topology) : Prop where
  fixed : router.node.topology = topology
  bound : ∀ {channel peer}, router.node.boundPeer? channel = some peer →
    topology.hasMember peer = true
  rooted : router.node.ledger.Rooted topology

theorem Writes.routed {node : Node} (h : router.Writes event node)
    (hrouter : router.Routed topology) :
    (∀ {channel peer}, node.boundPeer? channel = some peer → topology.hasMember peer = true) ∧
      node.ledger.Rooted topology := by
  cases h with
  | counts => exact ⟨hrouter.bound, hrouter.rooted⟩
  | @binds known admits =>
    constructor
    · intro channel peer hbound
      rw [Node.boundPeer?, Node.bind, Table.get?_insert] at hbound
      split at hbound
      · obtain rfl := Option.some.inj hbound
        rw [← hrouter.fixed]
        exact hasMember_of_screening_fresh admits.fresh
      · exact hrouter.bound hbound
    · exact hrouter.rooted.congr (by simp [Node.bind])
  | unbinds =>
    constructor
    · intro channel peer hbound
      rw [Node.boundPeer?, Table.get?_erase] at hbound
      split at hbound
      · exact absurd hbound (by simp)
      · exact hrouter.bound hbound
    · exact hrouter.rooted
  | @records direction channel source bound ledger progress phase recorded =>
    refine ⟨hrouter.bound, Node.rooted_of_ledgerAfter hrouter.rooted hrouter.fixed ?_ recorded⟩
    cases direction with
    | rx => exact hrouter.bound (Node.ledgerAfter_rx_eq_ok recorded).1
    | tx => exact hrouter.bound (Node.ledgerAfter_tx_eq_ok recorded).1
  | @learns forwarder receiver base receiving known sound =>
    refine ⟨hrouter.bound, hrouter.rooted.recordRoute ?_ ?_ ?_⟩
    · rwa [rank, Node.rank, hrouter.fixed] at sound
    · intro rank hmem
      rcases List.mem_append.1 hmem with hmem | hmem
      · exact hrouter.rooted.members known rank hmem
      · rw [List.mem_singleton.1 hmem, ← hrouter.fixed]
        exact receiving
    · rintro _ _ ⟨⟩
      have hend := (Route.fault?_eq_none_iff.1 (hrouter.rooted.sound known)).2.1
      rw [hend]
      exact known

theorem Step.routed (hrouter : router.Routed topology) (h : router.Step backend event next result) :
    next.Routed topology := by
  obtain ⟨node, hwrites, hadvances⟩ := h.writes
  obtain ⟨hbound, hrooted⟩ := hwrites.routed hrouter
  constructor
  case fixed => exact h.topology_eq.trans hrouter.fixed
  case bound =>
    intro channel peer hpeer
    rw [Node.boundPeer?, hadvances.bindings] at hpeer
    exact hbound hpeer
  case rooted =>
    rw [hadvances.ledger]
    exact hrooted

theorem routed_create (h : (create profile topology).2 = .ok start) : start.Routed topology := by
  obtain ⟨-, hosts, hnode⟩ := create_eq_ok h
  constructor
  case fixed => exact topology_run h .accepting []
  case bound =>
    rw [hnode]
    exact fun hpeer => absurd hpeer (by simp [Node.start, Node.boundPeer?])
  case rooted =>
    rw [hnode]
    exact .empty topology

/-- In every state that a router reaches, failed or not, its routes form a tree, whatever forwards
it was sent. -/
theorem formsTree_run (h : (create profile topology).2 = .ok start) (backend : Backend)
    (events : List Event) : (start.run backend events).node.ledger.FormsTree topology := by
  have hrouted : (start.run backend events).Routed topology :=
    run_invariant (routed_create h) (fun hrouter _ hstep => hstep.routed hrouter) events
  exact hrouted.rooted.formsTree

theorem formsTree_run_eight : ∃ topology start,
    Topology.ofMembers (Layout.members 8) 0 .auto = .ok topology ∧
      (create .cube topology).2 = .ok start ∧
        (start.run .accepting [.channel ⟨1, 1, "p0-a", true⟩, .connection ⟨.tx, 1, 0, true⟩,
          .forward 1 5, .forward 5 4]).node.ledger.route? 4 =
            some (((Route.direct 0 1).relayed 5).relayed 4) ∧
        (start.run .accepting [.channel ⟨1, 1, "p0-a", true⟩, .connection ⟨.tx, 1, 0, true⟩,
          .forward 1 5, .forward 5 4]).node.ledger.FormsTree topology := by
  obtain ⟨topology, start, hvalid, hcreate, hroute⟩ : ∃ topology start,
      Topology.ofMembers (Layout.members 8) 0 .auto = .ok topology ∧
        (create .cube topology).2 = .ok start ∧
          (start.run .accepting [.channel ⟨1, 1, "p0-a", true⟩, .connection ⟨.tx, 1, 0, true⟩,
            .forward 1 5, .forward 5 4]).node.ledger.route? 4 =
              some (((Route.direct 0 1).relayed 5).relayed 4) :=
    exists_created (by decide +kernel)
  exact ⟨topology, start, hvalid, hcreate, hroute, formsTree_run hcreate _ _⟩

end Router

end MeshFormation
