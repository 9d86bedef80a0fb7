import MeshFormation.Layout
import MeshFormation.Proofs.Ledger.Sources
import MeshFormation.Proofs.Router.Conservation
import MeshFormation.Proofs.Router.Entries

/-!
# Entries outside the partition

The channels of a node are checked against its partition. The ranks that arriving data and reported
relays name are checked against the ensemble only. A ledger therefore stays in the partition exactly
as long as no event names a rank outside of it; then the inputs of a locked node are those of all
its peers. In a hypercube, data of another partition takes the place of a peer that is not heard.
-/

namespace MeshFormation

namespace Ledger

variable {ledger : Ledger}

theorem contains_of_mem_transfers {row : Rank × Option Channel × List Channel}
    (h : row ∈ ledger.transfers) : ledger.contains row.1 = true := by
  obtain ⟨entry, hmem, rfl⟩ := List.mem_map.1 h
  exact Table.mem_keys_iff.1 (List.mem_map_of_mem hmem)

theorem contains_of_mem_routes {row : Rank × String} (h : row ∈ ledger.routes) :
    ledger.contains row.1 = true := by
  obtain ⟨entry, hmem, hroute⟩ := List.mem_filterMap.1 h
  obtain ⟨route, -, rfl⟩ := Option.map_eq_some_iff.1 hroute
  exact Table.mem_keys_iff.1 (List.mem_map_of_mem hmem)

end Ledger

namespace Router

variable {router start : Router} {profile : Profile} {members : List Member}
  {request : ProfileRequest} {localRank : Rank} {topology : Topology}

/-- A router whose ledger stays in the partition of its node: there are entries of its peers only,
and all peers are heard once the backend is locked. -/
structure Confined (router : Router) (topology : Topology) : Prop where
  entries : ∀ {peer}, router.node.ledger.contains peer = true →
    peer ∈ topology.peers topology.localRank
  transfers : ∀ row ∈ router.snapshot.transfers, row.1 ∈ topology.peers topology.localRank
  routes : ∀ row ∈ router.snapshot.routes, row.1 ∈ topology.peers topology.localRank
  inputs : router.node.progress.locked = true →
    router.node.ledger.sources = topology.peers topology.localRank

/-- Where only peers are heard and as many inputs as there are peers have arrived, all of them
are. -/
theorem Conserved.sources_eq (h : router.Conserved topology)
    (hcount : (topology.peers topology.localRank).length = topology.receiveCount)
    (hsources : router.node.ledger.sources ⊆ topology.peers topology.localRank)
    (hrx : router.expected.rx = 0) :
    router.node.ledger.sources = topology.peers topology.localRank := by
  have hinputs := h.inputs
  rw [hrx, Nat.add_zero] at hinputs
  have hperm := Ledger.sources_perm hsources (hcount.trans hinputs.symm).le
  exact Topology.eq_of_ascending (Ledger.pairwise_sources _) (topology.pairwise_peers _)
    fun _ => hperm.mem_iff

theorem confined_of_entries (hentries : ∀ {peer}, router.node.ledger.contains peer = true →
      peer ∈ topology.peers topology.localRank)
    (hcount : (topology.peers topology.localRank).length = topology.receiveCount)
    (hconserved : router.Conserved topology) (hsettled : router.node.progress.Settled) :
    router.Confined topology := by
  constructor
  case entries => exact hentries
  case transfers => exact fun row hmem => hentries (Ledger.contains_of_mem_transfers hmem)
  case routes => exact fun row hmem => hentries (Ledger.contains_of_mem_routes hmem)
  case inputs =>
    intro hlocked
    apply hconserved.sources_eq hcount
    · exact fun peer hmem => hentries (Ledger.contains_of_mem_sources hmem)
    · exact (Expected.meshDone_iff.1 (hsettled.mesh hlocked)).1

/-- A working router is confined to its partition if and only if no arriving data and no relay of
its run named a rank outside of it. The partition of a hypercube has seven other members. -/
theorem confined_iff_run (hvalid : Topology.ofMembers members localRank request = .ok topology)
    (h : (create profile topology).2 = .ok start) (backend : Backend) (events : List Event)
    (hphase : (start.run backend events).phase ≠ .failed) :
    (profile = .hypercube → (topology.peers topology.localRank).length = 7) ∧
      ((start.run backend events).Confined topology ↔ ∀ event ∈ events, ∀ peer,
        event.named? = some peer → topology.sharePartition topology.localRank peer = true) := by
  have hmember := Topology.hasMember_localRank hvalid
  have hcount := Topology.length_peers hvalid hmember
  have hworking := working_of_phase hphase
  have hpeopled := peopled_run h backend events
  have hcounted : (start.run backend events).Counted topology :=
    run_invariant (counted_create h)
      (fun hrouter hworking hstep => hstep.counted hrouter hworking) events
  constructor
  case left =>
    intro hhypercube
    rw [hcount, Topology.receiveCount, profile_of_create h, hhypercube]
    rfl
  case right =>
    constructor
    case mp =>
      intro hconfined event hmem peer hnamed
      have hentry := (contains_iff_run h backend events hworking).2 (.inr ⟨event, hmem, hnamed⟩)
      exact (Topology.mem_peers_iff.1 (hconfined.entries hentry)).2.2
    case mpr =>
      intro hinside
      apply confined_of_entries _ hcount (hcounted.conserved hworking)
        (settled_run h backend events).progress
      intro peer hentry
      rcases (contains_iff_run h backend events hworking).1 hentry with
        ⟨channel, hbound⟩ | ⟨event, hmem, hnamed⟩
      · have hpeer := hpeopled.apart.peer hbound
        rwa [Node.rank, hpeopled.fixed] at hpeer
      · obtain ⟨hknown, hother⟩ := Topology.mem_others_iff.1 (hpeopled.others hentry)
        exact Topology.mem_peers_iff.2 ⟨hother, hknown, hinside event hmem peer hnamed⟩

/-- A node of a hypercube with a channel to each of four peers completes all its transmits and its
link, and receives the data of six peers and at last of one further rank. -/
def partitionTurns (last : Rank) : List Event :=
  [.channel ⟨1, 1, "p0-a", true⟩, .channel ⟨2, 2, "p0-a", true⟩, .channel ⟨3, 3, "p0-a", true⟩,
    .channel ⟨4, 4, "p0-b", true⟩, .connection ⟨.rx, 1, 1, true⟩, .connection ⟨.rx, 2, 2, true⟩,
    .connection ⟨.rx, 3, 3, true⟩, .connection ⟨.rx, 4, 4, true⟩, .connection ⟨.tx, 1, 0, true⟩,
    .connection ⟨.tx, 2, 0, true⟩, .connection ⟨.tx, 3, 0, true⟩, .connection ⟨.tx, 4, 0, true⟩,
    .connection ⟨.tx, 1, 4, true⟩, .connection ⟨.tx, 2, 4, true⟩, .connection ⟨.tx, 3, 4, true⟩,
    .connection ⟨.rx, 1, 5, true⟩, .connection ⟨.rx, 2, 6, true⟩, .network ⟨8, true⟩,
    .connection ⟨.rx, 3, last, true⟩]

theorem confined_iff_run_sixteen : ∃ topology start,
    Topology.ofMembers (Layout.members 16) 0 .auto = .ok topology ∧
      (create .hypercube topology).2 = .ok start ∧
        (start.run .accepting (partitionTurns 7)).phase = .ready ∧
        topology.peers 0 = [1, 2, 3, 4, 5, 6, 7] ∧
        (start.run .accepting (partitionTurns 7)).Confined topology := by
  obtain ⟨topology, start, hvalid, hcreate, hready, hlocal, hpeers, hinside⟩ : ∃ topology start,
      Topology.ofMembers (Layout.members 16) 0 .auto = .ok topology ∧
        (create .hypercube topology).2 = .ok start ∧
          (start.run .accepting (partitionTurns 7)).phase = .ready ∧
          start.node.topology.localRank = 0 ∧
          start.node.topology.peers 0 = [1, 2, 3, 4, 5, 6, 7] ∧
          ((partitionTurns 7).all fun event =>
            event.named?.all (start.node.topology.sharePartition 0)) = true :=
    exists_created (by decide +kernel)
  have htopology : start.node.topology = topology := topology_run hcreate .accepting []
  rw [htopology] at hlocal hpeers hinside
  have hphase : (start.run .accepting (partitionTurns 7)).phase ≠ .failed := by simp [hready]
  refine ⟨topology, start, hvalid, hcreate, hready, hpeers, ?_⟩
  refine (confined_iff_run hvalid hcreate .accepting (partitionTurns 7) hphase).2.2 ?_
  intro event hmem peer hnamed
  have hshares := List.all_eq_true.1 hinside event hmem
  rw [hnamed] at hshares
  rw [hlocal]
  exact hshares

/-- The data of rank 8, which is in the other partition, counts as the input of rank 7. The node is
ready and never hears that peer. -/
theorem not_confined_run_sixteen : ∃ topology start,
    Topology.ofMembers (Layout.members 16) 0 .auto = .ok topology ∧
      (create .hypercube topology).2 = .ok start ∧
        (start.run .accepting (partitionTurns 8)).phase = .ready ∧
        (start.run .accepting (partitionTurns 8)).node.progress.locked = true ∧
        (start.run .accepting (partitionTurns 8)).node.ledger.sources = [1, 2, 3, 4, 5, 6, 8] ∧
        topology.sharePartition 0 8 = false ∧
        ¬(start.run .accepting (partitionTurns 8)).Confined topology := by
  obtain ⟨topology, start, hvalid, hcreate, hready, hlocked, hsources, hpartition, hpeers⟩ :
      ∃ topology start, Topology.ofMembers (Layout.members 16) 0 .auto = .ok topology ∧
        (create .hypercube topology).2 = .ok start ∧
          (start.run .accepting (partitionTurns 8)).phase = .ready ∧
          (start.run .accepting (partitionTurns 8)).node.progress.locked = true ∧
          (start.run .accepting (partitionTurns 8)).node.ledger.sources = [1, 2, 3, 4, 5, 6, 8] ∧
          start.node.topology.sharePartition 0 8 = false ∧
          start.node.topology.peers start.node.topology.localRank = [1, 2, 3, 4, 5, 6, 7] :=
    exists_created (by decide +kernel)
  have htopology : start.node.topology = topology := topology_run hcreate .accepting []
  rw [htopology] at hpartition hpeers
  refine ⟨topology, start, hvalid, hcreate, hready, hlocked, hsources, hpartition, ?_⟩
  intro hconfined
  have hsame := hconfined.inputs hlocked
  rw [hsources, hpeers] at hsame
  exact absurd hsame (by decide)

end Router

end MeshFormation
