import MeshFormation.Proofs.Router.Bindings

/-!
# Who has a ledger entry

A ledger entry comes from a channel that is bound, from data that arrives, or from a relay that a
peer reports. The last two name a rank themselves, and all that is asked of it is that it is another
member. The entries of a working router are therefore those of its bound peers and of the ranks that
the events of its run have named.
-/

namespace MeshFormation

/-- The rank whose entry an event makes without a channel to it: the source of data that arrives, or
the receiver of a relay. -/
def Event.named? : Event → Option Rank
  | .connection ⟨.rx, _, source, true⟩ => some source
  | .forward _ receiver => some receiver
  | _ => none

/-- A route that extends another one soundly ends at a rank other than its origin. -/
theorem Route.ne_of_fault?_relayed {base : Route} {localRank receiver : Rank}
    (h : (base.relayed receiver).fault? localRank receiver = none) : receiver ≠ localRank := by
  obtain ⟨horigin, -, hnodup⟩ := fault?_eq_none_iff.1 h
  rintro rfl
  have hfirst : receiver ∈ base.hops := by
    apply List.mem_of_head? (l := base.hops)
    rw [head?_hops]
    exact congrArg some horigin
  have hdisjoint := (List.nodup_append.1 hnodup).2.2 receiver hfirst receiver List.mem_cons_self
  exact hdisjoint rfl

namespace Router

variable {router next start : Router} {backend : Backend} {event : Event}
  {result : Except RouterError Outbox} {profile : Profile} {topology : Topology} {peer : Rank}

/-! ## One event -/

/-- A new entry belongs to a bound peer, or to another member that the event names. -/
theorem Writes.entry {node : Node} (h : router.Writes event node)
    (hentry : node.ledger.contains peer = true) : router.node.ledger.contains peer = true ∨
      (∃ channel, node.boundPeer? channel = some peer) ∨ event.named? = some peer ∧
        router.node.topology.hasMember peer = true ∧ peer ≠ router.rank := by
  cases h with
  | counts | unbinds => exact .inl hentry
  | @binds known admits =>
    rcases Ledger.contains_put.1 hentry with rfl | hold
    · refine .inr (.inl ⟨known.channel, ?_⟩)
      rw [Node.boundPeer?_bind, if_pos rfl]
    · exact .inl hold
  | @records direction channel source bound ledger progress phase recorded =>
    cases direction with
    | rx =>
      obtain ⟨-, hmember, hother, hrecord⟩ := Node.ledgerAfter_rx_eq_ok recorded
      obtain ⟨-, rfl⟩ := Ledger.recordInput_eq_ok_iff.1 hrecord
      rcases Ledger.contains_put.1 hentry with rfl | hold
      · exact .inr (.inr ⟨rfl, hmember, hother⟩)
      · exact .inl hold
    | tx =>
      obtain ⟨hbound, -, -, rfl⟩ := Node.ledgerAfter_tx_eq_ok recorded
      have houtput : ∀ {peer},
          (router.node.ledger.recordOutput bound channel).contains peer = true →
            peer = bound ∨ router.node.ledger.contains peer = true := Ledger.contains_put.1
      have hcases : peer = bound ∨ router.node.ledger.contains peer = true := by
        dsimp only at hentry
        split at hentry
        · exact (Ledger.contains_put.1 hentry).elim .inl houtput
        · exact houtput hentry
      rcases hcases with rfl | hold
      · exact .inr (.inl ⟨channel, hbound⟩)
      · exact .inl hold
  | @learns forwarder receiver base receiving known sound =>
    rcases Ledger.contains_put.1 hentry with rfl | hold
    · exact .inr (.inr ⟨rfl, receiving, Route.ne_of_fault?_relayed sound⟩)
    · exact .inl hold

theorem Writes.contains_mono {node : Node} (h : router.Writes event node)
    (hentry : router.node.ledger.contains peer = true) : node.ledger.contains peer = true := by
  cases h with
  | counts | unbinds => exact hentry
  | binds | learns => exact Ledger.contains_put.2 (.inr hentry)
  | records phase recorded => exact Node.contains_of_ledgerAfter recorded hentry

theorem Step.entry (h : router.Step backend event next result)
    (hentry : next.node.ledger.contains peer = true) : router.node.ledger.contains peer = true ∨
      (∃ channel, next.node.boundPeer? channel = some peer) ∨ event.named? = some peer ∧
        router.node.topology.hasMember peer = true ∧ peer ≠ router.rank := by
  obtain ⟨node, hwrites, hadvances⟩ := h.writes
  rw [hadvances.ledger] at hentry
  simp only [Node.boundPeer?, hadvances.bindings]
  exact hwrites.entry hentry

/-- Entries stay. -/
theorem Step.contains_mono (h : router.Step backend event next result)
    (hentry : router.node.ledger.contains peer = true) : next.node.ledger.contains peer = true := by
  obtain ⟨node, hwrites, hadvances⟩ := h.writes
  rw [hadvances.ledger]
  exact hwrites.contains_mono hentry

/-- The rank that an event names has an entry after it, if the router goes on to work. -/
theorem Step.contains_of_named (h : router.Step backend event next result)
    (hnext : next.node.isFailed = false) (hnamed : event.named? = some peer) :
    next.node.ledger.contains peer = true := by
  cases h with
  | unheard | unlinked | repeated | free | live | rejected | unestablished | bound | linked =>
    exact absurd hnamed (by simp [Event.named?])
  | lost | broken | violated | surplus | surplusLink => exact absurd hnext (by simp)
  | absorbed absorbs =>
    rw [(advances_proceed _ backend).ledger]
    cases absorbs with
    | @receive channel source bound ledger progress recorded counted =>
      obtain rfl := Option.some.inj hnamed
      obtain ⟨-, -, -, hrecord⟩ := Node.ledgerAfter_rx_eq_ok recorded
      obtain ⟨-, rfl⟩ := Ledger.recordInput_eq_ok_iff.1 hrecord
      exact Ledger.contains_put.2 (.inl rfl)
    | @forward forwarder receiver base other forwarding receiving known sound =>
      obtain rfl := Option.some.inj hnamed
      exact Ledger.contains_put.2 (.inl rfl)
    | transmit | announce => exact absurd hnamed (by simp [Event.named?])

/-! ## Runs -/

theorem contains_create (h : (create profile topology).2 = .ok start) :
    start.node.ledger.contains peer = false := by
  obtain ⟨-, hosts, hnode⟩ := create_eq_ok h
  rw [hnode]
  rfl

/-- A router whose entries are those of other members. -/
structure Peopled (router : Router) (topology : Topology) : Prop extends Attached router where
  fixed : router.node.topology = topology
  others : ∀ {peer}, router.node.ledger.contains peer = true → peer ∈ topology.others

theorem Step.peopled (hrouter : router.Peopled topology) (hworking : router.node.isFailed = false)
    (h : router.Step backend event next result) : next.Peopled topology := by
  have hattached := h.attached hrouter.toAttached hworking
  have hsame := h.topology_eq.trans hrouter.fixed
  refine ⟨hattached, hsame, fun {peer} hentry => ?_⟩
  rcases h.entry hentry with hold | ⟨channel, hbound⟩ | ⟨-, hmember, hother⟩
  · exact hrouter.others hold
  · obtain ⟨hother, hmember, -⟩ := Topology.mem_peers_iff.1 (hattached.apart.peer hbound)
    rw [Node.rank, hsame] at hother
    rw [hsame] at hmember
    exact Topology.mem_others_iff.2 ⟨hmember, hother⟩
  · rw [rank, Node.rank, hrouter.fixed] at hother
    rw [hrouter.fixed] at hmember
    exact Topology.mem_others_iff.2 ⟨hmember, hother⟩

/-- Only other members have entries, also after a failure. -/
theorem peopled_run (h : (create profile topology).2 = .ok start) (backend : Backend)
    (events : List Event) : (start.run backend events).Peopled topology := by
  have hstart : start.Peopled topology := by
    refine ⟨attached_create h, topology_run h backend [], fun hentry => ?_⟩
    exact absurd ((contains_create h).symm.trans hentry) (by simp)
  exact run_invariant hstart (fun hrouter hworking hstep => hstep.peopled hrouter hworking) events

/-- After an event that a router survives, its entries are still those of its bound peers and of the
ranks that were named, if they were before. -/
theorem Step.contains_iff {before : List Event} (h : router.Step backend event next result)
    (hnext : next.node.isFailed = false) (htracks : next.node.Tracks)
    (hrouter : router.node.ledger.contains peer = true ↔
      (∃ channel, router.node.boundPeer? channel = some peer) ∨
        ∃ past ∈ before, past.named? = some peer) :
    next.node.ledger.contains peer = true ↔
      (∃ channel, next.node.boundPeer? channel = some peer) ∨
        ∃ past ∈ before ++ [event], past.named? = some peer := by
  constructor
  · intro hentry
    rcases h.entry hentry with hold | hbound | ⟨hnamed, -⟩
    · rcases hrouter.1 hold with ⟨channel, hbound⟩ | ⟨past, hmem, hnamed⟩
      · exact .inl ⟨channel, h.boundPeer?_mono hnext hbound⟩
      · exact .inr ⟨past, List.mem_append_left _ hmem, hnamed⟩
    · exact .inl hbound
    · exact .inr ⟨event, List.mem_append_right _ List.mem_cons_self, hnamed⟩
  · rintro (⟨channel, hbound⟩ | ⟨past, hmem, hnamed⟩)
    · exact htracks.entry hbound
    · rcases List.mem_append.1 hmem with hmem | hmem
      · exact h.contains_mono (hrouter.2 (.inr ⟨past, hmem, hnamed⟩))
      · obtain rfl := List.mem_singleton.1 hmem
        exact h.contains_of_named hnext hnamed

/-- The entries of a working router are those of its bound peers and of the ranks that were
named. -/
theorem contains_iff_run (h : (create profile topology).2 = .ok start) (backend : Backend)
    (events : List Event) (hworking : (start.run backend events).node.isFailed = false) :
    (start.run backend events).node.ledger.contains peer = true ↔
      (∃ channel, (start.run backend events).node.boundPeer? channel = some peer) ∨
        ∃ event ∈ events, event.named? = some peer := by
  have hempty : start.node.ledger.contains peer = false := contains_create h
  have hstart : start.node.Tracks ∧ (start.node.ledger.contains peer = true ↔
      (∃ channel, start.node.boundPeer? channel = some peer) ∨
        ∃ event ∈ ([] : List Event), event.named? = some peer) := by
    have htracks : start.node.Tracks := tracks_run h backend []
    refine ⟨htracks, fun hentry => absurd (hempty.symm.trans hentry) (by simp), ?_⟩
    rintro (⟨channel, hbound⟩ | ⟨event, hmem, -⟩)
    · exact htracks.entry hbound
    · exact absurd hmem List.not_mem_nil
  refine (run_history_of_working (fun events router => router.node.Tracks ∧
    (router.node.ledger.contains peer = true ↔
      (∃ channel, router.node.boundPeer? channel = some peer) ∨
        ∃ event ∈ events, event.named? = some peer)) hstart ?_ events hworking).2
  rintro before router event ⟨htracks, hrouter⟩ hworking hnext
  have hstep := step_handle backend event hworking
  exact ⟨hstep.tracks htracks, hstep.contains_iff hnext (hstep.tracks htracks) hrouter⟩

end Router

end MeshFormation
