import MeshFormation.Proofs.Ledger.Totals
import MeshFormation.Proofs.Router.Entries

/-!
# The ledger only grows

Rules that read a ledger at different times rely on what they have read. Every update of a ledger
replaces one entry by a larger one: its input and its route stay once they are set, and an output is
added behind the outputs that are there. As an event makes at most one such update of outputs,
whatever it leads to afterwards, nothing that a router has recorded is ever lost or rewritten.
-/

namespace MeshFormation

/-- The second entry holds all that the first one holds, and at most a number of outputs more, which
stand behind the old ones. -/
structure Connectivity.Extends (entry next : Connectivity) (added : Nat) : Prop where
  input : ∀ {channel}, entry.input = some channel → next.input = some channel
  route : ∀ {route}, entry.route = some route → next.route = some route
  outputs : entry.outputs <+: next.outputs
  most : next.outputs.length ≤ entry.outputs.length + added

/-- The second ledger has all entries of the first one, each with its input, its route and its
outputs. At most a number of outputs were added in all, each behind the outputs that its peer
had. -/
structure Ledger.Extends (ledger next : Ledger) (added : Nat) : Prop where
  entry : ∀ {peer}, ledger.contains peer = true → next.contains peer = true
  input : ∀ {peer channel}, ledger.input? peer = some channel → next.input? peer = some channel
  route : ∀ {peer route}, ledger.route? peer = some route → next.route? peer = some route
  outputs : ∀ peer, (ledger.entry peer).outputs <+: (next.entry peer).outputs
  most : next.outputCount ≤ ledger.outputCount + added

namespace Ledger

variable {ledger first second third : Ledger} {peer : Rank} {channel : Channel} {added more : Nat}

namespace Extends

theorem refl (ledger : Ledger) : ledger.Extends ledger 0 :=
  ⟨id, id, id, fun _ => List.prefix_rfl, Nat.le_refl _⟩

theorem mono (h : first.Extends second added) (hadded : added ≤ more) : first.Extends second more :=
  ⟨h.entry, h.input, h.route, h.outputs, h.most.trans (Nat.add_le_add_left hadded _)⟩

theorem trans (h : first.Extends second added) (h' : second.Extends third more) :
    first.Extends third (added + more) := by
  refine ⟨fun hentry => h'.entry (h.entry hentry), fun hinput => h'.input (h.input hinput),
    fun hroute => h'.route (h.route hroute),
    fun peer => (h.outputs peer).trans (h'.outputs peer), ?_⟩
  have hfirst := h.most
  have hsecond := h'.most
  omega

end Extends

/-- A ledger grows by what the entry that is replaced gains. -/
theorem extends_put {entry : Connectivity} (h : (ledger.entry peer).Extends entry added) :
    ledger.Extends (ledger.put peer entry) added := by
  constructor
  case entry => exact fun hentry => contains_put.2 (.inr hentry)
  case input =>
    intro other channel hinput
    rw [input?, entry_put]
    split
    · rename_i heq
      exact h.input (heq ▸ hinput)
    · exact hinput
  case route =>
    intro other route hroute
    rw [route?, entry_put]
    split
    · rename_i heq
      exact h.route (heq ▸ hroute)
    · exact hroute
  case outputs =>
    intro other
    rw [entry_put]
    split
    · rename_i heq
      exact heq ▸ h.outputs
    · exact List.prefix_rfl
  case most =>
    have htotal : (ledger.put peer entry).outputCount + (ledger.entry peer).outputs.length =
        ledger.outputCount + entry.outputs.length :=
      total_put (fun entry => entry.outputs.length) rfl ledger peer entry
    have hmost := h.most
    omega

theorem extends_track (ledger : Ledger) (peer : Rank) : ledger.Extends (ledger.track peer) 0 :=
  extends_put ⟨id, id, List.prefix_rfl, Nat.le_refl _⟩

theorem extends_of_recordInput (h : first.recordInput peer channel = .ok second) :
    first.Extends second 0 := by
  obtain ⟨hnone, rfl⟩ := recordInput_eq_ok_iff.1 h
  refine extends_put ⟨fun hinput => ?_, id, List.prefix_rfl, Nat.le_refl _⟩
  exact absurd (hnone.symm.trans hinput) (by simp)

theorem extends_recordOutput (ledger : Ledger) (peer : Rank) (channel : Channel) :
    ledger.Extends (ledger.recordOutput peer channel) 1 :=
  extends_put ⟨id, id, List.prefix_append _ _, by simp⟩

theorem extends_recordRoute (ledger : Ledger) (peer : Rank) (route : Route) :
    ledger.Extends (ledger.recordRoute peer route) 0 := by
  refine extends_put ⟨id, fun hroute => ?_, List.prefix_rfl, Nat.le_refl _⟩
  simp [hroute]

end Ledger

/-- A completed connection sets one input or adds one output. -/
theorem Node.extends_of_ledgerAfter {node : Node} {direction : Direction} {channel : Channel}
    {source bound : Rank} {ledger : Ledger}
    (h : node.ledgerAfter direction channel source = .ok (bound, ledger)) :
    node.ledger.Extends ledger 1 := by
  cases direction with
  | rx =>
    have hrecord := (ledgerAfter_rx_eq_ok h).2.2.2
    exact (Ledger.extends_of_recordInput hrecord).mono (Nat.zero_le 1)
  | tx =>
    have houtput := node.ledger.extends_recordOutput bound channel
    obtain ⟨-, -, -, rfl⟩ := ledgerAfter_tx_eq_ok h
    split
    · exact houtput.trans (Ledger.extends_recordRoute _ _ _)
    · exact houtput

namespace Router

variable {router next : Router} {backend : Backend} {event : Event}
  {result : Except RouterError Outbox}

theorem Writes.extends {node : Node} (h : router.Writes event node) :
    router.node.ledger.Extends node.ledger 1 := by
  cases h with
  | counts | unbinds => exact (Ledger.Extends.refl _).mono (Nat.zero_le 1)
  | binds => exact (Ledger.extends_track _ _).mono (Nat.zero_le 1)
  | records phase recorded => exact Node.extends_of_ledgerAfter recorded
  | learns => exact (Ledger.extends_recordRoute _ _ _).mono (Nat.zero_le 1)

/-- Whatever an event leads to, it answers an error or fails the router, the ledger grows by one
write. -/
theorem Step.extends (h : router.Step backend event next result) :
    router.node.ledger.Extends next.node.ledger 1 := by
  obtain ⟨node, hwrites, hadvances⟩ := h.writes
  rw [hadvances.ledger]
  exact hwrites.extends

theorem extends_handle (router : Router) (backend : Backend) (event : Event) :
    router.node.ledger.Extends (router.handle backend event).1.node.ledger 1 := by
  cases hfailed : router.node.isFailed with
  | true =>
    rw [handle_of_isFailed hfailed]
    exact (Ledger.Extends.refl _).mono (Nat.zero_le 1)
  | false => exact (step_handle backend event hfailed).extends

theorem extends_run (router : Router) (backend : Backend) (events : List Event) :
    router.node.ledger.Extends (router.run backend events).node.ledger events.length := by
  induction events generalizing router with
  | nil => exact .refl _
  | cons event rest ih =>
    rw [List.length_cons, Nat.add_comm]
    exact (router.extends_handle backend event).trans (ih _)

/-- A router keeps all that it has recorded, from each state that it comes to. An event adds one
output at most, and a run as many as it has events at most. -/
theorem ledger_only_grows (start : Router) (backend : Backend) (events : List Event)
    (event : Event) :
    (start.run backend events).node.ledger.Extends
        ((start.run backend events).handle backend event).1.node.ledger 1 ∧
      start.node.ledger.Extends (start.run backend events).node.ledger events.length :=
  ⟨extends_handle _ backend event, extends_run start backend events⟩

end Router

end MeshFormation
