import MeshFormation.Proofs.Node.Frame
import MeshFormation.Proofs.Node.Screening
import MeshFormation.Router
import Mathlib.Tactic.Set

/-!
# What an event teaches a router

An event changes what a node knows in one place only. A channel event may bind its peer, an incoming
connection sets the input of its source, an outgoing one adds an output and perhaps a direct route,
and a forward adds a route. The lemmas below say so for each event, next to what the event makes the
router send. They hold for every backend, failures in the middle of an event included.
-/

namespace MeshFormation

/-- Inputs and routes that are known in the first ledger are known in the second. -/
structure Ledger.Grows (ledger next : Ledger) : Prop where
  input : ∀ {peer channel}, ledger.input? peer = some channel → next.input? peer = some channel
  route : ∀ {peer route}, ledger.route? peer = some route → next.route? peer = some route

namespace Ledger

variable {first second third : Ledger}

theorem Grows.refl (ledger : Ledger) : ledger.Grows ledger := ⟨id, id⟩

theorem Grows.trans (h : first.Grows second) (h' : second.Grows third) : first.Grows third :=
  ⟨fun hinput => h'.input (h.input hinput), fun hroute => h'.route (h.route hroute)⟩

@[simp] theorem input?_track (ledger : Ledger) (peer other : Rank) :
    (ledger.track peer).input? other = ledger.input? other := by
  simp [input?]

@[simp] theorem route?_track (ledger : Ledger) (peer other : Rank) :
    (ledger.track peer).route? other = ledger.route? other := by
  simp [route?]

@[simp] theorem input?_recordOutput (ledger : Ledger) (peer other : Rank) (channel : Channel) :
    (ledger.recordOutput peer channel).input? other = ledger.input? other := by
  simp only [input?, entry_recordOutput]
  split <;> simp_all

@[simp] theorem route?_recordOutput (ledger : Ledger) (peer other : Rank) (channel : Channel) :
    (ledger.recordOutput peer channel).route? other = ledger.route? other := by
  simp only [route?, entry_recordOutput]
  split <;> simp_all

@[simp] theorem input?_recordRoute (ledger : Ledger) (peer other : Rank) (route : Route) :
    (ledger.recordRoute peer route).input? other = ledger.input? other := by
  simp only [input?, recordRoute, entry_put]
  split <;> simp_all

theorem grows_track (ledger : Ledger) (peer : Rank) : ledger.Grows (ledger.track peer) :=
  ⟨by simp, by simp⟩

theorem grows_recordOutput (ledger : Ledger) (peer : Rank) (channel : Channel) :
    ledger.Grows (ledger.recordOutput peer channel) :=
  ⟨by simp, by simp⟩

theorem grows_recordRoute (ledger : Ledger) (peer : Rank) (route : Route) :
    ledger.Grows (ledger.recordRoute peer route) := by
  refine ⟨by simp, fun {other} known h => ?_⟩
  rw [route?_recordRoute]
  split
  · rename_i heq
    rw [← heq, h]
    rfl
  · exact h

/-- An input that is recorded was missing, and nothing else changes. -/
theorem of_recordInput {ledger next : Ledger} {peer : Rank} {channel : Channel}
    (h : ledger.recordInput peer channel = .ok next) :
    ledger.input? peer = none ∧
      (∀ other, next.input? other = if other = peer then some channel else ledger.input? other) ∧
      ∀ other, next.route? other = ledger.route? other := by
  obtain ⟨hnone, rfl⟩ := recordInput_eq_ok_iff.1 h
  refine ⟨hnone, fun other => ?_, fun other => ?_⟩
  · simp only [input?, entry_put]
    split <;> rfl
  · simp only [route?, entry_put]
    split <;> simp_all

theorem grows_of_recordInput {ledger next : Ledger} {peer : Rank} {channel : Channel}
    (h : ledger.recordInput peer channel = .ok next) : ledger.Grows next := by
  obtain ⟨hnone, hinput, hroute⟩ := of_recordInput h
  refine ⟨fun {other} _ hother => ?_, fun hother => (hroute _).trans hother⟩
  rw [hinput, if_neg, hother]
  rintro rfl
  simp [hnone] at hother

end Ledger

namespace Node

variable {node : Node} {channel : Channel} {source bound : Rank} {ledger : Ledger}

theorem ledgerAfter_rx_eq_ok
    (h : node.ledgerAfter .rx channel source = .ok (bound, ledger)) :
    node.boundPeer? channel = some bound ∧ node.topology.hasMember source = true ∧
      source ≠ node.rank ∧ node.ledger.recordInput source channel = .ok ledger := by
  rw [ledgerAfter] at h
  split at h
  · exact absurd h (by simp)
  rename_i peer hpeer
  split at h
  · exact absurd h (by simp)
  rename_i hmember
  dsimp only at h
  split at h
  · exact absurd h (by simp)
  rename_i hself
  split at h
  · exact absurd h (by simp)
  rename_i next hrecord
  obtain ⟨rfl, rfl⟩ := Prod.mk.inj (Except.ok.inj h)
  exact ⟨hpeer, by simpa using hmember, hself, hrecord⟩

theorem ledgerAfter_tx_eq_ok
    (h : node.ledgerAfter .tx channel source = .ok (bound, ledger)) :
    node.boundPeer? channel = some bound ∧ node.topology.hasMember source = true ∧
      source ≠ bound ∧
      ledger =
        if source = node.rank then
          (node.ledger.recordOutput bound channel).recordRoute bound (.direct source bound)
        else node.ledger.recordOutput bound channel := by
  rw [ledgerAfter] at h
  split at h
  · exact absurd h (by simp)
  rename_i peer hpeer
  split at h
  · exact absurd h (by simp)
  rename_i hmember
  dsimp only at h
  split at h
  · exact absurd h (by simp)
  rename_i hself
  have hmember : node.topology.hasMember source = true := by simpa using hmember
  split at h
  · obtain ⟨rfl, rfl⟩ := Prod.mk.inj (Except.ok.inj h)
    exact ⟨hpeer, hmember, hself, by simp [*]⟩
  · obtain ⟨rfl, rfl⟩ := Prod.mk.inj (Except.ok.inj h)
    exact ⟨hpeer, hmember, hself, by simp [*]⟩

theorem grows_of_ledgerAfter {direction : Direction}
    (h : node.ledgerAfter direction channel source = .ok (bound, ledger)) :
    node.ledger.Grows ledger := by
  cases direction with
  | rx => exact Ledger.grows_of_recordInput (ledgerAfter_rx_eq_ok h).2.2.2
  | tx =>
    rw [(ledgerAfter_tx_eq_ok h).2.2.2]
    split
    · exact (Ledger.grows_recordOutput _ _ _).trans (Ledger.grows_recordRoute _ _ _)
    · exact Ledger.grows_recordOutput _ _ _

end Node

def Outbox.Announces (outbox : Outbox) (rank : Rank) : Prop :=
  ∀ outbound ∈ outbox, ∃ chassis, outbound.message = .outerAnnounce rank chassis

theorem Outbox.announces_nil (rank : Rank) : Outbox.Announces [] rank := by
  simp [Outbox.Announces]

namespace CubeForwarding

theorem announces_announce (cube : CubeForwarding) (node : Node) (peer : Rank) :
    (cube.announce node peer).2.Announces node.rank := by
  unfold announce
  split
  · exact Outbox.announces_nil _
  · simp [Outbox.Announces]

theorem announces_announceAll (cube : CubeForwarding) (node : Node) (peers : List Rank) :
    (cube.announceAll node peers).2.Announces node.rank := by
  induction peers generalizing cube with
  | nil => exact Outbox.announces_nil _
  | cons peer rest ih =>
    intro outbound h
    simp only [announceAll, List.mem_append] at h
    rcases h with h | h
    · exact announces_announce cube node peer outbound h
    · exact ih _ outbound h

end CubeForwarding

namespace Forwarding

/-- Binding a channel changes no more than the number of expected transmits. -/
theorem advances_channelBound (forwarding : Forwarding) (node : Node) (event : ChannelEvent) :
    node.Advances (forwarding.channelBound node event).2.1 := by
  cases forwarding with
  | pair => exact .refl node
  | hypercube rules => exact .refl node
  | cube rules =>
    simp only [channelBound, CubeForwarding.channelBound]
    split
    · exact .refl node
    · split
      · exact .refl node
      · exact node.advances_raiseTransmits _

theorem announces_channelBound (forwarding : Forwarding) (node : Node) (event : ChannelEvent) :
    (forwarding.channelBound node event).2.2.Announces node.rank := by
  cases forwarding with
  | pair => exact Outbox.announces_nil _
  | hypercube rules => exact Outbox.announces_nil _
  | cube rules =>
    simp only [channelBound, CubeForwarding.channelBound]
    split
    · exact Outbox.announces_nil _
    · split
      · exact Outbox.announces_nil _
      · exact CubeForwarding.announces_announceAll _ (node.raiseTransmits _) _

theorem announces_transmitDone (forwarding : Forwarding) (node : Node) (receiver : Rank) :
    (forwarding.transmitDone node receiver).2.Announces node.rank := by
  cases forwarding with
  | pair => exact Outbox.announces_nil _
  | hypercube rules => exact Outbox.announces_nil _
  | cube rules =>
    simp only [transmitDone, CubeForwarding.transmitDone]
    split
    · exact CubeForwarding.announces_announce rules node receiver
    · exact Outbox.announces_nil _

theorem advances_announcementHeard (forwarding : Forwarding) (node : Node) (announcer : Rank)
    (chassis : String) :
    node.Advances (forwarding.announcementHeard node announcer chassis).2.1 := by
  cases forwarding with
  | pair => exact .refl node
  | hypercube rules => exact .refl node
  | cube rules =>
    simp only [announcementHeard, CubeForwarding.announcementHeard]
    split
    · exact node.advances_fail _
    · split
      · exact node.advances_fail _
      · split
        · exact node.advances_fail _
        · exact .refl node

theorem advances_countNetworkLink (node : Node) : node.Advances node.countNetworkLink.1 := by
  unfold Node.countNetworkLink
  split
  · exact node.advances_fail _
  · rename_i progress heq
    refine ⟨⟨rfl, fun h => ?_, [], by simp, by simp⟩, rfl, rfl, rfl⟩
    simpa [Node.isFailed, Progress.isFailed, Progress.phase_of_complete heq] using h

theorem advances_networkChanged (forwarding : Forwarding) (node : Node) (event : NetworkEvent) :
    node.Advances (forwarding.networkChanged node event).2.1 := by
  cases forwarding with
  | pair => exact .refl node
  | cube rules => exact .refl node
  | hypercube rules =>
    simp only [networkChanged, HypercubeForwarding.networkChanged]
    split
    · exact node.advances_fail _
    split
    · exact node.advances_fail _
    split
    · exact .refl node
    have hcount := advances_countNetworkLink node
    split
    · rename_i next error heq
      rw [heq] at hcount
      exact hcount
    · rename_i next count heq
      rw [heq] at hcount
      exact hcount.trans next.advances_signalReadiness

end Forwarding

namespace Router

theorem advances_proceed (router : Router) (backend : Backend) :
    router.node.Advances (router.proceed backend).node := by
  unfold proceed
  split
  · exact .refl _
  · split
    · exact router.node.advances_lockWhenComplete backend
    · exact router.forwarding.advances_runRules router.node backend

/-! ## Channel events -/

/-- What the event of a channel that came up does to a node, and what it makes the node send. -/
structure ChannelEffect (node next : Node) (event : ChannelEvent) (outbox : Outbox) : Prop
    extends node.Continues next where
  input : ∀ peer, next.ledger.input? peer = node.ledger.input? peer
  route : ∀ peer, next.ledger.route? peer = node.ledger.route? peer
  bindings : next.bindings = node.bindings ∨
    node.topology.hasMember event.peer = true ∧
      next.bindings = node.bindings.insert event.channel event.peer
  sends : outbox.Announces node.rank

theorem ChannelEffect.of_advances {node next : Node} (h : node.Advances next)
    (event : ChannelEvent) : ChannelEffect node next event [] :=
  ⟨h.toContinues, fun _ => by rw [h.ledger], fun _ => by rw [h.ledger], .inl h.bindings,
    Outbox.announces_nil _⟩

theorem hasMember_of_screening_fresh {node : Node} {event : ChannelEvent}
    (h : node.screening event = .fresh) : node.topology.hasMember event.peer = true :=
  (Topology.mem_peers_iff.1 (Node.screening_eq_fresh_iff.1 h).1.peer).2.1

theorem channelEffect_bind {node next : Node} {event : ChannelEvent} {outbox : Outbox}
    (h : (node.bind event.channel event.peer).Advances next)
    (hmember : node.topology.hasMember event.peer = true) (houtbox : outbox.Announces node.rank) :
    ChannelEffect node next event outbox := by
  refine ⟨⟨h.topology, h.isFailed, h.attempts⟩, ?_, ?_, .inr ⟨hmember, h.bindings⟩, houtbox⟩
  · intro peer
    rw [h.ledger]
    exact Ledger.input?_track _ _ _
  · intro peer
    rw [h.ledger]
    exact Ledger.route?_track _ _ _

theorem channelEffect_channelChanged (router : Router) (backend : Backend) {event : ChannelEvent}
    (h : event.connected = true) :
    ChannelEffect router.node (router.channelChanged backend event).1.node event
      (router.channelChanged backend event).2 := by
  have hrefuse : router.node.Advances (router.node.refuseChannel backend event.channel) :=
    router.node.advances_request backend rfl
  unfold channelChanged
  rw [h]
  simp only [Bool.not_true, Bool.false_eq_true, if_false]
  split
  · exact .of_advances (.refl _) event
  · exact .of_advances hrefuse event
  rename_i hfresh
  have hmember := hasMember_of_screening_fresh hfresh
  split
  · exact .of_advances hrefuse event
  split
  · rename_i next heq
    exact channelEffect_bind (Node.advances_of_establish heq) hmember (Outbox.announces_nil _)
  · rename_i next heq
    have hestablish := Node.advances_of_establish heq
    refine channelEffect_bind
      (hestablish.trans (router.forwarding.advances_channelBound next event)) hmember ?_
    have hrank : next.rank = router.node.rank := hestablish.rank
    exact hrank ▸ router.forwarding.announces_channelBound next event

/-! ## Completed connections -/

/-- What the completion of an incoming connection does to a node. -/
structure ReceiveEffect (node next : Node) (channel : Channel) (source : Rank) : Prop
    extends node.Continues next where
  input : ∀ peer, next.ledger.input? peer = node.ledger.input? peer ∨
    peer = source ∧ node.ledger.input? peer = none ∧ next.ledger.input? peer = some channel
  route : ∀ peer, next.ledger.route? peer = node.ledger.route? peer
  bindings : next.bindings = node.bindings
  done : next.isFailed = true ∨ next.ledger.input? source = some channel

/-- What the completion of an outgoing connection does to a node, and what it makes the node send. A
node that has not failed afterwards knows the direct route, or tells the source of the relay. -/
structure TransmitEffect (node next : Node) (channel : Channel) (source : Rank) (outbox : Outbox) :
    Prop extends node.Continues next where
  input : ∀ peer, next.ledger.input? peer = node.ledger.input? peer
  grows : node.ledger.Grows next.ledger
  route : ∀ {peer route}, next.ledger.route? peer = some route →
    node.ledger.route? peer = some route ∨
      source = node.rank ∧ node.boundPeer? channel = some peer ∧ route = .direct node.rank peer
  bindings : next.bindings = node.bindings
  sends : ∀ outbound ∈ outbox,
    (∃ chassis, outbound.message = .outerAnnounce node.rank chassis) ∨
      ∃ bound, node.boundPeer? channel = some bound ∧
        outbound = ⟨source, .forward node.rank bound⟩
  done : next.isFailed = true ∨ node.topology.hasMember source = true ∧
    ∃ bound, node.boundPeer? channel = some bound ∧
      if source = node.rank then (next.ledger.route? bound).isSome = true
      else ⟨source, .forward node.rank bound⟩ ∈ outbox

/-- The messages of a transition; an error leaves none. -/
def outboxOf : Except RouterError Outbox → Outbox
  | .ok outbox => outbox
  | .error _ => []

theorem receiveEffect_of_isFailed {node next : Node} (h : node.Advances next)
    (hfailed : next.isFailed = true) (channel : Channel) (source : Rank) :
    ReceiveEffect node next channel source :=
  ⟨h.toContinues, fun _ => .inl (by rw [h.ledger]), fun _ => by rw [h.ledger], h.bindings,
    .inl hfailed⟩

theorem transmitEffect_of_isFailed {node next : Node} (h : node.Advances next)
    (hfailed : next.isFailed = true) (channel : Channel) (source : Rank) :
    TransmitEffect node next channel source [] :=
  ⟨h.toContinues, fun _ => by rw [h.ledger], h.ledger ▸ .refl _,
    fun hroute => .inl (h.ledger ▸ hroute), h.bindings, by simp, .inl hfailed⟩

/-- Both directions record the connection first, so a node that then finds the count exhausted has
failed with the connection in its ledger. -/
theorem completeConnection_cases (node : Node) (direction : Direction) (channel : Channel)
    (source : Rank) :
    (∃ violation, node.completeConnection direction channel source = node.refuse violation) ∨
      ∃ bound ledger, node.ledgerAfter direction channel source = .ok (bound, ledger) ∧
        ((∃ violation, node.completeConnection direction channel source =
            { node with ledger }.refuse violation) ∨
          ∃ progress, node.progress.complete direction.counter = .ok progress ∧
            node.completeConnection direction channel source =
              ({ node with ledger, progress }, .ok bound)) := by
  unfold Node.completeConnection
  split
  · rename_i violation _
    exact .inl ⟨violation, rfl⟩
  · rename_i bound ledger hledger
    refine .inr ⟨bound, ledger, hledger, ?_⟩
    split
    · exact .inl ⟨_, rfl⟩
    · rename_i progress hprogress
      exact .inr ⟨progress, hprogress, rfl⟩

theorem continues_of_ledger {node next : Node} {ledger : Ledger} {progress : Progress}
    (hphase : progress.phase = node.progress.phase)
    (h : ({ node with ledger, progress } : Node).Advances next) : node.Continues next :=
  ⟨h.topology, fun hfailed => h.isFailed (by
    simpa [Node.isFailed, Progress.isFailed, hphase] using hfailed), h.attempts⟩

theorem receiveEffect_of_ledger {node next : Node} {channel : Channel} {source bound : Rank}
    {ledger : Ledger} {progress : Progress} (hphase : progress.phase = node.progress.phase)
    (hledger : node.ledgerAfter .rx channel source = .ok (bound, ledger))
    (h : ({ node with ledger, progress } : Node).Advances next) :
    ReceiveEffect node next channel source := by
  obtain ⟨-, -, -, hrecord⟩ := Node.ledgerAfter_rx_eq_ok hledger
  obtain ⟨hnone, hinput, hroute⟩ := Ledger.of_recordInput hrecord
  have hnext : next.ledger = ledger := h.ledger
  refine ⟨continues_of_ledger hphase h, fun peer => ?_, fun peer => ?_, h.bindings, .inr ?_⟩
  · rw [hnext, hinput]
    by_cases hpeer : peer = source
    · subst hpeer
      exact .inr ⟨rfl, hnone, if_pos rfl⟩
    · exact .inl (if_neg hpeer)
  · rw [hnext, hroute]
  · rw [hnext, hinput, if_pos rfl]

/-- What an outgoing connection adds to inputs and routes. -/
theorem routes_of_ledgerAfter_tx {node : Node} {channel : Channel} {source bound : Rank}
    {ledger : Ledger} (h : node.ledgerAfter .tx channel source = .ok (bound, ledger)) :
    (∀ peer, ledger.input? peer = node.ledger.input? peer) ∧
      (source = node.rank → (ledger.route? bound).isSome = true) ∧
      ∀ {peer route}, ledger.route? peer = some route →
        node.ledger.route? peer = some route ∨
          source = node.rank ∧ node.boundPeer? channel = some peer ∧
            route = .direct node.rank peer := by
  obtain ⟨hbound, -, -, rfl⟩ := Node.ledgerAfter_tx_eq_ok h
  split
  · rename_i hsource
    refine ⟨by simp, fun _ => by simp [Ledger.route?_recordRoute], fun {peer route} hroute => ?_⟩
    rw [Ledger.route?_recordRoute] at hroute
    split at hroute
    · rename_i hpeer
      subst hpeer
      cases hknown : node.ledger.route? peer with
      | none =>
        refine .inr ⟨hsource, hbound, ?_⟩
        rw [← hsource]
        simpa [hknown, eq_comm] using hroute
      | some known =>
        left
        simpa [hknown] using hroute
    · left
      simpa using hroute
  · rename_i hsource
    exact ⟨by simp, fun h => absurd h hsource, fun hroute => .inl (by simpa using hroute)⟩

theorem transmitEffect_of_ledger {node next : Node} {channel : Channel} {source bound : Rank}
    {ledger : Ledger} {progress : Progress} {outbox : Outbox}
    (hphase : progress.phase = node.progress.phase)
    (hledger : node.ledgerAfter .tx channel source = .ok (bound, ledger))
    (h : ({ node with ledger, progress } : Node).Advances next)
    (houtbox : if source = node.rank then outbox.Announces node.rank
      else outbox = [⟨source, .forward node.rank bound⟩]) :
    TransmitEffect node next channel source outbox := by
  obtain ⟨hbound, hmember, -, -⟩ := Node.ledgerAfter_tx_eq_ok hledger
  obtain ⟨hinput, hdirect, hroute⟩ := routes_of_ledgerAfter_tx hledger
  have hnext : next.ledger = ledger := h.ledger
  refine ⟨continues_of_ledger hphase h, fun peer => by rw [hnext, hinput],
    hnext ▸ Node.grows_of_ledgerAfter hledger, fun h => hroute (hnext ▸ h), h.bindings, ?_,
    .inr ⟨hmember, bound, hbound, ?_⟩⟩
  · intro outbound hmem
    split at houtbox
    · exact .inl (houtbox outbound hmem)
    · rw [houtbox, List.mem_singleton] at hmem
      exact .inr ⟨bound, hbound, hmem⟩
  · split at houtbox
    · rename_i hsource
      rw [if_pos hsource, hnext]
      exact hdirect hsource
    · rename_i hsource
      rw [if_neg hsource, houtbox]
      exact List.mem_singleton_self _

theorem receiveEffect_connectionChanged (router : Router) (backend : Backend) (channel : Channel)
    (source : Rank) :
    ReceiveEffect router.node
        (router.connectionChanged backend ⟨.rx, channel, source, true⟩).1.node channel source ∧
      outboxOf (router.connectionChanged backend ⟨.rx, channel, source, true⟩).2 = [] := by
  rcases completeConnection_cases router.node .rx channel source with
    ⟨violation, heq⟩ | ⟨bound, ledger, hledger, ⟨violation, heq⟩ | ⟨progress, hprogress, heq⟩⟩
  · simp only [connectionChanged, Bool.not_true, Bool.false_eq_true, if_false, heq, Node.refuse]
    exact ⟨receiveEffect_of_isFailed (router.node.advances_fail _) (by simp) channel source, rfl⟩
  · simp only [connectionChanged, Bool.not_true, Bool.false_eq_true, if_false, heq, Node.refuse]
    exact ⟨receiveEffect_of_ledger rfl hledger (Node.advances_fail _ _), rfl⟩
  · simp only [connectionChanged, Bool.not_true, Bool.false_eq_true, if_false, heq]
    exact ⟨receiveEffect_of_ledger (Progress.phase_of_complete hprogress) hledger
      (advances_proceed ⟨{ router.node with ledger, progress }, router.forwarding⟩ backend), rfl⟩

theorem transmitEffect_connectionChanged (router : Router) (backend : Backend) (channel : Channel)
    (source : Rank) :
    TransmitEffect router.node
      (router.connectionChanged backend ⟨.tx, channel, source, true⟩).1.node channel source
      (outboxOf (router.connectionChanged backend ⟨.tx, channel, source, true⟩).2) := by
  rcases completeConnection_cases router.node .tx channel source with
    ⟨violation, heq⟩ | ⟨bound, ledger, hledger, ⟨violation, heq⟩ | ⟨progress, hprogress, heq⟩⟩
  · simp only [connectionChanged, Bool.not_true, Bool.false_eq_true, if_false, heq, Node.refuse]
    exact transmitEffect_of_isFailed (router.node.advances_fail _) (by simp) channel source
  · simp only [connectionChanged, Bool.not_true, Bool.false_eq_true, if_false, heq, Node.refuse]
    obtain ⟨hinput, -, hroute⟩ := routes_of_ledgerAfter_tx hledger
    exact ⟨continues_of_ledger rfl (Node.advances_fail _ _), by simpa using hinput,
      by simpa using Node.grows_of_ledgerAfter hledger, fun h => hroute (by simpa using h),
      by simp, by simp [outboxOf], .inl (by simp)⟩
  · have hphase := Progress.phase_of_complete hprogress
    simp only [connectionChanged, Bool.not_true, Bool.false_eq_true, if_false, heq,
      transmitCompleted]
    have hrank : ({ router.node with ledger, progress } : Node).rank = router.node.rank := rfl
    by_cases hsource : source = router.node.rank
    · simp only [rank, hrank, if_pos hsource]
      refine transmitEffect_of_ledger hphase hledger
        (advances_proceed ⟨{ router.node with ledger, progress }, _⟩ backend) ?_
      rw [if_pos hsource]
      exact router.forwarding.announces_transmitDone { router.node with ledger, progress } bound
    · simp only [rank, hrank, if_neg hsource]
      refine transmitEffect_of_ledger hphase hledger
        (advances_proceed ⟨{ router.node with ledger, progress }, router.forwarding⟩ backend) ?_
      rw [if_neg hsource]
      rfl

/-! ## Forwards, announcements and network links -/

/-- What a forward does to a node: it either fails it or leaves it with a route to the receiver,
which is the route to the forwarder extended if there was none before. -/
structure ForwardEffect (node next : Node) (forwarder receiver : Rank) : Prop
    extends node.Continues next where
  ledger : next.ledger = node.ledger ∨ ∃ base, node.ledger.route? forwarder = some base ∧
    next.ledger = node.ledger.recordRoute receiver (base.relayed receiver)
  bindings : next.bindings = node.bindings
  done : next.isFailed = true ∨ (next.ledger.route? receiver).isSome = true

theorem forwardEffect_of_isFailed {node next : Node} (h : node.Advances next)
    (hfailed : next.isFailed = true) (forwarder receiver : Rank) :
    ForwardEffect node next forwarder receiver :=
  ⟨h.toContinues, .inl h.ledger, h.bindings, .inl hfailed⟩

theorem learnForward_cases (node : Node) (forwarder receiver : Rank) :
    (∃ violation, node.learnForward forwarder receiver = node.refuse violation) ∨
      ∃ base, node.ledger.route? forwarder = some base ∧
        node.learnForward forwarder receiver =
          ({ node with ledger := node.ledger.recordRoute receiver (base.relayed receiver) },
            .ok ()) := by
  unfold Node.learnForward
  split
  · exact .inl ⟨_, rfl⟩
  split
  · exact .inl ⟨_, rfl⟩
  rename_i base hbase
  dsimp only
  split
  · exact .inl ⟨_, rfl⟩
  · exact .inr ⟨base, hbase, rfl⟩

theorem forwardEffect_forwarded (router : Router) (backend : Backend) (forwarder receiver : Rank) :
    ForwardEffect router.node (router.forwarded backend forwarder receiver).1.node forwarder
        receiver ∧
      outboxOf (router.forwarded backend forwarder receiver).2 = [] := by
  have hrefuse : ∀ reason, ForwardEffect router.node (router.node.fail reason) forwarder receiver :=
    fun reason => forwardEffect_of_isFailed (router.node.advances_fail reason) (by simp) _ _
  unfold forwarded
  split
  · exact ⟨hrefuse _, rfl⟩
  rcases learnForward_cases router.node forwarder receiver with
    ⟨violation, heq⟩ | ⟨base, hbase, heq⟩
  · rw [heq]
    exact ⟨hrefuse _, rfl⟩
  · rw [heq]
    have hnext := advances_proceed ⟨{ router.node with
      ledger := router.node.ledger.recordRoute receiver (base.relayed receiver) },
      router.forwarding⟩ backend
    refine ⟨⟨⟨hnext.topology, hnext.isFailed, hnext.attempts⟩, .inr ⟨base, hbase, hnext.ledger⟩,
      hnext.bindings, .inr ?_⟩, rfl⟩
    rw [hnext.ledger]
    simp [Ledger.route?_recordRoute]

theorem advances_announcementHeard (router : Router) (backend : Backend) (announcer : Rank)
    (chassis : String) :
    router.node.Advances (router.announcementHeard backend announcer chassis).1.node ∧
      outboxOf (router.announcementHeard backend announcer chassis).2 = [] := by
  have h := router.forwarding.advances_announcementHeard router.node announcer chassis
  unfold announcementHeard
  split
  · rename_i heq
    rw [heq] at h
    exact ⟨h, rfl⟩
  · rename_i forwarding node _ heq
    rw [heq] at h
    exact ⟨h.trans (advances_proceed ⟨node, forwarding⟩ backend), rfl⟩

theorem advances_networkChanged (router : Router) (event : NetworkEvent) :
    router.node.Advances (router.networkChanged event).1.node ∧
      outboxOf (router.networkChanged event).2 = [] := by
  have h := router.forwarding.advances_networkChanged router.node event
  unfold networkChanged
  split
  · rename_i heq
    rw [heq] at h
    exact ⟨h, rfl⟩
  · rename_i heq
    rw [heq] at h
    exact ⟨h, rfl⟩

/-! ## One event -/

theorem handle_of_isFailed {router : Router} (h : router.node.isFailed = true) (backend : Backend)
    (event : Event) : router.handle backend event = (router, .ok []) :=
  if_pos h

theorem channelEffect_handle (router : Router) (backend : Backend) {event : ChannelEvent}
    (h : event.connected = true) :
    ChannelEffect router.node (router.handle backend (.channel event)).1.node event
      (outboxOf (router.handle backend (.channel event)).2) := by
  by_cases hfailed : router.node.isFailed = true
  · rw [handle_of_isFailed hfailed]
    exact .of_advances (.refl _) event
  · rw [handle, if_neg hfailed]
    exact channelEffect_channelChanged router backend h

theorem receiveEffect_handle (router : Router) (backend : Backend) (channel : Channel)
    (source : Rank) :
    ReceiveEffect router.node
        (router.handle backend (.connection ⟨.rx, channel, source, true⟩)).1.node channel source ∧
      outboxOf (router.handle backend (.connection ⟨.rx, channel, source, true⟩)).2 = [] := by
  by_cases hfailed : router.node.isFailed = true
  · rw [handle_of_isFailed hfailed]
    exact ⟨receiveEffect_of_isFailed (.refl _) hfailed channel source, rfl⟩
  · rw [handle, if_neg hfailed]
    exact receiveEffect_connectionChanged router backend channel source

theorem transmitEffect_handle (router : Router) (backend : Backend) (channel : Channel)
    (source : Rank) :
    TransmitEffect router.node
      (router.handle backend (.connection ⟨.tx, channel, source, true⟩)).1.node channel source
      (outboxOf (router.handle backend (.connection ⟨.tx, channel, source, true⟩)).2) := by
  by_cases hfailed : router.node.isFailed = true
  · rw [handle_of_isFailed hfailed]
    exact transmitEffect_of_isFailed (.refl _) hfailed channel source
  · rw [handle, if_neg hfailed]
    exact transmitEffect_connectionChanged router backend channel source

theorem forwardEffect_handle (router : Router) (backend : Backend) (forwarder receiver : Rank) :
    ForwardEffect router.node (router.handle backend (.forward forwarder receiver)).1.node forwarder
        receiver ∧
      outboxOf (router.handle backend (.forward forwarder receiver)).2 = [] := by
  by_cases hfailed : router.node.isFailed = true
  · rw [handle_of_isFailed hfailed]
    exact ⟨forwardEffect_of_isFailed (.refl _) hfailed forwarder receiver, rfl⟩
  · rw [handle, if_neg hfailed]
    exact forwardEffect_forwarded router backend forwarder receiver

theorem advances_handle_outerAnnounce (router : Router) (backend : Backend) (announcer : Rank)
    (chassis : String) :
    router.node.Advances (router.handle backend (.outerAnnounce announcer chassis)).1.node ∧
      outboxOf (router.handle backend (.outerAnnounce announcer chassis)).2 = [] := by
  by_cases hfailed : router.node.isFailed = true
  · rw [handle_of_isFailed hfailed]
    exact ⟨.refl _, rfl⟩
  · rw [handle, if_neg hfailed]
    exact advances_announcementHeard router backend announcer chassis

theorem advances_handle_network (router : Router) (backend : Backend) (event : NetworkEvent) :
    router.node.Advances (router.handle backend (.network event)).1.node ∧
      outboxOf (router.handle backend (.network event)).2 = [] := by
  by_cases hfailed : router.node.isFailed = true
  · rw [handle_of_isFailed hfailed]
    exact ⟨.refl _, rfl⟩
  · rw [handle, if_neg hfailed]
    exact advances_networkChanged router event

/-- All that a node may learn from an event that reports no loss, and all that it may send. -/
structure Learns (node next : Node) (event : Event) (outbox : Outbox) : Prop
    extends node.Continues next where
  grows : node.ledger.Grows next.ledger
  input : ∀ {peer channel}, next.ledger.input? peer = some channel →
    node.ledger.input? peer = some channel ∨ event = .connection ⟨.rx, channel, peer, true⟩
  binding : ∀ {channel peer}, next.boundPeer? channel = some peer →
    node.boundPeer? channel = some peer ∨
      ∃ known, event = .channel known ∧ known.channel = channel ∧ known.peer = peer ∧
        node.topology.hasMember peer = true
  route : ∀ {peer route}, next.ledger.route? peer = some route →
    node.ledger.route? peer = some route ∨
      (∃ channel, event = .connection ⟨.tx, channel, node.rank, true⟩ ∧
        node.boundPeer? channel = some peer ∧ route = .direct node.rank peer) ∨
      ∃ forwarder base, event = .forward forwarder peer ∧
        node.ledger.route? forwarder = some base ∧ route = base.relayed peer
  sends : ∀ outbound ∈ outbox,
    (∃ chassis, outbound.message = .outerAnnounce node.rank chassis) ∨
      ∃ channel source bound, event = .connection ⟨.tx, channel, source, true⟩ ∧
        node.boundPeer? channel = some bound ∧
          outbound = ⟨source, .forward node.rank bound⟩

theorem Learns.of_advances {node next : Node} (h : node.Advances next) (event : Event) :
    Learns node next event [] where
  toContinues := h.toContinues
  grows := h.ledger ▸ .refl _
  input hinput := .inl (h.ledger ▸ hinput)
  binding hbound := .inl (by rwa [Node.boundPeer?, h.bindings] at hbound)
  route hroute := .inl (h.ledger ▸ hroute)
  sends := by simp

theorem ChannelEffect.learns {node next : Node} {event : ChannelEvent} {outbox : Outbox}
    (h : ChannelEffect node next event outbox) : Learns node next (.channel event) outbox where
  toContinues := h.toContinues
  grows := ⟨fun hinput => (h.input _).trans hinput, fun hroute => (h.route _).trans hroute⟩
  input hinput := .inl ((h.input _).symm.trans hinput)
  binding {channel peer} hbound := by
    rcases h.bindings with hsame | ⟨hmember, hinsert⟩
    · left
      rwa [Node.boundPeer?, hsame] at hbound
    · rw [Node.boundPeer?, hinsert, Table.get?_insert] at hbound
      split at hbound
      · rename_i hchannel
        obtain rfl := Option.some.inj hbound
        exact .inr ⟨event, rfl, hchannel.symm, rfl, hmember⟩
      · exact .inl hbound
  route hroute := .inl ((h.route _).symm.trans hroute)
  sends outbound hmem := .inl (h.sends outbound hmem)

theorem ReceiveEffect.learns {node next : Node} {channel : Channel} {source : Rank}
    (h : ReceiveEffect node next channel source) :
    Learns node next (.connection ⟨.rx, channel, source, true⟩) [] where
  toContinues := h.toContinues
  grows := by
    refine ⟨fun {peer known} hinput => ?_, fun hroute => (h.route _).trans hroute⟩
    rcases h.input peer with hsame | ⟨-, hnone, -⟩
    · exact hsame.trans hinput
    · rw [hnone] at hinput
      exact absurd hinput (by simp)
  input {peer known} hinput := by
    rcases h.input peer with hsame | ⟨rfl, -, hnew⟩
    · exact .inl (hsame.symm.trans hinput)
    · obtain rfl := Option.some.inj (hnew.symm.trans hinput)
      exact .inr rfl
  binding hbound := .inl (by rwa [Node.boundPeer?, h.bindings] at hbound)
  route hroute := .inl ((h.route _).symm.trans hroute)
  sends := by simp

theorem TransmitEffect.learns {node next : Node} {channel : Channel} {source : Rank}
    {outbox : Outbox} (h : TransmitEffect node next channel source outbox) :
    Learns node next (.connection ⟨.tx, channel, source, true⟩) outbox where
  toContinues := h.toContinues
  grows := h.grows
  input hinput := .inl ((h.input _).symm.trans hinput)
  binding hbound := .inl (by rwa [Node.boundPeer?, h.bindings] at hbound)
  route hroute := by
    rcases h.route hroute with hold | ⟨rfl, hbound, hdirect⟩
    · exact .inl hold
    · exact .inr (.inl ⟨channel, rfl, hbound, hdirect⟩)
  sends outbound hmem := by
    rcases h.sends outbound hmem with hannounce | ⟨bound, hbound, hforward⟩
    · exact .inl hannounce
    · exact .inr ⟨channel, source, bound, rfl, hbound, hforward⟩

theorem ForwardEffect.learns {node next : Node} {forwarder receiver : Rank}
    (h : ForwardEffect node next forwarder receiver) :
    Learns node next (.forward forwarder receiver) [] where
  toContinues := h.toContinues
  grows := by
    rcases h.ledger with hsame | ⟨base, -, hrecord⟩
    · exact hsame ▸ .refl _
    · exact hrecord ▸ Ledger.grows_recordRoute _ _ _
  input hinput := by
    left
    rcases h.ledger with hsame | ⟨base, -, hrecord⟩
    · exact hsame ▸ hinput
    · rwa [hrecord, Ledger.input?_recordRoute] at hinput
  binding hbound := .inl (by rwa [Node.boundPeer?, h.bindings] at hbound)
  route {peer route} hroute := by
    rcases h.ledger with hsame | ⟨base, hbase, hrecord⟩
    · exact .inl (hsame ▸ hroute)
    · rw [hrecord, Ledger.route?_recordRoute] at hroute
      split at hroute
      · rename_i hpeer
        subst hpeer
        cases hknown : node.ledger.route? peer with
        | some known => exact .inl (by simpa [hknown] using hroute)
        | none =>
          exact .inr (.inr ⟨forwarder, base, rfl, hbase, by simpa [hknown, eq_comm] using hroute⟩)
      · exact .inl hroute
  sends := by simp

end Router

/-- Whether an event is a message or reports that something came up. -/
def Event.isGain : Event → Bool
  | .channel event => event.connected
  | .connection event => event.connected
  | .forward _ _ => true
  | .outerAnnounce _ _ => true
  | .network _ => true
  | .failure _ => false

theorem Router.learns_handle (router : Router) (backend : Backend) {event : Event}
    (h : event.isGain = true) :
    Learns router.node (router.handle backend event).1.node event
      (outboxOf (router.handle backend event).2) := by
  cases event with
  | channel event => exact (channelEffect_handle router backend h).learns
  | connection event =>
    obtain ⟨direction, channel, source, connected⟩ := event
    obtain rfl : connected = true := h
    cases direction with
    | rx =>
      obtain ⟨heffect, houtbox⟩ := receiveEffect_handle router backend channel source
      rw [houtbox]
      exact heffect.learns
    | tx => exact (transmitEffect_handle router backend channel source).learns
  | forward forwarder receiver =>
    obtain ⟨heffect, houtbox⟩ := forwardEffect_handle router backend forwarder receiver
    rw [houtbox]
    exact heffect.learns
  | outerAnnounce announcer chassis =>
    obtain ⟨hadvances, houtbox⟩ := advances_handle_outerAnnounce router backend announcer chassis
    rw [houtbox]
    exact .of_advances hadvances _
  | network event =>
    obtain ⟨hadvances, houtbox⟩ := advances_handle_network router backend event
    rw [houtbox]
    exact .of_advances hadvances _
  | failure reason => exact absurd h (by simp [Event.isGain])

end MeshFormation
