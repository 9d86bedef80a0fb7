import MeshFormation.Proofs.Fabric.Quiescence
import MeshFormation.Proofs.Formation.Requests
import MeshFormation.Proofs.Router.Attachment

/-!
# Cables that are not used

Between two nodes there may be more cables than one, of which an ensemble uses one. A node disables
a channel to a peer that it has bound to another channel, and changes nothing else.

The part of a fabric that is in use has the same nodes, but nothing is said there of the channels of
unused cables. A delivery is a delivery in the part in use too, unless it tells a node of such a
channel.
-/

namespace MeshFormation

/-! ## A channel that is turned down -/

/-- The node that had a channel disabled. -/
def Node.disabling (node : Node) (channel : Channel) : Node :=
  { node with journal := { node.journal with
      attempts := node.journal.attempts ++ [⟨.disable channel, none⟩] } }

def Router.disabling (router : Router) (channel : Channel) : Router :=
  { router with node := router.node.disabling channel }

def Site.disabling (site : Site) (channel : Channel) : Site :=
  { site with service := ⟨site.service.router.disabling channel⟩ }

namespace Node

variable {node : Node} {event : ChannelEvent} {source : Rank} {channel other : Channel}

@[simp] theorem requests_disabling (node : Node) (channel : Channel) :
    (node.disabling channel).journal.requests = node.journal.requests := by
  simp [Journal.requests, Journal.accepted, disabling]

@[simp] theorem locks_disabling (node : Node) (channel : Channel) :
    (node.disabling channel).journal.locks = node.journal.locks := by
  simp [Journal.locks, Journal.accepted, disabling]

theorem mem_accepted_disabling {call : Call} : call ∈ (node.disabling channel).journal.accepted ↔
    call ∈ node.journal.accepted ∨ call = .disable channel := by
  rw [Journal.mem_accepted_iff, Journal.mem_accepted_iff, disabling, List.mem_append,
    List.mem_singleton]
  simp

/-- A channel event that tells the truth and is no repetition, while the peer is bound or the mesh
is locked. -/
structure Declines (node : Node) (event : ChannelEvent) : Prop where
  connected : event.connected = true
  working : node.isFailed = false
  lost : node.lostChannels.contains event.channel = false
  distinct : event.peer ≠ node.rank
  chassis : node.topology.chassis? event.peer = some event.chassis
  partition : node.topology.sharePartition node.rank event.peer = true
  free : node.boundPeer? event.channel = none
  taken : node.progress.locked = true ∨ ∃ other, node.boundPeer? other = some event.peer

theorem Declines.screening (h : node.Declines event) :
    ∃ reason, node.screening event = .reject reason := by
  cases hscreening : node.screening event with
  | reject reason => exact ⟨reason, rfl⟩
  | duplicate =>
    have hbound := (screening_eq_duplicate_iff.1 hscreening).2
    exact absurd (h.free.symm.trans hbound) (by simp)
  | fresh =>
    obtain ⟨-, -, hunlocked, halone⟩ := screening_eq_fresh_iff.1 hscreening
    rcases h.taken with hlocked | ⟨other, hother⟩
    · exact absurd (hunlocked.symm.trans hlocked) (by simp)
    · exact absurd hother (halone other)

end Node

@[simp] theorem Router.requests_disabling (router : Router) (channel : Channel) :
    (router.disabling channel).node.journal.requests = router.node.journal.requests :=
  Node.requests_disabling router.node channel

@[simp] theorem Site.requests_disabling (site : Site) (channel : Channel) :
    (site.disabling channel).node.journal.requests = site.node.journal.requests :=
  Node.requests_disabling site.node channel

namespace Router

variable {router : Router} {wiring : Wiring} {event : ChannelEvent}

theorem handle_of_declines (h : router.node.Declines event) :
    router.handle wiring.backend (.channel event) = (router.disabling event.channel, .ok []) := by
  obtain ⟨reason, hreason⟩ := h.screening
  rw [handle, if_neg (by simp [h.working])]
  simp only [channelChanged, h.connected, Bool.not_true, Bool.false_eq_true, if_false, hreason]
  rw [Node.refuseChannel, Node.request_backend]
  · rfl
  · rfl

end Router

theorem Site.after_of_declines {site : Site} {event : ChannelEvent} (h : site.node.Declines event) :
    site.after (.channel event) = site.disabling event.channel ∧
      (site.handled (.channel event)).2 = .ok [] ∧
        ∀ rank, site.parcels rank (.channel event) = [] := by
  have hhandled : site.handled (.channel event) =
      (site.service.router.disabling event.channel, .ok []) := Router.handle_of_declines h
  refine ⟨?_, ?_, fun rank => ?_⟩
  · rw [Site.after, hhandled]
    simp [Router.outboxOf, Site.disabling, Router.disabling]
  · rw [hhandled]
  · have hmade : site.made (.channel event) = [⟨.disable event.channel, none⟩] := by
      rw [Site.made, hhandled]
      exact List.drop_left
    rw [Site.parcels, hmade, hhandled]
    rfl

/-! ## The part in use -/

/-- Whether an entry is not about a channel of an unused cable. -/
def Parcel.inUse (used : Rank → Channel → Bool) : Parcel → Bool
  | .delivery target (.channel event) => used target event.channel
  | _ => true

namespace Fabric

variable {used : Rank → Channel → Bool} {cabling : Cabling} {fabric rest : Fabric}
  {before behind : List Parcel} {parcel : Parcel} {source near far target receiver rank : Rank}
  {channel : Channel} {delivery : Delivery}

/-- The fabric without what is said of the channels of unused cables. -/
def inUse (fabric : Fabric) (used : Rank → Channel → Bool) : Fabric :=
  { fabric with
    queue := fabric.queue.filter (Parcel.inUse used)
    knownChannels := fabric.knownChannels.filter fun known => used known.1 known.2 }

@[simp] theorem sites_inUse (fabric : Fabric) (used : Rank → Channel → Bool) :
    (fabric.inUse used).sites = fabric.sites := rfl

@[simp] theorem errors_inUse (fabric : Fabric) (used : Rank → Channel → Bool) :
    (fabric.inUse used).errors = fabric.errors := rfl

@[simp] theorem node?_inUse (fabric : Fabric) (used : Rank → Channel → Bool) (rank : Rank) :
    (fabric.inUse used).node? rank = fabric.node? rank := rfl

theorem mem_queue_inUse : parcel ∈ (fabric.inUse used).queue ↔
    parcel ∈ fabric.queue ∧ parcel.inUse used = true :=
  List.mem_filter

theorem mem_known_inUse : (rank, channel) ∈ (fabric.inUse used).knownChannels ↔
    (rank, channel) ∈ fabric.knownChannels ∧ used rank channel = true :=
  List.mem_filter

theorem inUse_all (fabric : Fabric) : (fabric.inUse fun _ _ => true) = fabric := by
  have hparcel : Parcel.inUse (fun _ _ => true) = fun _ => true := by
    funext parcel
    unfold Parcel.inUse
    split <;> rfl
  rw [inUse, hparcel, List.filter_true, List.filter_true]

/-! ## Deliveries -/

theorem inUse_noteDiscovery (hused : Parcel.inUse used (.delivery target delivery) = true) :
    (fabric.noteDiscovery target delivery).inUse used =
      (fabric.inUse used).noteDiscovery target delivery := by
  cases delivery with
  | channel event =>
    have hchannel : used target event.channel = true := hused
    cases hconnected : event.connected <;> simp [noteDiscovery, inUse, hconnected, hchannel]
  | _ => rfl

/-- Nothing new is said of a channel when a site handles a delivery. -/
theorem filter_new (attempts : List Attempt) (wiring : Wiring) :
    (attempts.filterMap (Parcel.ofAttempt target wiring)).filter (Parcel.inUse used) =
      attempts.filterMap (Parcel.ofAttempt target wiring) := by
  rw [List.filter_eq_self]
  intro parcel hmem
  obtain ⟨attempt, -, hattempt⟩ := List.mem_filterMap.1 hmem
  rcases ofAttempt_eq_some hattempt with ⟨_, _, _, _, rfl⟩ | ⟨_, _, rfl⟩
  · rfl
  · rfl

theorem inUse_deliverTo (hused : Parcel.inUse used (.delivery target delivery) = true) :
    (fabric.deliverTo target delivery).inUse used =
      (fabric.inUse used).deliverTo target delivery := by
  unfold deliverTo
  rw [← inUse_noteDiscovery hused]
  dsimp only
  rw [sites_inUse]
  cases (fabric.noteDiscovery target delivery).sites.get? target with
  | none => rfl
  | some site =>
    dsimp only
    rw [inUse, List.filter_append, filter_new]
    rfl

theorem Takes.inUse (h : fabric.Takes before parcel behind rest)
    (hused : parcel.inUse used = true) :
    (fabric.inUse used).Takes (before.filter (Parcel.inUse used)) parcel
      (behind.filter (Parcel.inUse used)) (rest.inUse used) where
  queue := by
    rw [Fabric.inUse, h.queue, List.filter_append, List.filter_cons_of_pos hused]
  left := by
    rw [Fabric.inUse, h.left, List.filter_append]
  sites := h.sites
  known := by
    rw [Fabric.inUse, Fabric.inUse, h.known]
  errors := h.errors

theorem Takes.queue_inUse (h : fabric.Takes before parcel behind rest)
    (hunused : parcel.inUse used = false) :
    (rest.inUse used).queue = (fabric.inUse used).queue := by
  rw [Fabric.inUse, Fabric.inUse, h.left, h.queue, List.filter_append, List.filter_append,
    List.filter_cons_of_neg (by simp [hunused])]

theorem push_inUse (hused : parcel.inUse used = true) :
    (fabric.push parcel).inUse used = (fabric.inUse used).push parcel := by
  rw [push, push, inUse, inUse, List.filter_cons_of_pos hused]

/-- An entry that is first in its turn is so in the part in use. -/
theorem any_isControlTo_inUse (hfirst : before.any (isControlTo target) = false) :
    (before.filter (Parcel.inUse used)).any (isControlTo target) = false := by
  rw [List.any_eq_false] at *
  exact fun parcel hmem => hfirst parcel (List.mem_of_mem_filter hmem)

/-! ## What holds of the fabric holds of the part in use -/

theorem arrival_mem_inUse : arrival far source channel ∈ (fabric.inUse used).queue ↔
    arrival far source channel ∈ fabric.queue := by
  rw [mem_queue_inUse]
  exact and_iff_left rfl

theorem Feeds.inUse (h : fabric.Feeds cabling source near far) :
    (fabric.inUse used).Feeds cabling source near far := by
  obtain ⟨channel, farChannel, hcable, hasked, hfar, harrives⟩ := h
  exact ⟨channel, farChannel, hcable, hasked, hfar, harrives.imp_right arrival_mem_inUse.2⟩

theorem Genuine.inUse (h : fabric.Genuine cabling parcel) :
    (fabric.inUse used).Genuine cabling parcel := by
  cases parcel with
  | transmit => exact h
  | delivery target delivery =>
    obtain ⟨event, hevent, hhonest⟩ := h
    refine ⟨event, hevent, ?_⟩
    cases event with
    | forward forwarder receiver => exact Feeds.inUse hhonest
    | _ => exact hhonest

theorem Traced.inUse (h : Traced cabling fabric) : Traced cabling (fabric.inUse used) where
  wiring := h.wiring
  rank := h.rank
  member := h.member
  binding := h.binding
  queue parcel hmem := (h.queue parcel (mem_queue_inUse.1 hmem).1).inUse
  route hnode hroute := by
    obtain ⟨horigin, hdestination, hchain⟩ := h.route hnode hroute
    exact ⟨horigin, hdestination, hchain.imp fun _ _ hfeeds => hfeeds.inUse⟩

theorem Informed.inUse (h : fabric.Informed source receiver) :
    (fabric.inUse used).Informed source receiver := by
  refine h.imp_right (Or.imp_right ?_)
  rintro ⟨hnode, forwarder, hmem⟩
  exact ⟨hnode, forwarder, mem_queue_inUse.2 ⟨hmem, rfl⟩⟩

theorem Told.inUse (h : Told fabric) : Told (fabric.inUse used) where
  input hnode hne hinput := (h.input hnode hne hinput).inUse
  arrival hmem hne := (h.arrival (arrival_mem_inUse.1 hmem) hne).inUse

end Fabric

end MeshFormation
