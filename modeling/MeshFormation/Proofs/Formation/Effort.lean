import MeshFormation.Proofs.Formation.Advance
import Mathlib.Algebra.BigOperators.Group.List.Basic

/-!
# Every delivery brings an ensemble nearer to its end

Each entry of the queue has a cost that covers all that its delivery puts into the queue, apart from
the transmits that a node asks for at the delivery. Those are bounded in number for each node. So
the costs in the queue and the transmits that may still come go down with every delivery.
-/

namespace MeshFormation

namespace Parcel

/-- The deliveries that an entry stands for, and the greatest number of messages that they make
nodes send. -/
def cost : Parcel → Nat
  | .delivery _ (.channel _) => 8
  | .delivery _ _ => 1
  | .transmit _ _ _ _ _ => 3

theorem cost_pos (parcel : Parcel) : 0 < parcel.cost := by
  unfold cost
  split <;> omega

theorem sum_cost_append (first second : List Parcel) :
    ((first ++ second).map cost).sum = (first.map cost).sum + (second.map cost).sum := by
  rw [List.map_append, List.sum_append]

/-- Nothing is left to do only if nothing waits. -/
theorem eq_nil_of_sum_cost {queue : List Parcel} (h : (queue.map cost).sum = 0) : queue = [] := by
  cases queue with
  | nil => rfl
  | cons first rest =>
    rw [List.map_cons, List.sum_cons] at h
    have hpos := first.cost_pos
    omega

end Parcel

/-- Two sums over a list without repetitions that differ in one place. -/
theorem sum_map_of_mem {list : List Rank} {before after : Rank → Nat} {target : Rank} {amount : Nat}
    (hnodup : list.Nodup) (hmem : target ∈ list) (htarget : after target + amount = before target)
    (hother : ∀ rank, rank ≠ target → after rank = before rank) :
    (list.map after).sum + amount = (list.map before).sum := by
  induction list with
  | nil => exact absurd hmem (by simp)
  | cons head rest ih =>
    obtain ⟨hhead, hrest⟩ := List.nodup_cons.1 hnodup
    rw [List.map_cons, List.map_cons, List.sum_cons, List.sum_cons]
    rcases List.mem_cons.1 hmem with rfl | hmem
    · have hsame : rest.map after = rest.map before := by
        apply List.map_congr_left
        intro rank hrank
        apply hother
        rintro rfl
        exact hhead hrank
      rw [hsame]
      omega
    · have hne : head ≠ target := by
        rintro rfl
        exact hhead hmem
      have hsum := ih hrest hmem
      rw [hother head hne]
      omega

namespace Fabric

variable {b : Installation} {fabric next : Fabric} {front before behind : List Parcel}
  {parcel : Parcel} {target : Rank} {event : Event} {site : Site} {outbox : Outbox}

/-- The greatest number of transmits that a node makes. -/
def requestLimit : Nat := 11

def spareAt (fabric : Fabric) (rank : Rank) : Nat :=
  requestLimit - ((fabric.node? rank).map fun node => node.journal.requests.length).getD 0

/-- A bound on the deliveries that are still to be made. -/
def effort (b : Blueprint) (fabric : Fabric) : Nat :=
  (fabric.queue.map Parcel.cost).sum + 3 * (b.topology.ranks.map fabric.spareAt).sum

/-- An entry costs more than what its event sends and what its second half costs. -/
theorem Starts.share_lt_cost (h : Starts parcel front target event) :
    event.share + (front.map Parcel.cost).sum < parcel.cost := by
  cases h with
  | transmit => simp [Event.share, arrival, Parcel.cost]
  | delivery readable incoming =>
    cases Delivery.reads readable with
    | connection completed => simp [Event.share, Parcel.cost, incoming completed rfl]
    | _ => simp [Event.share, Parcel.cost]

namespace Occurs

variable (h : Occurs b fabric next front before parcel behind target site event outbox)
  (hforming : Forming b fabric) (hvalid : b.Valid)
  (htraced : Traced b.cabling next)
include h hforming hvalid htraced

omit htraced in
theorem sum_spareAt : (b.topology.ranks.map next.spareAt).sum + (site.due event).length =
    (b.topology.ranks.map fabric.spareAt).sum := by
  have hmember := hforming.hasMember h.hosts
  refine sum_map_of_mem b.topology.nodup_ranks (Topology.mem_ranks_iff.2 hmember) ?_ ?_
  · have hlength := h.rested.length_requests_le hvalid hmember
    have hlimit := (site.after event).service.router.forwarding.limit_le
    have hrequests := congrArg List.length (site.requests_after event)
    have hsame : (site.after event).service.router.node.journal.requests =
        (site.after event).node.journal.requests := rfl
    rw [List.length_append] at hrequests
    rw [hsame] at hlength
    simp only [spareAt, requestLimit, h.node?_target, node?_of_site h.hosts, Option.map_some,
      Option.getD_some]
    omega
  · intro rank hrank
    rw [spareAt, h.node?, if_neg hrank, spareAt]

omit hvalid in
theorem sum_cost_parcels : ((site.parcels target event).map Parcel.cost).sum =
    3 * (site.due event).length + outbox.length := by
  have htransmits : (((site.due event).filterMap (Parcel.ofRequest target site.wiring)).map
      Parcel.cost).sum = (site.due event).length * 3 := by
    rw [← length_transmits target (h.wired_of_due hforming htraced), ← List.length_map Parcel.cost]
    refine List.sum_eq_card_nsmul _ 3 fun cost hcost => ?_
    obtain ⟨entry, hmem, rfl⟩ := List.mem_map.1 hcost
    obtain ⟨source, channel, far, farChannel, rfl⟩ := of_mem_transmits hmem
    rfl
  have hmessages : (outbox.parcels.map Parcel.cost).sum = outbox.length * 1 := by
    rw [Outbox.parcels, List.map_map, ← List.length_map (Parcel.cost ∘ _)]
    refine List.sum_eq_card_nsmul _ 1 fun cost hcost => ?_
    obtain ⟨outbound, -, rfl⟩ := List.mem_map.1 hcost
    rfl
  rw [Site.parcels_eq, Parcel.sum_cost_append, h.sent, htransmits, hmessages]
  omega

theorem effort_lt : next.effort b.toBlueprint < fabric.effort b.toBlueprint := by
  have hshare := h.moves.share
  have hcost := h.starts.share_lt_cost
  have hspare := h.sum_spareAt hforming hvalid
  have hnew := h.sum_cost_parcels hforming htraced
  rw [effort, effort, h.left, h.taken]
  simp only [Parcel.sum_cost_append, List.map_cons, List.sum_cons]
  omega

end Occurs

end Fabric

end MeshFormation
