import MeshFormation.Proofs.Formation.Begin
import MeshFormation.Proofs.Ledger.Totals
import MeshFormation.Proofs.Router.Outgoing
import MeshFormation.Proofs.Router.Sparing
import MeshFormation.Proofs.Topology.Partitions
import Mathlib.Algebra.Order.BigOperators.Group.List

/-!
# Every fabric drains

Whatever its cables and whatever the order of deliveries, a fabric comes to an end. Each entry of
the queue is charged with the deliveries that it stands for and with the reply to a completed
transmit. Each router is charged with the transmits that it has not asked for yet and with the
announcements that it holds back. Then nothing enters the queue that was not charged before, so
every delivery lowers the charge, and the charge of a new fabric bounds the deliveries that are ever
made.
-/

namespace MeshFormation

/-- The number of messages with which a node may answer a delivery, apart from those that it held
back. -/
def Delivery.replies : Delivery → Nat
  | .connection ⟨.tx, _, _, _⟩ => 1
  | _ => 0

theorem Delivery.replies_of_event {delivery : Delivery} {event : Event}
    (h : delivery.event = .ok event) : event.replies = delivery.replies := by
  cases Delivery.reads h with
  | connection completed =>
    obtain ⟨direction, channel, source, connected⟩ := completed
    cases direction <;> rfl
  | channel | network | forward | announce | failure => rfl

namespace Parcel

/-- The deliveries that an entry stands for, and the replies to them. -/
def load : Parcel → Nat
  | .delivery _ content => 1 + content.replies
  | .transmit _ _ _ _ _ => 3

theorem load_pos (parcel : Parcel) : 0 < parcel.load := by
  cases parcel with
  | delivery target content => exact Nat.lt_add_right _ Nat.one_pos
  | transmit => exact Nat.succ_pos 2

/-- The transmits that a node asked for put three deliveries each into the queue at most. -/
theorem sum_load_filterMap_le (rank : Rank) (wiring : Wiring) {made : List Attempt}
    (h : ∀ attempt ∈ made, attempt.call.isSend = false) :
    ((made.filterMap (ofAttempt rank wiring)).map load).sum ≤
      3 * (Journal.transmits ⟨made, []⟩).length := by
  induction made with
  | nil => exact Nat.le_refl 0
  | cons attempt rest ih =>
    obtain ⟨call, refusal⟩ := attempt
    have hrest := ih fun other hmem => h other (List.mem_cons_of_mem _ hmem)
    have hcall : call.isSend = false := h _ List.mem_cons_self
    simp only [Journal.transmits, List.filterMap_cons] at hrest ⊢
    cases call with
    | send receiver payload => exact absurd hcall (by simp [Call.isSend])
    | disable channel => cases refusal <;> simpa [ofAttempt] using hrest
    | lock => cases refusal <;> simpa [ofAttempt] using hrest
    | establish source channel =>
      cases refusal with
      | some refusal =>
        simp only [ofAttempt, List.length_cons]
        omega
      | none =>
        simp only [ofAttempt, List.length_cons]
        cases wiring.get? channel with
        | none =>
          simp only [Option.map_none]
          omega
        | some farEnd =>
          simp only [Option.map_some, List.map_cons, List.sum_cons, load]
          omega

/-- Entries that stand for one delivery each, without a reply. -/
theorem sum_load_eq_length {queue : List Parcel} (h : ∀ entry ∈ queue, entry.load = 1) :
    (queue.map load).sum = queue.length := by
  induction queue with
  | nil => rfl
  | cons first rest ih =>
    rw [List.map_cons, List.sum_cons, List.length_cons, h first List.mem_cons_self,
      ih fun entry hmem => h entry (List.mem_cons_of_mem _ hmem), Nat.add_comm]

theorem sum_load_parcels (outbox : Outbox) : (outbox.parcels.map load).sum = outbox.length := by
  rw [sum_load_eq_length, Outbox.parcels, List.length_map]
  intro entry hmem
  obtain ⟨outbound, -, rfl⟩ := List.mem_map.1 hmem
  rfl

end Parcel

/-- The deliveries that a router may still cause of itself: three for each transmit that it has not
asked for yet, and one for each announcement that it holds back. -/
def Router.reserve (router : Router) : Nat :=
  3 * (11 - router.node.journal.transmits.length) + router.heldBack

namespace Site

variable {site : Site} {event : Event}

theorem sparing_after (h : site.service.router.Sparing) (event : Event) :
    (site.after event).service.router.Sparing :=
  (h.handle site.wiring.backend event).sending _

/-- What an event puts into the queue is taken from what the router may still cause, but for a
reply. -/
theorem sum_load_add_reserve_le (h : site.service.router.Sparing) (rank : Rank) (event : Event) :
    ((site.parcels rank event).map Parcel.load).sum + (site.after event).service.router.reserve ≤
      site.service.router.reserve + event.replies := by
  obtain ⟨hattempts, hsend⟩ := site.attempts_handled event
  have htransmits : (site.after event).service.router.node.journal.transmits.length =
      site.service.router.node.journal.transmits.length +
        (Journal.transmits ⟨site.made event, []⟩).length := by
    have hsending : (site.after event).service.router.node.journal.transmits =
        (site.handled event).1.node.journal.transmits := Node.transmits_sending _ _
    rw [hsending, Journal.transmits, hattempts, List.filterMap_append, List.length_append]
    rfl
  have hmost := (site.sparing_after h event).most
  have hmade := Parcel.sum_load_filterMap_le rank site.wiring hsend
  have hmessages := site.service.router.length_outbox_add_heldBack_le site.wiring.backend event
  have hheld : (site.after event).service.router.heldBack =
      (site.service.router.handle site.wiring.backend event).1.heldBack := rfl
  rw [parcels, List.map_append, List.sum_append, Parcel.sum_load_parcels, handled]
  simp only [Router.reserve, hheld]
  omega

end Site

namespace Fabric

variable {fabric next rest start : Fabric} {before behind : List Parcel} {parcel : Parcel}
  {target : Rank} {delivery : Delivery} {index : Nat}

/-- A delivery is an event at the site of its target, or it leaves the sites and the queue as they
are. -/
theorem deliverTo_cases (fabric : Fabric) (target : Rank) (delivery : Delivery) :
    ((fabric.deliverTo target delivery).sites = fabric.sites ∧
        (fabric.deliverTo target delivery).queue = fabric.queue) ∨
      ∃ site event, fabric.sites.get? target = some site ∧ delivery.event = .ok event ∧
        (fabric.deliverTo target delivery).sites = fabric.sites.insert target (site.after event) ∧
          (fabric.deliverTo target delivery).queue = fabric.queue ++ site.parcels target event := by
  cases hsite : fabric.sites.get? target with
  | none =>
    rw [deliverTo_of_none hsite]
    exact .inl ⟨sites_noteDiscovery _ _ _, queue_noteDiscovery _ _ _⟩
  | some site =>
    cases hevent : delivery.event with
    | ok event =>
      obtain ⟨hsites, hqueue, -⟩ := deliverTo_of_site hsite hevent
      exact .inr ⟨site, event, rfl, rfl, hsites, hqueue⟩
    | error fault =>
      left
      simp only [deliverTo, sites_noteDiscovery, queue_noteDiscovery, hsite,
        Service.deliver, hevent, List.drop_length, List.filterMap_nil, List.append_nil, and_true]
      apply Table.ext_get?
      intro rank
      rw [Table.get?_insert]
      split
      · rename_i heq
        rw [heq, hsite]
      · rfl

/-- The deliveries that are still to come at most. -/
def charge (fabric : Fabric) : Nat :=
  (fabric.queue.map Parcel.load).sum +
    (fabric.sites.rows.map fun row => row.2.service.router.reserve).sum

def Sparing (fabric : Fabric) : Prop :=
  ∀ rank site, fabric.sites.get? rank = some site → site.service.router.Sparing

theorem Sparing.deliverTo (h : fabric.Sparing) (target : Rank) (delivery : Delivery) :
    (fabric.deliverTo target delivery).Sparing := by
  intro rank site hsite
  rcases fabric.deliverTo_cases target delivery with
    ⟨hsites, -⟩ | ⟨old, event, hold, -, hsites, -⟩
  · exact h rank site (hsites ▸ hsite)
  · rw [hsites, Table.get?_insert] at hsite
    split at hsite
    · obtain rfl := Option.some.inj hsite
      exact Site.sparing_after (h _ _ hold) event
    · exact h _ _ hsite

/-- A delivery adds its replies to the charge at most. -/
theorem Sparing.charge_deliverTo_le (h : fabric.Sparing) (target : Rank) (delivery : Delivery) :
    (fabric.deliverTo target delivery).charge ≤ fabric.charge + delivery.replies := by
  rcases fabric.deliverTo_cases target delivery with
    ⟨hsites, hqueue⟩ | ⟨site, event, hsite, hevent, hsites, hqueue⟩
  · rw [charge, hsites, hqueue]
    exact Nat.le_add_right _ _
  · have hsum := Table.sum_insertRow (fun site => site.service.router.reserve) target
      (site.after event) fabric.sites.ascending
    have hold : fabric.sites.rows.lookup target = some site := hsite
    rw [hold, Option.map_some, Option.getD_some] at hsum
    have hload := Site.sum_load_add_reserve_le (h _ _ hsite) target event
    rw [Delivery.replies_of_event hevent] at hload
    rw [charge, charge, hsites, hqueue, List.map_append, List.sum_append]
    change _ + ((Table.insertRow target (site.after event) fabric.sites.rows).map fun row =>
      row.2.service.router.reserve).sum ≤ _
    omega

theorem Takes.charge (h : fabric.Takes before parcel behind rest) :
    rest.charge + parcel.load = fabric.charge := by
  rw [Fabric.charge, Fabric.charge, h.left, h.queue, h.sites]
  simp only [List.map_append, List.sum_append, List.map_cons, List.sum_cons]
  omega

theorem Takes.sparing (h : fabric.Takes before parcel behind rest) (hfabric : fabric.Sparing) :
    rest.Sparing := by
  intro rank site hsite
  exact hfabric rank site (h.sites ▸ hsite)

/-- Every step delivers something, and takes it from the charge. -/
theorem Sparing.step (h : fabric.Sparing) (hstep : fabric.step? index = some next) :
    next.Sparing ∧ fabric.delivered < next.delivered ∧
      next.delivered + next.charge ≤ fabric.delivered + fabric.charge := by
  obtain ⟨before, parcel, behind, rest, htakes, -, hparcel, rfl⟩ := step?_eq_some hstep
  have hcounted := delivered_of_step? hstep hparcel
  have hcharge := htakes.charge
  have hrest := htakes.sparing h
  cases parcel with
  | delivery target delivery =>
    have hle := hrest.charge_deliverTo_le target delivery
    simp only [deliver, Parcel.weight, Parcel.load] at hcounted hcharge ⊢
    exact ⟨hrest.deliverTo target delivery, by omega, by omega⟩
  | transmit source near channel far farChannel =>
    have hmiddle := hrest.deliverTo near (.connection ⟨.tx, channel, source, true⟩)
    have htransmit := hrest.charge_deliverTo_le near (.connection ⟨.tx, channel, source, true⟩)
    have hreceive := hmiddle.charge_deliverTo_le far (.connection ⟨.rx, farChannel, source, true⟩)
    simp only [deliver, Parcel.weight, Parcel.load, Delivery.replies]
      at hcounted hcharge htransmit hreceive ⊢
    exact ⟨hmiddle.deliverTo far _, by omega, by omega⟩

theorem Reachable.charge (hstart : start.Sparing) (h : Reachable start fabric) :
    fabric.Sparing ∧ start.delivered ≤ fabric.delivered ∧
      fabric.delivered + fabric.charge ≤ start.delivered + start.charge := by
  induction h with
  | start => exact ⟨hstart, Nat.le_refl _, Nat.le_refl _⟩
  | step reached step ih =>
    obtain ⟨hsparing, hmore, hcharge⟩ := ih
    obtain ⟨hnext, hdelivers, hless⟩ := hsparing.step step
    exact ⟨hnext, hmore.trans hdelivers.le, hless.trans hcharge⟩

theorem eq_nil_of_charge (h : fabric.charge = 0) : fabric.queue = [] := by
  cases hqueue : fabric.queue with
  | nil => rfl
  | cons first rest =>
    rw [Fabric.charge, hqueue, List.map_cons, List.sum_cons] at h
    have hpos := first.load_pos
    omega

/-! ## Runs -/

/-- A rule that always chooses an entry that is there. -/
def Order.Picks (order : Order) : Prop :=
  ∀ fabric, fabric.queue ≠ [] → order fabric < fabric.queue.length

theorem picks_inOrder : Order.Picks inOrder :=
  fun _ hqueue => List.length_pos_of_ne_nil hqueue

/-- A run that may make as many deliveries as the fabric is charged with empties the queue. -/
theorem Sparing.runRounds {order : Order} (horder : order.Picks) {first rounds : Nat}
    (h : fabric.Sparing) (hreached : Reachable start fabric) (hfirst : first ≤ fabric.delivered)
    (hrounds : fabric.charge ≤ rounds)
    (hlimit : fabric.delivered + fabric.charge ≤ first + deliveryLimit) :
    Reachable start (Fabric.runRounds order first rounds fabric) ∧
      (Fabric.runRounds order first rounds fabric).queue = [] := by
  induction rounds generalizing fabric with
  | zero => exact ⟨hreached, eq_nil_of_charge (Nat.le_zero.1 hrounds)⟩
  | succ rounds ih =>
    rw [Fabric.runRounds]
    split
    · split
      · rename_i hstep
        refine ⟨hreached, Decidable.byContradiction fun hqueue => ?_⟩
        rw [step?, List.getElem?_eq_getElem (horder fabric hqueue)] at hstep
        exact absurd hstep (by simp)
      · rename_i next hstep
        obtain ⟨hnext, hmore, hless⟩ := h.step hstep
        exact ih hnext (hreached.step hstep) (by omega) (by omega) (by omega)
    · exact ⟨hreached, eq_nil_of_charge (by omega)⟩

/-- No more than a number of deliveries are ever made from a fabric, whatever entry each step takes.
If a run may make that many, it empties the queue from any state on the way. -/
structure Drains (start : Fabric) (bound : Nat) : Prop where
  most : ∀ {fabric}, Reachable start fabric → fabric.delivered ≤ start.delivered + bound
  empties : bound ≤ deliveryLimit → ∀ {order : Order}, order.Picks → ∀ {fabric},
    Reachable start fabric →
      Reachable start (fabric.run order) ∧ (fabric.run order).queue = []

theorem Sparing.drains {bound : Nat} (h : start.Sparing) (hbound : start.charge ≤ bound) :
    start.Drains bound := by
  constructor
  case most =>
    intro fabric hreached
    obtain ⟨-, -, hcharge⟩ := hreached.charge h
    omega
  case empties =>
    intro hlimit order horder fabric hreached
    obtain ⟨hsparing, hmore, hcharge⟩ := hreached.charge h
    exact hsparing.runRounds horder hreached (Nat.le_refl _) (by omega) (by omega)

/-! ## The charge of a new fabric -/

/-- A node that starts asks for the hostnames of its counterparts. -/
theorem length_hostnames_of_start {topology : Topology} {expected : Expected} {node : Node}
    {forwarding : Forwarding}
    (h : Forwarding.start topology.profile (.start topology expected) = (node, .ok forwarding)) :
    node.journal.hostnames.length = (topology.counterparts topology.localRank).length := by
  cases hprofile : topology.profile with
  | pair | cube =>
    rw [hprofile] at h
    obtain ⟨rfl, -⟩ := Prod.mk.inj h
    simp [Topology.counterparts, hprofile, Node.start, Journal.empty, Journal.hostnames]
  | hypercube =>
    rw [hprofile, Forwarding.start, HypercubeForwarding.start] at h
    cases hhosts : HypercubeForwarding.hostnames (Node.start topology expected).topology
        ((Node.start topology expected).topology.counterparts
          (Node.start topology expected).rank) with
    | error fault =>
      rw [hhosts] at h
      exact absurd (Prod.mk.inj h).2 (by simp)
    | ok hosts =>
      rw [hhosts] at h
      obtain ⟨rfl, -⟩ := Prod.mk.inj h
      have hranks : hosts.map Prod.fst = topology.counterparts topology.localRank :=
        HypercubeForwarding.map_fst_hostnames hhosts
      rw [Forwarding.foldl_notify_hostname, ← hranks, List.length_map]
      simp [Node.start, Journal.empty, Journal.hostnames, List.filterMap_map]

section Create

variable {members : List Member} {request : ProfileRequest} {links : List Link}

theorem size_le_of_addSites {all : List Member} {cabling : Cabling} {sites result : Table Site}
    (h : addSites all request cabling members sites = .ok result) :
    result.size ≤ sites.size + members.length := by
  induction members generalizing sites with
  | nil =>
    obtain rfl := Except.ok.inj h
    exact Nat.le_refl _
  | cons member rest ih =>
    rw [addSites_cons] at h
    cases hsite : startSite all request cabling member.rank with
    | error error =>
      rw [hsite] at h
      exact absurd h (by simp [Except.bind])
    | ok site =>
      rw [hsite] at h
      have hrest := ih h
      have hinsert := sites.size_insert member.rank site
      rw [List.length_cons]
      split at hinsert <;> omega

/-- A site of a new fabric may ask for all its transmits, and holds back nothing. -/
theorem Created.of_site (h : Created members request links fabric) {rank : Rank} {site : Site}
    (hsite : fabric.sites.get? rank = some site) : site.service.router.Sparing ∧
      site.service.router.reserve = 33 ∧
        ∃ topology, Topology.ofMembers members rank request = .ok topology ∧
        site.service.journal.hostnames.length + 1 = topology.partitionCount := by
  obtain ⟨topology, forwarding, node, htopology, hstart, rfl⟩ := startSite_eq_ok (h.startSite hsite)
  have hcreate : (Router.create topology.profile topology).2 = .ok ⟨node, forwarding⟩ := by
    rw [Router.create, if_neg (not_not_intro rfl), hstart]
  refine ⟨Router.sparing_create htopology hcreate, ?_, topology, htopology, ?_⟩
  · obtain ⟨hunset, hosts, hnode⟩ := Router.create_eq_ok hcreate
    rw [Router.reserve, Router.heldBack_of_none hunset, hnode]
    rfl
  · have hlength := length_hostnames_of_start hstart
    rw [← Topology.length_counterparts htopology
      (Topology.hasMember_localRank htopology), ← hlength]
    rfl

/-- A new fabric is charged with its channel events and its network links, and with three deliveries
for each of the eleven transmits of a node. -/
theorem Created.charge_le (h : Created members request links fabric) {partitions : Nat}
    (hpartitions : ∀ {rank topology}, Topology.ofMembers members rank request = .ok topology →
      topology.partitionCount = partitions)
    (hsize : fabric.sites.size ≤ members.length) :
    fabric.charge ≤
      2 * links.length + members.length * (partitions - 1) + 33 * members.length := by
  have hdiscoveries : (((Cabling.ends links).map (discovery members)).map Parcel.load).sum =
      2 * links.length := by
    rw [Parcel.sum_load_eq_length, List.length_map, Cabling.length_ends]
    intro entry hmem
    obtain ⟨cableEnd, -, rfl⟩ := List.mem_map.1 hmem
    rfl
  have hsites : ∀ row ∈ fabric.sites.rows, row.2.service.router.reserve = 33 ∧
      row.2.service.journal.hostnames.length ≤ partitions - 1 := by
    intro row hrow
    obtain ⟨-, hreserve, topology, htopology, hhosts⟩ := h.of_site (Table.get?_eq_some_iff.2 hrow)
    rw [hpartitions htopology] at hhosts
    exact ⟨hreserve, by omega⟩
  have hlinks : ((networkLinks fabric.sites).map Parcel.load).sum ≤
      fabric.sites.size * (partitions - 1) := by
    rw [Parcel.sum_load_eq_length, networkLinks, List.length_flatMap, Table.size, ← List.length_map]
    · apply List.sum_le_card_nsmul
      intro amount hmem
      obtain ⟨row, hrow, rfl⟩ := List.mem_map.1 hmem
      rw [List.length_map]
      exact (hsites row hrow).2
    · intro entry hmem
      obtain ⟨rank, event, rfl⟩ := of_mem_networkLinks hmem
      rfl
  have hreserve : (fabric.sites.rows.map fun row => row.2.service.router.reserve).sum ≤
      fabric.sites.size * 33 := by
    rw [Table.size, ← List.length_map]
    apply List.sum_le_card_nsmul
    intro amount hmem
    obtain ⟨row, hrow, rfl⟩ := List.mem_map.1 hmem
    exact (hsites row hrow).1.le
  rw [charge, h.queue, List.map_append, List.sum_append, hdiscoveries]
  have hmul := Nat.mul_le_mul_right (partitions - 1) hsize
  omega

/-- Members that get a topology agree on the number of partitions. -/
theorem exists_partitionCount (members : List Member) (request : ProfileRequest) :
    ∃ partitions, ∀ {rank topology}, Topology.ofMembers members rank request = .ok topology →
      topology.partitionCount = partitions := by
  by_cases hsome : ∃ rank topology, Topology.ofMembers members rank request = .ok topology
  · obtain ⟨rank, topology, htopology⟩ := hsome
    exact ⟨topology.partitionCount, fun hother => Topology.partitionCount_congr htopology hother⟩
  · exact ⟨1, fun hother => absurd ⟨_, _, hother⟩ hsome⟩

/-- A fabric drains for any links, be they of a node to itself, parallel, or to ranks that are no
members. Each link is two deliveries, each node has a network link to each of the other partitions,
and each of its eleven transmits is two deliveries and a reply. -/
theorem drains_of_create (h : create members request links = .ok start) :
    start.delivered = 0 ∧ ∃ partitions,
      (∀ {rank topology}, Topology.ofMembers members rank request = .ok topology →
        topology.partitionCount = partitions) ∧
      start.Drains
        (2 * links.length + members.length * (partitions - 1) + 33 * members.length) := by
  have hcreated := created_of_create h
  obtain ⟨hdelivered, hsize⟩ : start.delivered = 0 ∧ start.sites.size ≤ members.length := by
    rw [create] at h
    split at h
    · exact absurd h (by simp)
    · rename_i sites hsites
      obtain rfl := Except.ok.inj h
      have hsize := size_le_of_addSites hsites
      rw [Table.size_empty, Nat.zero_add] at hsize
      exact ⟨rfl, hsize⟩
  have hsparing : start.Sparing := fun rank site hsite => (hcreated.of_site hsite).1
  obtain ⟨partitions, hpartitions⟩ := exists_partitionCount members request
  exact ⟨hdelivered, partitions, hpartitions,
    hsparing.drains (hcreated.charge_le hpartitions hsize)⟩

end Create

/-- Two nodes with three cables between them, one cable of a node to itself, and one that leads
nowhere. -/
def tangle : List Link := [(0, 1), (1, 0), (1, 1), (0, 1), (0, 7)]

/-- Each node transmits over one of the cables, so four deliveries follow the ten channel events. -/
theorem drains_of_create_tangle : ∃ start, create (Layout.members 2) .auto tangle = .ok start ∧
    start.delivered = 0 ∧ start.Drains 76 ∧ (start.run inOrder).queue = [] ∧
      (start.run inOrder).delivered = 14 := by
  have hrun : (create (Layout.members 2) .auto tangle).toOption.map
      (fun start => (start.run inOrder).delivered) = some 14 := by decide +kernel
  have hpair : (Topology.ofMembers (Layout.members 2) 0 .auto).toOption.map
      Topology.partitionCount = some 1 := by decide +kernel
  obtain ⟨start, hstart, hcount⟩ := Option.map_eq_some_iff.1 hrun
  obtain ⟨topology, htopology, hone⟩ := Option.map_eq_some_iff.1 hpair
  have hcreate := eq_ok_of_toOption hstart
  obtain ⟨hzero, partitions, hpartitions, hdrains⟩ := drains_of_create hcreate
  obtain rfl : 1 = partitions := hone.symm.trans (hpartitions (eq_ok_of_toOption htopology))
  exact ⟨start, hcreate, hzero, hdrains,
    (hdrains.empties (by decide) picks_inOrder .start).2, hcount⟩

end Fabric

end MeshFormation
