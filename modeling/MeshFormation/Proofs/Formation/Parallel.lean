import MeshFormation.Proofs.Formation.Stall

/-!
# Parallel cables

An ensemble in which some nodes are connected by several cables forms on the cables in use, as long
as each node is told of the channel in use before it is told of another one to the same peer. The
other channels are then disabled one by one, which changes nothing else.
-/

namespace MeshFormation

/-- An event at which a node disables no channel. -/
theorem Site.disable_mem_accepted_after_iff {site : Site} {event : Event} {channel : Channel}
    (h : site.node.Asks (·.isDisable = false) (site.handled event).1.node) :
    .disable channel ∈ (site.after event).node.journal.accepted ↔
      .disable channel ∈ site.node.journal.accepted := by
  obtain ⟨made, hmade, hkind⟩ := h
  rw [Journal.mem_accepted_iff, Journal.mem_accepted_iff, node_after, Node.sending, hmade,
    List.mem_append, List.mem_append]
  refine ⟨?_, fun hmem => .inl (.inl hmem)⟩
  rintro ((hmem | hmem) | hmem)
  · exact hmem
  · exact absurd (hkind _ hmem) (by simp [Call.isDisable])
  · obtain ⟨outbound, -, heq⟩ := List.mem_map.1 hmem
    exact absurd heq (by simp)

namespace Blueprint

variable {b : Blueprint} {near : Rank} {router : Router}

theorem Rested.disabling (h : b.Rested near router) (channel : Channel) :
    b.Rested near (router.disabling channel) :=
  { h with
    nodup := (Router.requests_disabling router channel).symm ▸ h.nodup
    asked := by
      intro source other
      rw [Router.requests_disabling]
      exact h.asked
    locks := (Node.locks_disabling router.node channel).trans h.locks
    signals := h.signals }

end Blueprint

/-- Each node was told of the channel in use before it was told of another one to the same peer. The
list starts with what was told last. -/
def Installation.InOrder (b : Installation) : List (Rank × Channel) → Prop
  | [] => True
  | (node, channel) :: earlier =>
    (b.used node channel = false →
      ∀ {peer far}, b.cabling.farEnd? node channel = some (peer, far) →
        ∃ other otherFar, (node, other) ∈ earlier ∧ b.used node other = true ∧
          b.cabling.farEnd? node other = some (peer, otherFar)) ∧
    b.InOrder earlier

namespace Fabric

variable {b : Installation} {fabric next rest : Fabric} {before behind : List Parcel}
  {source near far target rank : Rank} {channel farChannel : Channel} {delivery : Delivery}
  {event : ChannelEvent} {site other : Site}

/-- One node has disabled a channel. -/
structure Disables (fabric next : Fabric) (target : Rank) (site : Site) (channel : Channel) :
    Prop where
  hosts : fabric.sites.get? target = some site
  sites : next.sites = fabric.sites.insert target (site.disabling channel)
  queue : next.queue = fabric.queue
  known : next.knownChannels = fabric.knownChannels
  errors : next.errors = fabric.errors

namespace Disables

variable (h : Disables fabric next target site channel)
include h

theorem get? (rank : Rank) : next.sites.get? rank =
    if rank = target then some (site.disabling channel) else fabric.sites.get? rank := by
  rw [h.sites, Table.get?_insert]

theorem node?_eq (rank : Rank) : next.node? rank =
    if rank = target then some (site.node.disabling channel) else fabric.node? rank := by
  rw [node?, h.get?, node?]
  split <;> rfl

theorem site_cases (hother : next.sites.get? rank = some other) :
    (rank = target ∧ other = site.disabling channel) ∨ fabric.sites.get? rank = some other := by
  rw [h.get?] at hother
  split at hother
  · rename_i heq
    exact .inl ⟨heq, (Option.some.inj hother).symm⟩
  · exact .inr hother

/-- What holds of all sites before holds of all sites after, if it does not depend on what is
disabled. -/
theorem forall_site {Holds : Rank → Site → Prop}
    (hholds : ∀ {rank}, Holds rank site → Holds rank (site.disabling channel))
    (hall : ∀ {rank other}, fabric.sites.get? rank = some other → Holds rank other)
    (hother : next.sites.get? rank = some other) : Holds rank other := by
  rcases h.site_cases hother with ⟨rfl, rfl⟩ | hold
  · exact hholds (hall h.hosts)
  · exact hall hold

/-- What does not depend on the journal holds of a node before and after. -/
theorem exists_node?_iff {Holds : Node → Prop}
    (hholds : ∀ node : Node, Holds (node.disabling channel) ↔ Holds node) :
    (∃ node, next.node? rank = some node ∧ Holds node) ↔
      ∃ node, fabric.node? rank = some node ∧ Holds node := by
  by_cases hrank : rank = target
  · subst hrank
    have hbefore : fabric.node? rank = some site.node := node?_of_site h.hosts
    have hafter : next.node? rank = some (site.node.disabling channel) :=
      node?_of_site (by rw [h.get?, if_pos rfl])
    rw [hbefore, hafter]
    simp [hholds]
  · rw [node?, h.get?, if_neg hrank, node?]

theorem done_iff (errand : Errand) : Done next errand ↔ Done fabric errand := by
  cases errand with
  | discovery node known =>
    simp only [Done, exists_and_left]
    exact h.exists_node?_iff fun _ => Iff.rfl
  | flow source far => exact h.exists_node?_iff fun _ => Iff.rfl

theorem asked_iff {known : Channel} :
    next.Asked near source known ↔ fabric.Asked near source known :=
  h.exists_node?_iff fun node => by simp [Node.mem_accepted_disabling]

theorem raised_iff (errand : Errand) : Raised b next errand ↔ Raised b fabric errand := by
  cases errand with
  | discovery => rfl
  | flow source far => simp only [Raised, h.asked_iff]

theorem routed_iff {receiver : Rank} :
    next.Routed source receiver ↔ fabric.Routed source receiver :=
  h.exists_node?_iff fun _ => Iff.rfl

theorem isSome_node?_iff : (next.node? rank).isSome = true ↔ (fabric.node? rank).isSome = true := by
  rw [h.node?_eq]
  split
  · rename_i heq
    rw [heq, node?_of_site h.hosts]
    simp
  · rfl

/-- A site that was there is there still, with the same node but for its journal. -/
theorem exists_site (Holds : Site → Prop) (hholds : Holds site → Holds (site.disabling channel))
    (hother : ∃ other, fabric.sites.get? rank = some other ∧ Holds other) :
    ∃ other, next.sites.get? rank = some other ∧ Holds other := by
  obtain ⟨other, hother, hheld⟩ := hother
  by_cases hrank : rank = target
  · subst hrank
    obtain rfl := Option.some.inj (h.hosts.symm.trans hother)
    exact ⟨_, by rw [h.get?, if_pos rfl], hholds hheld⟩
  · exact ⟨other, by rw [h.get?, if_neg hrank, hother], hheld⟩

/-- An ensemble forms on, whatever channel a node disables. -/
theorem forming (hforming : Forming b fabric) (htraced : Traced b.cabling next)
    (htold : Told next) :
    Forming b next where
  traced := htraced
  told := htold
  member := by
    intro rank
    rw [h.isSome_node?_iff]
    exact hforming.member
  rested hother :=
    h.forall_site (fun hrested => hrested.disabling channel) hforming.rested hother
  errors := h.errors.trans hforming.errors
  known := by
    intro node other
    rw [h.known, h.done_iff]
    exact hforming.known
  agenda := by
    have herrands : next.errands = fabric.errands := by rw [errands, errands, h.queue]
    rw [herrands]
    exact ⟨hforming.agenda.nodup, fun errand => by
      rw [h.raised_iff, h.done_iff]
      exact hforming.agenda.raised errand, fun errand hmem hdone =>
        hforming.agenda.undone errand hmem ((h.done_iff errand).1 hdone)⟩
  arrives := by
    intro far source other hmem
    rw [h.queue] at hmem
    obtain ⟨held, peer, hheld, hbound, hfeeds⟩ := hforming.arrives hmem
    obtain ⟨after, hafter, hbound⟩ := h.exists_site
      (fun site => site.node.boundPeer? other = some peer) id ⟨held, hheld, hbound⟩
    exact ⟨after, peer, hafter, hbound, hfeeds⟩
  departs := by
    intro near other hother
    rw [h.queue]
    refine h.forall_site (fun hdeparts => ?_) hforming.departs hother
    rw [Site.requests_disabling]
    exact hdeparts
  stated := by
    rw [h.queue]
    exact hforming.stated
  prepared := by
    rw [h.queue]
    exact hforming.prepared.mono h.routed_iff.2
  announced := by
    rw [h.queue]
    exact hforming.announced
  heard := by
    intro near other receiver hother htells
    rw [h.queue]
    have hbefore : ∃ site, fabric.sites.get? near = some site ∧
        site.service.router.forwarding.tells receiver = true := by
      rcases h.site_cases hother with ⟨rfl, rfl⟩ | hold
      · exact ⟨site, h.hosts, htells⟩
      · exact ⟨other, hold, htells⟩
    obtain ⟨speaker, hspeaker, htold⟩ := hbefore
    refine (hforming.heard hspeaker htold).imp_left fun hheard => ?_
    exact h.exists_site (fun site => site.service.router.forwarding.hears near = true) id hheard
  encoded := by
    rw [h.queue]
    exact hforming.encoded
  wanted := by
    rw [h.queue]
    exact hforming.wanted
  linked := by
    intro near other peer hother hwanted
    rw [h.queue]
    exact h.forall_site id (fun hsite hwanted => hforming.linked hsite hwanted) hother hwanted
  live hother hlive :=
    h.forall_site id (fun hsite hlive => hforming.live hsite hlive) hother hlive

end Disables

/-! ## Which channel comes first -/

theorem knownChannels_deliverTo (fabric : Fabric) (target : Rank) (delivery : Delivery) :
    (fabric.deliverTo target delivery).knownChannels =
      (fabric.noteDiscovery target delivery).knownChannels := by
  unfold deliverTo
  dsimp only
  split <;> rfl

/-- A delivery tells a node of a channel, or leaves all as well known as before. -/
theorem known_cases (fabric : Fabric) (target : Rank) (delivery : Delivery) :
    (∃ event, delivery = .channel event ∧ event.connected = true ∧
      (fabric.deliverTo target delivery).knownChannels =
        (target, event.channel) :: fabric.knownChannels) ∨
      (fabric.deliverTo target delivery).knownChannels = fabric.knownChannels := by
  rw [knownChannels_deliverTo]
  cases delivery with
  | channel event =>
    cases hconnected : event.connected with
    | true => exact .inl ⟨event, rfl, hconnected, by simp [noteDiscovery, hconnected]⟩
    | false => exact .inr (by simp [noteDiscovery, hconnected])
  | _ => exact .inr rfl

theorem inOrder_of_deliverTo
    (horder : b.InOrder (fabric.deliverTo target delivery).knownChannels) :
    b.InOrder fabric.knownChannels := by
  rcases fabric.known_cases target delivery with ⟨event, -, -, hknown⟩ | hknown
  · rw [hknown] at horder
    exact horder.2
  · rwa [hknown] at horder

theorem inOrder_of_delivers (hdelivers : fabric.Delivers next)
    (horder : b.InOrder next.knownChannels) : b.InOrder fabric.knownChannels := by
  cases hdelivers.makes with
  | delivery takes =>
    rw [← takes.known]
    exact inOrder_of_deliverTo horder
  | transmit takes =>
    rw [← takes.known]
    exact inOrder_of_deliverTo (inOrder_of_deliverTo horder)

/-! ## Deliveries -/

/-- A state in which all nodes work, on the cables in use. -/
structure Operates (b : Installation) (fabric : Fabric) : Prop where
  member : ∀ {rank}, (fabric.node? rank).isSome = true ↔ b.topology.hasMember rank = true
  topology : ∀ {rank node}, fabric.node? rank = some node → node.topology = b.topology.seenFrom rank
  working : ∀ {rank node}, fabric.node? rank = some node → node.isFailed = false
  lost : ∀ {rank node channel}, fabric.node? rank = some node →
    node.lostChannels.contains channel = false
  used : ∀ {rank node channel peer}, fabric.node? rank = some node →
    node.boundPeer? channel = some peer → b.used rank channel = true
  asked : ∀ {near source channel}, fabric.Asked near source channel → b.used near channel = true
  known : ∀ {node channel}, (node, channel) ∈ fabric.knownChannels ↔
    Done fabric (.discovery node channel)
  errors : fabric.errors = []

theorem Forming.operates (h : Forming b fabric) : Operates b fabric where
  member := h.member
  topology hnode := by
    obtain ⟨site, hsite, rfl⟩ := exists_site_of_node? hnode
    exact (h.rested hsite).topology
  working hnode := by
    obtain ⟨site, hsite, rfl⟩ := exists_site_of_node? hnode
    exact (h.rested hsite).working
  lost hnode := by
    obtain ⟨site, hsite, rfl⟩ := exists_site_of_node? hnode
    exact (h.rested hsite).lost _
  used hnode hbound := by
    obtain ⟨site, hsite, rfl⟩ := exists_site_of_node? hnode
    exact h.used_of_bound hsite hbound
  asked := by
    rintro near source channel ⟨node, hnode, hmem⟩
    obtain ⟨site, hsite, rfl⟩ := exists_site_of_node? hnode
    obtain ⟨far, hbound, -⟩ := (h.rested hsite).asked.1 (Journal.mem_requests_iff.2 hmem)
    exact h.used_of_bound hsite hbound
  known := h.known
  errors := h.errors

/-- Deliveries on the cables in use keep states of a kind so, and it does not matter there what a
node disables. -/
structure Sustains (b : Installation) (Kind : Fabric → Prop) : Prop where
  joined : ∀ {near far}, b.Joined near far → near ≠ far ∧ b.topology.hasMember near = true ∧
    b.topology.sharePartition near far = true
  operates : ∀ {fabric}, Kind fabric → Operates b fabric
  disables : ∀ {fabric next target site channel}, Kind fabric →
    Disables fabric next target site channel → Traced b.cabling next → Told next → Kind next
  delivery : ∀ {fabric rest before behind target delivery}, Kind fabric →
    fabric.Takes before (.delivery target delivery) behind rest →
      (∀ payload, delivery = .control payload → before.any (isControlTo target) = false) →
        ∃ site event, fabric.sites.get? target = some site ∧ delivery.event = .ok event ∧
          site.node.Asks (·.isDisable = false) (site.handled event).1.node ∧
            Kind (rest.deliverTo target delivery)
  transmit : ∀ {fabric rest before behind source near channel far farChannel}, Kind fabric →
    fabric.Takes before (.transmit source near channel far farChannel) behind rest →
      (far, farChannel) ∈ fabric.knownChannels →
        ∃ site, fabric.sites.get? near = some site ∧
          site.node.Asks (·.isDisable = false)
            (site.handled (.connection ⟨.tx, channel, source, true⟩)).1.node ∧
              Kind ((rest.deliverTo near (.connection ⟨.tx, channel, source, true⟩)).push
                (arrival far source farChannel))

/-- An ensemble that forms goes on forming on the cables in use. -/
theorem sustains_forming (hvalid : b.Valid) : Sustains b (Forming b) where
  joined hjoined := by
    obtain ⟨hne, hnear, -, hshare⟩ := hvalid.of_joined hjoined
    exact ⟨hne, hnear, hshare⟩
  operates h := h.operates
  disables h hdisables htraced htold := hdisables.forming h htraced htold
  delivery h htakes hfirst := by
    obtain ⟨site, event, outbox, hoccurs⟩ := h.occurs_deliverTo hvalid htakes hfirst
    refine ⟨site, event, hoccurs.hosts, hoccurs.starts.delivered.2, ?_,
      h.deliverTo hvalid htakes hfirst⟩
    exact asks_of_permits (h.rested hoccurs.hosts) hvalid hoccurs.permits site.wiring.backend
  transmit h htakes hknown := by
    obtain ⟨site, outbox, hoccurs⟩ := h.occurs_transmit hvalid htakes
    refine ⟨site, hoccurs.hosts, ?_, h.transmit hvalid htakes hknown⟩
    exact asks_of_permits (h.rested hoccurs.hosts) hvalid hoccurs.permits site.wiring.backend

/-- A state whose part in use is of some kind, and in which the nodes have disabled the other
channels that they were told of. -/
structure Tolerates (b : Installation) (Kind : Fabric → Prop) (fabric : Fabric) : Prop where
  traced : Traced b.cabling fabric
  told : Told fabric
  kind : Kind (fabric.inUse b.used)
  stated : ∀ {node event}, .delivery node (.channel event) ∈ fabric.queue →
    b.topology.chassis? event.peer = some event.chassis
  disabled : ∀ {rank node channel}, fabric.node? rank = some node →
    (.disable channel ∈ node.journal.accepted ↔
      (rank, channel) ∈ fabric.knownChannels ∧ b.used rank channel = false)

namespace Tolerates

variable {Kind : Fabric → Prop} (h : Tolerates b Kind fabric)
include h

/-- A channel to a peer that has another one is turned down. -/
theorem declines (hsustains : Sustains b Kind)
    (hmem : .delivery target (.channel event) ∈ fabric.queue)
    (hunused : b.used target event.channel = false)
    (horder : b.InOrder ((target, event.channel) :: fabric.knownChannels)) :
    ∃ site, fabric.sites.get? target = some site ∧ site.node.Declines event := by
  obtain ⟨_, hevent, hhonest⟩ := h.traced.queue _ hmem
  obtain rfl := Except.ok.inj hevent
  obtain ⟨hconnected, farChannel, hcable⟩ := hhonest
  have hoperates := hsustains.operates h.kind
  obtain ⟨hne, hmember, hshare⟩ := hsustains.joined (b.joined hcable)
  obtain ⟨node, hnode⟩ := Option.isSome_iff_exists.1 (hoperates.member.2 hmember)
  obtain ⟨site, hsite, rfl⟩ := exists_site_of_node? hnode
  have htopology := hoperates.topology hnode
  have hrank : site.node.rank = target := h.traced.rank hnode
  refine ⟨site, hsite, hconnected, hoperates.working hnode, hoperates.lost hnode, ?_, ?_,
    ?_, ?_, .inr ?_⟩
  · rw [hrank]
    exact hne.symm
  · rw [htopology]
    exact h.stated hmem
  · rw [htopology, hrank]
    exact hshare
  · cases hbound : site.node.boundPeer? event.channel with
    | none => rfl
    | some peer =>
      rw [hoperates.used hnode hbound] at hunused
      exact absurd hunused (by simp)
  · obtain ⟨other, otherFar, hknown, hused, hcable'⟩ := horder.1 hunused hcable
    obtain ⟨state, peer, hstate, hbound⟩ := hoperates.known.1 (mem_known_inUse.2 ⟨hknown, hused⟩)
    obtain rfl := Option.some.inj (hnode.symm.trans hstate)
    obtain ⟨-, _, hcable''⟩ := h.traced.binding hnode hbound
    obtain ⟨rfl, -⟩ := Prod.mk.inj (Option.some.inj (hcable'.symm.trans hcable''))
    exact ⟨other, hbound⟩

theorem stated_of_takes {parcel : Parcel} (htakes : fabric.Takes before parcel behind rest)
    {new : List Parcel} (hqueue : next.queue = rest.queue ++ new)
    (hnew : ∀ entry ∈ new, entry.isDiscovery = false) {node : Rank} {event : ChannelEvent}
    (hmem : .delivery node (.channel event) ∈ next.queue) :
    b.topology.chassis? event.peer = some event.chassis := by
  rw [hqueue, List.mem_append] at hmem
  rcases hmem with hold | hadded
  · exact h.stated (htakes.mem_queue hold)
  · exact absurd (hnew _ hadded) (by simp [Parcel.isDiscovery])

/-- An event that disables no channel and tells a node of no unused one. -/
theorem disabled_of_asks {event : Event} (hsite : fabric.sites.get? target = some site)
    (hsites : next.sites = fabric.sites.insert target (site.after event))
    (hasks : site.node.Asks (·.isDisable = false) (site.handled event).1.node)
    (hknown : ∀ {rank channel}, b.used rank channel = false →
      ((rank, channel) ∈ next.knownChannels ↔ (rank, channel) ∈ fabric.knownChannels))
    {node : Node} (hnode : next.node? rank = some node) :
    .disable channel ∈ node.journal.accepted ↔
      (rank, channel) ∈ next.knownChannels ∧ b.used rank channel = false := by
  have hbefore : ∃ old, fabric.node? rank = some old ∧
      (.disable channel ∈ node.journal.accepted ↔ .disable channel ∈ old.journal.accepted) := by
    rw [node?, hsites, Table.get?_insert] at hnode
    split at hnode
    · rename_i heq
      obtain rfl := Option.some.inj hnode
      refine ⟨site.node, ?_, Site.disable_mem_accepted_after_iff hasks⟩
      rw [heq]
      exact node?_of_site hsite
    · exact ⟨node, hnode, Iff.rfl⟩
  obtain ⟨old, hold, hsame⟩ := hbefore
  rw [hsame, h.disabled hold]
  exact and_congr_left fun hunused => (hknown hunused).symm

omit h in
/-- A delivery on the cables in use tells of no unused channel. -/
theorem known_of_inUse (htakes : fabric.Takes before (.delivery target delivery) behind rest)
    (hused : Parcel.inUse b.used (.delivery target delivery) = true)
    (hunused : b.used rank channel = false) :
    (rank, channel) ∈ (rest.deliverTo target delivery).knownChannels ↔
      (rank, channel) ∈ fabric.knownChannels := by
  rcases rest.known_cases target delivery with ⟨known, rfl, -, hknown⟩ | hknown
  · rw [hknown, htakes.known, List.mem_cons]
    refine or_iff_right ?_
    rintro ⟨⟩
    have hchannel : b.used target known.channel = true := hused
    rw [hchannel] at hunused
    exact absurd hunused (by simp)
  · rw [hknown, htakes.known]

/-- An unused channel that is turned down. -/
theorem deliverTo_surplus (hsustains : Sustains b Kind)
    (htakes : fabric.Takes before (.delivery target (.channel event)) behind rest)
    (hsite : fabric.sites.get? target = some site) (hdeclines : site.node.Declines event)
    (hunused : b.used target event.channel = false) :
    Tolerates b Kind (rest.deliverTo target (.channel event)) := by
  obtain ⟨hafter, hok, hnone⟩ := Site.after_of_declines hdeclines
  have hrest : rest.sites.get? target = some site := htakes.sites ▸ hsite
  have hevent : (Delivery.channel event).event = .ok (.channel event) := rfl
  obtain ⟨hsites, hqueue, -, herrors⟩ := deliverTo_of_site hrest hevent
  rw [hafter, htakes.sites] at hsites
  rw [hnone, List.append_nil] at hqueue
  have hknown : (rest.deliverTo target (.channel event)).knownChannels =
      (target, event.channel) :: fabric.knownChannels := by
    rw [knownChannels_deliverTo, noteDiscovery, if_pos hdeclines.connected, htakes.known]
  have hsurplus : Parcel.inUse b.used (.delivery target (.channel event)) = false := hunused
  have hdisables : Disables (fabric.inUse b.used)
      ((rest.deliverTo target (.channel event)).inUse b.used) target site event.channel := by
    refine ⟨hsite, hsites, ?_, ?_, ?_⟩
    · rw [← htakes.queue_inUse hsurplus]
      exact congrArg (List.filter (Parcel.inUse b.used)) hqueue
    · rw [inUse, inUse, hknown, List.filter_cons_of_neg (by simp [hunused])]
    · rw [errors_inUse, herrors [] hok, htakes.errors, errors_inUse]
  have htraced := (h.traced.deliverTo htakes).2
  have htold := h.told.deliverTo h.traced htakes
  constructor
  case traced => exact htraced
  case told => exact htold
  case kind => exact hsustains.disables h.kind hdisables htraced.inUse htold.inUse
  case stated =>
    exact h.stated_of_takes htakes (hqueue.trans (List.append_nil _).symm) (by simp)
  case disabled =>
    intro rank node channel hnode
    have hcases := (hdisables.node?_eq rank).symm.trans hnode
    rw [hknown, List.mem_cons, Prod.mk.injEq]
    split at hcases
    · rename_i heq
      obtain rfl := Option.some.inj hcases
      rw [Node.mem_accepted_disabling, h.disabled (node?_of_site hsite), heq, Call.disable.injEq]
      constructor
      · rintro (⟨hold, hfree⟩ | rfl)
        · exact ⟨.inr hold, hfree⟩
        · exact ⟨.inl ⟨rfl, rfl⟩, hunused⟩
      · rintro ⟨⟨-, rfl⟩ | hold, hfree⟩
        · exact .inr rfl
        · exact .inl ⟨hold, hfree⟩
    · rename_i hne
      rw [h.disabled hcases]
      exact and_congr_left fun _ => (or_iff_right fun heq => hne heq.1).symm

/-- A delivery on the cables in use. -/
theorem deliverTo_used (hsustains : Sustains b Kind)
    (htakes : fabric.Takes before (.delivery target delivery) behind rest)
    (hfirst : ∀ payload, delivery = .control payload → before.any (isControlTo target) = false)
    (hused : Parcel.inUse b.used (.delivery target delivery) = true) :
    Tolerates b Kind (rest.deliverTo target delivery) := by
  obtain ⟨site, event, hsite, hevent, hasks, hkind⟩ :=
    hsustains.delivery h.kind (htakes.inUse hused)
    fun payload hpayload => any_isControlTo_inUse (hfirst payload hpayload)
  obtain ⟨new, hqueue, hnew⟩ := exists_calm_queue_deliverTo rest target delivery
  have hrest : rest.sites.get? target = some site := htakes.sites ▸ hsite
  have hsites := (deliverTo_of_site hrest hevent).1
  rw [htakes.sites] at hsites
  constructor
  case traced => exact (h.traced.deliverTo htakes).2
  case told => exact h.told.deliverTo h.traced htakes
  case kind =>
    rw [inUse_deliverTo hused]
    exact hkind
  case stated => exact h.stated_of_takes htakes hqueue hnew
  case disabled =>
    exact h.disabled_of_asks hsite hsites hasks fun hunused => known_of_inUse htakes hused hunused

/-- Any delivery, if each node is told first of the channel in use. -/
theorem deliverTo (hsustains : Sustains b Kind)
    (htakes : fabric.Takes before (.delivery target delivery) behind rest)
    (hfirst : ∀ payload, delivery = .control payload → before.any (isControlTo target) = false)
    (horder : b.InOrder (rest.deliverTo target delivery).knownChannels) :
    Tolerates b Kind (rest.deliverTo target delivery) := by
  cases hused : Parcel.inUse b.used (.delivery target delivery) with
  | true => exact h.deliverTo_used hsustains htakes hfirst hused
  | false =>
    cases delivery with
    | channel event =>
      obtain ⟨_, hevent, hhonest⟩ := h.traced.queue _ htakes.taken_mem
      obtain rfl := Except.ok.inj hevent
      have hunused : b.used target event.channel = false := hused
      rw [knownChannels_deliverTo, noteDiscovery, if_pos hhonest.1, htakes.known] at horder
      obtain ⟨site, hsite, hdeclines⟩ :=
        h.declines hsustains htakes.taken_mem hunused horder
      exact h.deliverTo_surplus hsustains htakes hsite hdeclines hunused
    | _ => exact absurd hused (by simp [Parcel.inUse])

/-- The first half of a transmit, which is always on a cable in use. -/
theorem transmit (hsustains : Sustains b Kind)
    (htakes : fabric.Takes before (.transmit source near channel far farChannel) behind rest)
    (hknown : (far, farChannel) ∈ fabric.knownChannels) :
    Tolerates b Kind ((rest.deliverTo near (.connection ⟨.tx, channel, source, true⟩)).push
      (arrival far source farChannel)) := by
  obtain ⟨hcable, hasked⟩ := h.traced.queue _ htakes.taken_mem
  have hused := b.shared hcable ((hsustains.operates h.kind).asked hasked)
  obtain ⟨site, hsite, hasks, hkind⟩ := hsustains.transmit h.kind (htakes.inUse rfl)
    (mem_known_inUse.2 ⟨hknown, hused⟩)
  obtain ⟨new, hqueue, hnew⟩ := exists_calm_queue_deliverTo rest near
    (.connection ⟨.tx, channel, source, true⟩)
  have hrest : rest.sites.get? near = some site := htakes.sites ▸ hsite
  have hevent : (Delivery.connection ⟨.tx, channel, source, true⟩).event =
      .ok (.connection ⟨.tx, channel, source, true⟩) := rfl
  have hsites := (deliverTo_of_site hrest hevent).1
  rw [htakes.sites] at hsites
  constructor
  case traced => exact (h.traced.transmit htakes).2
  case told => exact h.told.transmit h.traced htakes
  case kind =>
    rw [push_inUse rfl, inUse_deliverTo rfl]
    exact hkind
  case stated =>
    intro node event hmem
    rcases List.mem_cons.1 hmem with heq | hmem
    · exact absurd heq (by simp [arrival])
    · exact h.stated_of_takes htakes hqueue hnew hmem
  case disabled =>
    refine h.disabled_of_asks hsite hsites hasks fun {rank channel} _ => ?_
    rw [knownChannels_deliverTo, ← htakes.known]
    rfl

/-- An allowed step that keeps to the order of the channels. -/
theorem step (hsustains : Sustains b Kind)
    (hdelivers : fabric.Delivers next) (horder : b.InOrder next.knownChannels) :
    Tolerates b Kind next := by
  cases hdelivers.makes with
  | delivery takes first => exact h.deliverTo hsustains takes first horder
  | transmit takes known =>
    exact (h.transmit hsustains takes known).deliverTo hsustains (takes_push _ _) (by simp) horder

end Tolerates

/-- A run that keeps to the order of the channels. -/
theorem Proceeds.tolerates {start : Fabric} {count : Nat} {Kind : Fabric → Prop}
    (hsustains : Sustains b Kind)
    (hstart : Tolerates b Kind start) (hrun : start.Proceeds count fabric)
    (horder : b.InOrder fabric.knownChannels) : Tolerates b Kind fabric := by
  induction hrun with
  | start => exact hstart
  | step proceeds delivers ih =>
    -- Known channels are added in front, so every shorter run keeps to the order as well.
    exact (ih (inOrder_of_delivers delivers horder)).step hsustains delivers horder

/-- An ensemble that was just created. -/
theorem Created.tolerates {members : List Member} {request : ProfileRequest} {cables : List Link}
    {localRank : Rank} {Kind : Fabric → Prop} (h : Created members request cables fabric)
    (htopology : Topology.ofMembers members localRank request = .ok b.topology)
    (hcabling : b.cabling = .ofLinks cables) (hfits : Cabling.Fits cables)
    (hjoined : ∀ {near far}, b.Joined near far → b.topology.hasMember far = true)
    (hkind : Kind (fabric.inUse b.used)) : Tolerates b Kind fabric where
  traced := by
    rw [hcabling]
    exact traced_of_create hfits h
  told := told_of_create h
  kind := hkind
  stated := h.stated htopology hcabling hfits hjoined
  disabled := by
    intro rank node channel hnode
    obtain ⟨_, -, hosts, rfl⟩ := h.node? hnode
    simp [h.known, Journal.accepted]

end Fabric

end MeshFormation
