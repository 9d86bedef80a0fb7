import MeshFormation.Proofs.Formation.Happens

/-!
# One event in an ensemble that forms

An event at one site takes an entry out of the queue, changes this site and adds entries behind.
Each part of the invariant is carried over such an event on its own.
-/

namespace MeshFormation.Fabric

variable {b : Installation} {fabric next rest : Fabric} {front before behind : List Parcel}
  {parcel : Parcel} {source near far target receiver forwarder rank : Rank}
  {channel farChannel : Channel} {event : Event} {site other : Site} {outbox : Outbox}

/-- An event at a site that the blueprint permits. -/
structure Occurs (b : Installation) (fabric next : Fabric) (front before : List Parcel)
    (parcel : Parcel) (behind : List Parcel) (target : Rank) (site : Site) (event : Event)
    (outbox : Outbox) : Prop
    extends Happens fabric next front before parcel behind target site event where
  sent : Router.outboxOf (site.handled event).2 = outbox
  rested : b.Rested target (site.after event).service.router
  moves : b.Moves target site.service.router event outbox (site.after event).service.router
  permits : b.Permits target site.wiring site.service.router event

namespace Occurs

variable (h : Occurs b fabric next front before parcel behind target site event outbox)
include h

/-- What an event adds to the queue: a transmit or a control message. -/
theorem new_cases {entry : Parcel} (hmem : entry ∈ site.parcels target event) :
    (∃ source channel far farChannel, entry = .transmit source target channel far farChannel) ∨
      ∃ outbound ∈ outbox,
        entry = .delivery outbound.receiver (.control outbound.message.encode) := by
  rcases Site.mem_parcels_iff.1 hmem with
    ⟨source, channel, far, farChannel, -, -, rfl⟩ | ⟨outbound, hsent, rfl⟩
  · exact .inl ⟨source, channel, far, farChannel, rfl⟩
  · rw [h.sent] at hsent
    exact .inr ⟨outbound, hsent, rfl⟩

theorem mem_of_sent {outbound : AddressedMessage} (hmem : outbound ∈ outbox) :
    .delivery outbound.receiver (.control outbound.message.encode) ∈ next.queue := by
  apply h.mem_of_new
  rw [Site.mem_parcels_iff]
  right
  rw [← h.sent] at hmem
  exact ⟨outbound, hmem, rfl⟩

theorem input_iff : (site.after event).node.ledger.input? source = some channel ↔
    site.node.ledger.input? source = some channel ∨ event.arrival? = some (source, channel) :=
  h.moves.input

/-! ## Errands -/

theorem done_flow_iff : Done next (.flow source rank) ↔ Done fabric (.flow source rank) ∨
    rank = target ∧ ∃ channel, event.arrival? = some (source, channel) := by
  by_cases hrank : rank = target
  · subst hrank
    constructor
    · rintro ⟨state, hstate, hinput⟩
      obtain rfl := Option.some.inj (h.node?_target.symm.trans hstate)
      obtain ⟨channel, hchannel⟩ := Option.isSome_iff_exists.1 hinput
      rcases h.input_iff.1 hchannel with hold | hnew
      · exact .inl ⟨site.node, node?_of_site h.hosts, by rw [hold]; rfl⟩
      · exact .inr ⟨rfl, channel, hnew⟩
    · rintro (⟨state, hstate, hinput⟩ | ⟨-, channel, hnew⟩)
      · obtain rfl := Option.some.inj ((node?_of_site h.hosts).symm.trans hstate)
        obtain ⟨channel, hchannel⟩ := Option.isSome_iff_exists.1 hinput
        exact ⟨_, h.node?_target, by rw [h.input_iff.2 (.inl hchannel)]; rfl⟩
      · exact ⟨_, h.node?_target, by rw [h.input_iff.2 (.inr hnew)]; rfl⟩
  · simp [Done, h.node?, hrank]

theorem done_iff (errand : Errand) : Done next errand ↔
    Done fabric errand ∨ errand ∈ (event.errand? target).toList := by
  rw [Option.mem_toList]
  cases errand with
  | discovery rank channel =>
    rw [h.done_discovery_iff]
    apply or_congr_right
    cases event with
    | channel known => simp [Event.binding?, Event.errand?, eq_comm]
    | connection completed =>
      obtain ⟨direction, known, source, connected⟩ := completed
      cases direction <;> simp [Event.binding?, Event.errand?]
    | _ => simp [Event.binding?, Event.errand?]
  | flow source rank =>
    rw [h.done_flow_iff]
    apply or_congr_right
    cases event with
    | connection completed =>
      obtain ⟨direction, known, source', connected⟩ := completed
      cases direction
      · simp [Event.arrival?, Event.errand?, eq_comm, and_comm]
      · simp [Event.arrival?, Event.errand?]
    | _ => simp [Event.arrival?, Event.errand?]

theorem asked_iff : next.Asked rank source channel ↔ fabric.Asked rank source channel ∨
    rank = target ∧ (source, channel) ∈ site.due event := by
  by_cases hrank : rank = target
  · subst hrank
    simp only [Asked, ← Journal.mem_requests_iff]
    constructor
    · rintro ⟨node, hnode, hmem⟩
      obtain rfl := Option.some.inj (h.node?_target.symm.trans hnode)
      rw [Site.requests_after, List.mem_append] at hmem
      rcases hmem with hold | hnew
      · exact .inl ⟨site.node, node?_of_site h.hosts, hold⟩
      · exact .inr ⟨trivial, hnew⟩
    · have hboth : ∀ {request}, request ∈ site.node.journal.requests ∨ request ∈ site.due event →
          request ∈ (site.after event).node.journal.requests := by
        intro request hmem
        rw [Site.requests_after, List.mem_append]
        exact hmem
      rintro (⟨node, hnode, hmem⟩ | ⟨-, hnew⟩)
      · obtain rfl := Option.some.inj ((node?_of_site h.hosts).symm.trans hnode)
        exact ⟨_, h.node?_target, hboth (.inl hmem)⟩
      · exact ⟨_, h.node?_target, hboth (.inr hnew)⟩
  · simp [Asked, h.node?, hrank]

omit h in
theorem errands_parcels {requests : List (Rank × Channel)} {wiring : Wiring} :
    (requests.filterMap (Parcel.ofRequest target wiring)).filterMap Parcel.errand? =
      requests.filterMap fun request =>
        (wiring.get? request.2).map fun farEnd => .flow request.1 farEnd.1 := by
  rw [List.filterMap_filterMap]
  congr 1
  funext request
  simp only [Parcel.ofRequest]
  cases wiring.get? request.2 <;> rfl

/-- The errands that an event raises. -/
def flows (site : Site) (event : Event) : List Errand :=
  (site.due event).filterMap fun request =>
    (site.wiring.get? request.2).map fun farEnd => .flow request.1 farEnd.1

omit h in
theorem errands_outbox (outbox : Outbox) : outbox.parcels.filterMap Parcel.errand? = [] := by
  rw [Outbox.parcels, List.filterMap_eq_nil_iff]
  rintro entry hmem
  obtain ⟨outbound, -, rfl⟩ := List.mem_map.1 hmem
  rfl

theorem errands_left : next.errands =
    front.filterMap Parcel.errand? ++ (before ++ behind).filterMap Parcel.errand? ++
      flows site event := by
  rw [errands, h.left, Site.parcels_eq]
  simp only [List.filterMap_append, errands_parcels, errands_outbox, List.append_nil]
  rfl

variable (hforming : Forming b fabric) (hvalid : b.Valid) (htraced : Traced b.cabling next)
include hforming hvalid htraced

omit hvalid htraced in
theorem used_of_due (hdue : (source, channel) ∈ site.due event) :
    b.used target channel = true := by
  have hrequest : (source, channel) ∈ (site.after event).node.journal.requests := by
    rw [Site.requests_after, List.mem_append]
    exact .inr hdue
  obtain ⟨far, hbound, -⟩ := h.rested.asked.1 hrequest
  have hdone : Done next (.discovery target channel) := ⟨_, far, h.node?_target, hbound⟩
  have hraised : Raised b fabric (.discovery target channel) := by
    rw [hforming.agenda.raised]
    rcases (h.done_iff _).1 hdone with hold | hnew
    · exact .inr hold
    · left
      rw [h.errands_taken.mem_iff, h.starts.errand, List.mem_append, List.mem_append]
      exact .inl (.inl hnew)
  exact hraised.2

omit hvalid in
/-- What a node asks for at an event is on a cable and in the blueprint. -/
theorem feeds_of_due (hdue : (source, channel) ∈ site.due event) :
    ∃ far farChannel, b.cabling.farEnd? target channel = some (far, farChannel) ∧
      site.wiring.get? channel = some (far, farChannel) ∧ b.Feeds source target far := by
  have hrequest : (source, channel) ∈ (site.after event).node.journal.requests := by
    rw [Site.requests_after, List.mem_append]
    exact .inr hdue
  obtain ⟨far, hbound, hcharged⟩ := h.rested.asked.1 hrequest
  obtain ⟨-, farChannel, hcable⟩ := htraced.binding h.node?_target hbound
  refine ⟨far, farChannel, hcable, ?_, ?_⟩
  · exact hforming.traced.get?_wiring h.hosts hcable
  · rcases hcharged with rfl | ⟨rule, -, hassigned⟩
    · exact .direct (h.rested.joined hbound)
    · exact hassigned.feeds

omit hvalid htraced in
theorem mem_flows_iff {errand : Errand} : errand ∈ flows site event ↔
    ∃ source channel far farChannel, (source, channel) ∈ site.due event ∧
      b.cabling.farEnd? target channel = some (far, farChannel) ∧
        errand = .flow source far := by
  rw [flows, List.mem_filterMap]
  constructor
  · rintro ⟨⟨source, channel⟩, hdue, herrand⟩
    obtain ⟨⟨far, farChannel⟩, hget, rfl⟩ := Option.map_eq_some_iff.1 herrand
    rw [hforming.traced.wiring h.hosts] at hget
    exact ⟨source, channel, far, farChannel, hdue, hget, rfl⟩
  · rintro ⟨source, channel, far, farChannel, hdue, hcable, rfl⟩
    refine ⟨(source, channel), hdue, ?_⟩
    simp [hforming.traced.get?_wiring h.hosts hcable]

omit hvalid htraced in
theorem raised_iff (errand : Errand) :
    Raised b next errand ↔ Raised b fabric errand ∨ errand ∈ flows site event := by
  rw [h.mem_flows_iff hforming]
  cases errand with
  | discovery node channel => simp [Raised]
  | flow source far =>
    constructor
    · rintro ⟨near, channel, farChannel, hasked, hcable⟩
      rcases h.asked_iff.1 hasked with hold | ⟨rfl, hdue⟩
      · exact .inl ⟨near, channel, farChannel, hold, hcable⟩
      · exact .inr ⟨source, channel, far, farChannel, hdue, hcable, rfl⟩
    · rintro (⟨near, channel, farChannel, hasked, hcable⟩ |
        ⟨source', channel, far', farChannel, hdue, hcable, heq⟩)
      · exact ⟨near, channel, farChannel, h.asked_iff.2 (.inl hasked), hcable⟩
      · obtain ⟨rfl, rfl⟩ := Errand.flow.inj heq
        exact ⟨target, channel, farChannel, h.asked_iff.2 (.inr ⟨rfl, hdue⟩), hcable⟩

omit hvalid htraced in
theorem nodup_flows : (flows site event).Nodup := by
  have hrequests := h.rested.nodup
  have hsplit : (site.node.journal.requests ++ site.due event).Nodup := by
    rw [← Site.requests_after]
    exact hrequests
  have hdue := (List.nodup_append.1 hsplit).2.1
  rw [flows, List.Nodup, List.pairwise_filterMap]
  apply hdue.imp_of_mem
  rintro ⟨source, channel⟩ ⟨source', channel'⟩ hmem hmem' hne errand herrand errand' herrand' heq
  obtain ⟨⟨far, farChannel⟩, hget, rfl⟩ := Option.map_eq_some_iff.1 herrand
  obtain ⟨⟨far', farChannel'⟩, hget', rfl⟩ := Option.map_eq_some_iff.1 herrand'
  obtain ⟨rfl, rfl⟩ := Errand.flow.inj heq
  rw [hforming.traced.wiring h.hosts] at hget hget'
  obtain rfl := b.single hget (h.used_of_due hforming hmem) hget' (h.used_of_due hforming hmem')
  exact hne rfl

/-- The data that a node asks to send now was not asked for before, by this or another node. -/
theorem not_raised_of_mem_flows {errand : Errand} (hmem : errand ∈ flows site event) :
    ¬ Raised b fabric errand := by
  obtain ⟨source, channel, far, farChannel, hdue, hcable, rfl⟩ :=
    (h.mem_flows_iff hforming).1 hmem
  rintro ⟨near, channel', farChannel', hasked, hcable'⟩
  obtain ⟨other, hother, hbound, hfeeds'⟩ := hforming.feeds_of_asked hasked hcable'
  obtain ⟨far', farChannel'', hcable'', -, hfeeds⟩ := h.feeds_of_due hforming htraced hdue
  obtain ⟨rfl, -⟩ := Prod.mk.inj (Option.some.inj (hcable.symm.trans hcable''))
  obtain rfl := hvalid.eq_of_feeds hfeeds hfeeds'
  obtain rfl := b.single hcable (h.used_of_due hforming hdue) hcable'
    (hforming.used_of_bound hother hbound)
  obtain ⟨node, hnode, haccepted⟩ := hasked
  obtain rfl := Option.some.inj ((node?_of_site h.hosts).symm.trans hnode)
  have hsplit : (site.node.journal.requests ++ site.due event).Nodup := by
    rw [← Site.requests_after]
    exact h.rested.nodup
  exact (List.nodup_append.1 hsplit).2.2 _ (Journal.mem_requests_iff.2 haccepted) _ hdue rfl

theorem agenda : Agenda next.errands (Raised b next) (Done next) := by
  have hpending := h.errands_taken
  rw [h.starts.errand, List.append_assoc] at hpending
  have hnext : next.errands.Perm ((front.filterMap Parcel.errand? ++
      (before ++ behind).filterMap Parcel.errand?) ++ flows site event) := by
    rw [h.errands_left]
  exact hforming.agenda.step hpending hnext (h.raised_iff hforming) h.done_iff
    (h.nodup_flows hforming)
    fun errand hmem => h.not_raised_of_mem_flows hforming hvalid htraced hmem

/-! ## The other parts -/

omit hvalid htraced in
theorem rested_of_site (hother : next.sites.get? rank = some other) :
    b.Rested rank other.service.router := by
  rcases h.site_cases hother with ⟨rfl, rfl⟩ | ⟨-, hold⟩
  · exact h.rested
  · exact hforming.rested hold

omit hvalid htraced in
theorem member : (next.node? rank).isSome = true ↔ b.topology.hasMember rank = true := by
  rw [h.isSome_node?_iff, hforming.member]

omit hvalid htraced in
theorem known_iff {node : Rank} : (node, channel) ∈ next.knownChannels ↔
    Done next (.discovery node channel) := by
  rw [h.known, h.done_discovery_iff, hforming.known]

omit hvalid htraced in
theorem arrives (hfront : ∀ {far source channel}, arrival far source channel ∈ front →
      ∃ site peer, fabric.sites.get? far = some site ∧
        site.node.boundPeer? channel = some peer ∧ b.Feeds source peer far)
    (hmem : arrival far source channel ∈ next.queue) :
    ∃ site peer, next.sites.get? far = some site ∧ site.node.boundPeer? channel = some peer ∧
      b.Feeds source peer far := by
  have hbefore : ∃ site peer, fabric.sites.get? far = some site ∧
      site.node.boundPeer? channel = some peer ∧ b.Feeds source peer far := by
    rcases h.mem_of_arrival_mem hmem with hhalf | hold
    · exact hfront hhalf
    · exact hforming.arrives hold
  obtain ⟨old, peer, hold, hbound, hfeeds⟩ := hbefore
  obtain ⟨site, hsite, hbound⟩ := h.bound_of_site hold hbound
  exact ⟨site, peer, hsite, hbound, hfeeds⟩

omit hvalid in
theorem wired_of_due : ∀ request ∈ site.due event, site.wiring.contains request.2 = true := by
  rintro ⟨source, channel⟩ hmem
  obtain ⟨far, farChannel, -, hget, -⟩ := h.feeds_of_due hforming htraced hmem
  rw [Table.contains_eq_isSome, hget]
  rfl

omit hvalid in
theorem departs (hother : next.sites.get? rank = some other) :
    other.node.progress.expected.tx + other.node.journal.requests.length =
      other.service.router.forwarding.limit + next.queue.countP (isTransmitFrom rank) := by
  have hcount := h.countP_queue rank (h.wired_of_due hforming htraced)
  rcases h.site_cases hother with ⟨rfl, rfl⟩ | ⟨hne, hold⟩
  · have hdeparts := hforming.departs h.hosts
    have htransmit : (site.after event).node.progress.expected.tx +
        site.service.router.forwarding.limit + (if event.departure?.isSome then 1 else 0) =
          site.node.progress.expected.tx + (site.after event).service.router.forwarding.limit :=
      h.moves.transmit
    rw [if_pos rfl, if_pos rfl] at hcount
    rw [Site.requests_after, List.length_append]
    omega
  · have hdeparts := hforming.departs hold
    rw [if_neg hne, if_neg hne] at hcount
    omega

omit hvalid htraced in
theorem stated {known : ChannelEvent} (hmem : .delivery near (.channel known) ∈ next.queue) :
    b.topology.chassis? known.peer = some known.chassis :=
  hforming.stated (h.mem_of_channel_mem hmem)

omit hvalid htraced in
theorem encoded {payload : Payload} (hmem : .delivery receiver (.control payload) ∈ next.queue) :
    ∃ message : ControlMessage, payload = message.encode := by
  rcases h.mem_or_mem hmem with ⟨_, _, _, heq, -⟩ | hold | hnew
  · exact absurd heq (by simp [arrival])
  · exact hforming.encoded hold
  · rcases h.new_cases hnew with ⟨_, _, _, _, heq⟩ | ⟨outbound, -, heq⟩
    · exact absurd heq (by simp)
    · obtain ⟨-, hpayload⟩ := Parcel.delivery.inj heq
      exact ⟨outbound.message, Delivery.control.inj hpayload⟩

omit hvalid htraced in
theorem wanted {changed : NetworkEvent} (hmem : .delivery near (.network changed) ∈ next.queue) :
    b.topology.profile = .hypercube ∧ b.topology.hasMember near = true ∧
      changed.connected = true ∧ changed.peer ∈ b.topology.counterparts near := by
  rcases h.mem_or_mem hmem with ⟨_, _, _, heq, -⟩ | hold | hnew
  · exact absurd heq (by simp [arrival])
  · exact hforming.wanted hold
  · rcases h.new_cases hnew with ⟨_, _, _, _, heq⟩ | ⟨_, -, heq⟩
    · exact absurd heq (by simp)
    · exact absurd heq (by simp)

omit hvalid htraced in
theorem linked {peer : Rank} (hother : next.sites.get? near = some other)
    (hwanted : peer ∈ b.topology.counterparts near) :
    other.service.router.forwarding.links.contains peer = true ∨
      ∃ changed, changed.peer = peer ∧ .delivery near (.network changed) ∈ next.queue := by
  have hkept : ∀ {changed : NetworkEvent}, .delivery near (.network changed) ∈ fabric.queue →
      (near = target ∧ event = .network changed) ∨
        .delivery near (.network changed) ∈ next.queue := by
    intro changed hmem
    rcases h.eq_or_mem hmem with heq | hrest
    · have hstarts := h.starts
      rw [← heq] at hstarts
      obtain ⟨rfl, hevent⟩ := hstarts.delivered
      exact .inl ⟨rfl, (Except.ok.inj hevent).symm⟩
    · exact .inr (h.mem_of_rest hrest)
  rcases h.site_cases hother with ⟨rfl, rfl⟩ | ⟨hne, hold⟩
  · rcases hforming.linked h.hosts hwanted with hlive | ⟨changed, rfl, hmem⟩
    · exact .inl (h.moves.links.2 (.inl hlive))
    · rcases hkept hmem with ⟨-, rfl⟩ | hmem
      · exact .inl (h.moves.links.2 (.inr rfl))
      · exact .inr ⟨changed, rfl, hmem⟩
  · rcases hforming.linked hold hwanted with hlive | ⟨changed, rfl, hmem⟩
    · exact .inl hlive
    · rcases hkept hmem with ⟨heq, -⟩ | hmem
      · exact absurd heq hne
      · exact .inr ⟨changed, rfl, hmem⟩

omit hvalid htraced in
theorem live {peer : Rank} (hother : next.sites.get? near = some other)
    (hlive : other.service.router.forwarding.links.contains peer = true) :
    peer ∈ b.topology.counterparts near := by
  rcases h.site_cases hother with ⟨rfl, rfl⟩ | ⟨-, hold⟩
  · rcases h.moves.links.1 hlive with hbefore | hlink
    · exact hforming.live h.hosts hbefore
    · obtain ⟨changed, rfl, rfl⟩ := h.starts.of_link hlink
      have hmem : .delivery near (.network changed) ∈ fabric.queue := by
        rw [h.taken]
        simp
      exact (hforming.wanted hmem).2.2.2
  · exact hforming.live hold hlive

omit hforming hvalid htraced in
theorem message_cases {message : ControlMessage}
    (hmem : .delivery receiver (.control message.encode) ∈ next.queue) :
    .delivery receiver (.control message.encode) ∈ fabric.queue ∨ ⟨receiver, message⟩ ∈ outbox := by
  rcases h.mem_or_mem hmem with ⟨_, _, _, heq, -⟩ | hold | hnew
  · exact absurd heq (by simp [arrival])
  · exact .inl hold
  · rcases h.new_cases hnew with ⟨_, _, _, _, heq⟩ | ⟨⟨receiver', message'⟩, hsent, heq⟩
    · exact absurd heq (by simp)
    · obtain ⟨rfl, hpayload⟩ := Parcel.delivery.inj heq
      obtain rfl := ControlMessage.encode_injective (Delivery.control.inj hpayload)
      exact .inr hsent

omit hforming hvalid htraced in
/-- A control message that waited in the queue waits there still or is what the event is about. -/
theorem message_taken_or_mem {message : ControlMessage}
    (hmem : .delivery receiver (.control message.encode) ∈ fabric.queue) :
    (receiver = target ∧ event = message.event) ∨
      .delivery receiver (.control message.encode) ∈ before ++ behind := by
  rcases h.eq_or_mem hmem with heq | hrest
  · have hstarts := h.starts
    rw [← heq] at hstarts
    obtain ⟨rfl, hevent⟩ := hstarts.delivered
    rw [event_control_encode] at hevent
    exact .inl ⟨rfl, (Except.ok.inj hevent).symm⟩
  · exact .inr hrest

omit htraced in
theorem announced {announcer : Rank} {chassis : String}
    (hmem : announcementTo receiver announcer chassis ∈ next.queue) :
    b.topology.profile = .cube ∧ announcer ≠ receiver ∧ b.topology.hasMember receiver = true ∧
      b.topology.chassis? announcer = some chassis ∧ (b.partner? announcer).isSome = true := by
  rcases h.message_cases hmem with hold | hsent
  · exact hforming.announced hold
  · obtain ⟨rfl, hchassis, htells⟩ := h.moves.announces hsent
    rw [h.rested.tells, Bool.and_eq_true, Forwarding.speaks, Bool.and_eq_true, beq_iff_eq] at htells
    obtain ⟨⟨hprofile, houter⟩, hreaches⟩ := htells
    obtain ⟨partner, hpartner⟩ := Option.isSome_iff_exists.1 houter
    obtain ⟨channel, hbound⟩ := h.rested.reached hreaches
    obtain ⟨hne, -, hmember, -⟩ := hvalid.of_joined (h.rested.joined hbound)
    refine ⟨h.rested.profile.symm.trans hprofile, hne, hmember, hchassis, ?_⟩
    rw [(h.rested.partner.1 hpartner).1]
    rfl

omit hvalid htraced in
/-- Who was told hears it, or will hear it. -/
theorem heard (hother : next.sites.get? near = some other)
    (htells : other.service.router.forwarding.tells receiver = true) :
    (∃ site, next.sites.get? receiver = some site ∧
      site.service.router.forwarding.hears near = true) ∨
        ∃ chassis, announcementTo receiver near chassis ∈ next.queue := by
  have hlater : (∃ site, fabric.sites.get? receiver = some site ∧
      site.service.router.forwarding.hears near = true) ∨
        (∃ chassis, announcementTo receiver near chassis ∈ fabric.queue) ∨
          ∃ chassis, announcementTo receiver near chassis ∈ next.queue := by
    rcases h.site_cases hother with ⟨rfl, rfl⟩ | ⟨-, hold⟩
    · rcases h.moves.told htells with hbefore | ⟨chassis, hsent⟩
      · exact (hforming.heard h.hosts hbefore).imp_right .inl
      · exact .inr (.inr ⟨chassis, h.mem_of_sent hsent⟩)
    · exact (hforming.heard hold htells).imp_right .inl
  have hhears : event.announcer? = some near ∨ (∃ site, fabric.sites.get? receiver = some site ∧
      site.service.router.forwarding.hears near = true) → receiver = target →
        ∃ site, next.sites.get? receiver = some site ∧
          site.service.router.forwarding.hears near = true := by
    rintro hcases rfl
    refine ⟨site.after event, by rw [h.get?, if_pos rfl], h.moves.hears.2 ?_⟩
    rcases hcases with hnew | ⟨old, hold, hheard⟩
    · exact .inr hnew
    · obtain rfl := Option.some.inj (h.hosts.symm.trans hold)
      exact .inl hheard
  rcases hlater with ⟨old, hold, hheard⟩ | ⟨chassis, hmem⟩ | hsent
  · by_cases hreceiver : receiver = target
    · exact .inl (hhears (.inr ⟨old, hold, hheard⟩) hreceiver)
    · exact .inl ⟨old, by rw [h.get?, if_neg hreceiver, hold], hheard⟩
  · rcases h.message_taken_or_mem hmem with ⟨hreceiver, rfl⟩ | hrest
    · exact .inl (hhears (.inl rfl) hreceiver)
    · exact .inr ⟨chassis, h.mem_of_rest hrest⟩
  · exact .inr hsent

omit hvalid htraced in
theorem not_anyFailed : ¬ next.AnyFailed := by
  rintro ⟨rank, node, hnode, hfailed⟩
  obtain ⟨other, hother, rfl⟩ := exists_site_of_node? hnode
  have hworking : other.node.isFailed = false := (h.rested_of_site hforming hother).working
  rw [hworking] at hfailed
  exact absurd hfailed (by simp)

omit hvalid htraced in
/-- A forward that was delivered has given its source a route. -/
theorem routed_of_forward
    (hparcel : parcel = forwardTo source forwarder receiver) : next.Routed source receiver := by
  have hstarts := h.starts
  rw [hparcel] at hstarts
  obtain ⟨rfl, hevent⟩ := hstarts.delivered
  rw [event_control_encode] at hevent
  obtain rfl := (Except.ok.inj hevent).symm
  have heffect := (site.service.router.forwardEffect_handle site.wiring.backend forwarder
    receiver).1
  rcases heffect.done with hfailed | hroute
  · exact absurd ⟨source, _, h.node?_target, hfailed⟩ (h.not_anyFailed hforming)
  · exact ⟨_, h.node?_target, hroute⟩

omit hvalid htraced in
/-- A node that relays the data of a source receives it, so the source knows a route to the node or
is about to. -/
theorem routed_or_mem (hdeparture : event.departure? = some (source, channel))
    (hne : source ≠ target) (hkeeps : fabric.Keeps next) :
    next.Routed source target ∨ ∃ other, forwardTo source other target ∈ before ++ behind := by
  obtain ⟨far, farChannel, rfl⟩ := h.starts.of_departure hdeparture
  have hmem : .transmit source target channel far farChannel ∈ fabric.queue := by
    rw [h.taken]
    simp
  obtain ⟨-, node, hnode, hasked⟩ := hforming.traced.queue _ hmem
  obtain rfl := Option.some.inj ((node?_of_site h.hosts).symm.trans hnode)
  have hrested := hforming.rested h.hosts
  obtain ⟨far', -, hcharged⟩ := hrested.asked.1 (Journal.mem_requests_iff.2 hasked)
  rcases hcharged with hown | ⟨rule, hran, hassigned⟩
  · exact absurd hown hne
  · have hinput := (hrested.ran hran).input hassigned fun hpartner => (hrested.partner.1 hpartner).1
    rcases hforming.told.input hnode hne hinput with hfailed | hrouted | ⟨-, other, hwaits⟩
    · exact absurd hfailed hforming.not_anyFailed
    · exact .inl (hkeeps.routed hrouted)
    · rcases h.eq_or_mem hwaits with heq | hrest
      · exact absurd heq (by simp [forwardTo])
      · exact .inr ⟨other, hrest⟩

omit hvalid htraced in
theorem prepared (hkeeps : fabric.Keeps next) : Prepared next.Routed next.queue := by
  have htaken := hforming.prepared
  rw [h.taken] at htaken
  have hrest : Prepared next.Routed (before ++ behind) :=
    htaken.take hkeeps.routed (h.routed_of_forward hforming)
  have hfront : Prepared next.Routed (front ++ (before ++ behind)) := by
    have hstarts := h.starts
    cases hstarts with
    | delivery readable incoming => exact hrest
    | transmit =>
      exact hrest.cons fun source forwarder receiver => by simp [arrival, forwardTo]
  rw [h.left]
  refine hfront.append fun {source forwarder receiver} hmem => ?_
  rcases h.new_cases hmem with ⟨_, _, _, _, heq⟩ | ⟨⟨receiver', message⟩, hsent, heq⟩
  · exact absurd heq (by simp [forwardTo])
  · obtain ⟨rfl, hpayload⟩ := Parcel.delivery.inj heq
    obtain rfl := ControlMessage.encode_injective (Delivery.control.inj hpayload)
    obtain ⟨rfl, hne, channel, hdeparture, -⟩ := h.moves.forwards.1 hsent
    rcases h.routed_or_mem hforming hdeparture hne hkeeps with hrouted | ⟨other, hwaits⟩
    · exact .inl hrouted
    · exact .inr ⟨other, List.mem_append_right _ hwaits⟩

/-- The state after an event is again one of an ensemble that forms. -/
theorem forming (htold : Told next) (hkeeps : fabric.Keeps next)
    (hfront : ∀ {far source channel}, arrival far source channel ∈ front →
      ∃ site peer, fabric.sites.get? far = some site ∧
        site.node.boundPeer? channel = some peer ∧ b.Feeds source peer far) : Forming b next where
  traced := htraced
  told := htold
  member := h.member hforming
  rested := h.rested_of_site hforming
  errors := h.errors.trans hforming.errors
  known := h.known_iff hforming
  agenda := h.agenda hforming hvalid htraced
  arrives := h.arrives hforming hfront
  departs := h.departs hforming htraced
  stated := h.stated hforming
  prepared := h.prepared hforming hkeeps
  announced := h.announced hforming hvalid
  heard := h.heard hforming
  encoded := h.encoded hforming
  wanted := h.wanted hforming
  linked := h.linked hforming
  live := h.live hforming

end Occurs

namespace Forming

variable {delivery : Delivery} (h : Forming b fabric) (hvalid : b.Valid)
include h hvalid

/-- A delivery in its turn is an event at a site. -/
theorem occurs_deliverTo (htakes : fabric.Takes before (.delivery target delivery) behind rest)
    (hfirst : ∀ payload, delivery = .control payload →
      before.any (isControlTo target) = false) :
    ∃ site event outbox, Occurs b fabric (rest.deliverTo target delivery) [] before
      (.delivery target delivery) behind target site event outbox := by
  obtain ⟨site, event, hsite, hevent, hpermits⟩ := h.permits hvalid htakes.queue hfirst
  obtain ⟨outbox, hok, houtbox, hrested, hmoves⟩ :=
    ((h.rested hsite).applies hvalid (h.wired hsite) hpermits).site
  exact ⟨site, event, outbox, happens_deliverTo h.traced htakes hsite hevent hok hmoves.binding,
    houtbox, hrested, hmoves, hpermits⟩

/-- The first half of a transmit is an event at the near end. -/
theorem occurs_transmit
    (htakes : fabric.Takes before (.transmit source near channel far farChannel) behind rest) :
    ∃ site outbox, Occurs b fabric
      ((rest.deliverTo near (.connection ⟨.tx, channel, source, true⟩)).push
        (arrival far source farChannel))
      [arrival far source farChannel] before
        (.transmit source near channel far farChannel) behind near site
          (.connection ⟨.tx, channel, source, true⟩) outbox := by
  obtain ⟨site, hsite, hpermits⟩ := h.permits_transmit hvalid htakes.taken_mem
  obtain ⟨outbox, hok, houtbox, hrested, hmoves⟩ :=
    ((h.rested hsite).applies hvalid (h.wired hsite) hpermits).site
  have hhappens := happens_transmit htakes hsite hok fun {other peer} =>
    hmoves.binding.trans (or_iff_left (by simp [Event.binding?]))
  exact ⟨site, outbox, hhappens, houtbox, hrested, hmoves, hpermits⟩

theorem deliverTo (htakes : fabric.Takes before (.delivery target delivery) behind rest)
    (hfirst : ∀ payload, delivery = .control payload →
      before.any (isControlTo target) = false) : Forming b (rest.deliverTo target delivery) := by
  obtain ⟨site, event, outbox, hoccurs⟩ := h.occurs_deliverTo hvalid htakes hfirst
  obtain ⟨hfollows, htraced⟩ := h.traced.deliverTo htakes
  exact hoccurs.forming h hvalid htraced (h.told.deliverTo h.traced htakes) hfollows.toKeeps
    fun hmem => absurd hmem (by simp)

omit hvalid in
/-- The channel at the far end of a transmit that was asked for leads back to the near end. -/
theorem feeds_of_known (hcable : b.cabling.farEnd? near channel = some (far, farChannel))
    (hasked : fabric.Asked near source channel)
    (hknown : (far, farChannel) ∈ fabric.knownChannels) :
    ∃ site peer, fabric.sites.get? far = some site ∧
      site.node.boundPeer? farChannel = some peer ∧ b.Feeds source peer far := by
  obtain ⟨node, peer, hnode, hbound⟩ := h.known.1 hknown
  obtain ⟨site, hsite, rfl⟩ := exists_site_of_node? hnode
  obtain ⟨-, other, hback⟩ := h.traced.binding hnode hbound
  have hsame := b.symmetric hcable
  obtain ⟨rfl, -⟩ := Prod.mk.inj (Option.some.inj (hback.symm.trans hsame))
  obtain ⟨-, -, -, hfeeds⟩ := h.feeds_of_asked hasked hcable
  exact ⟨site, peer, hsite, hbound, hfeeds⟩

theorem transmit
    (htakes : fabric.Takes before (.transmit source near channel far farChannel) behind rest)
    (hknown : (far, farChannel) ∈ fabric.knownChannels) :
    Forming b ((rest.deliverTo near (.connection ⟨.tx, channel, source, true⟩)).push
      (arrival far source farChannel)) := by
  obtain ⟨site, outbox, hoccurs⟩ := h.occurs_transmit hvalid htakes
  obtain ⟨hfollows, htraced⟩ := h.traced.transmit htakes
  obtain ⟨hcable, hasked⟩ := h.traced.queue _ htakes.taken_mem
  refine hoccurs.forming h hvalid htraced (h.told.transmit h.traced htakes) hfollows.toKeeps
    fun {far' source' channel'} hmem => ?_
  obtain ⟨rfl, hcompleted⟩ := Parcel.delivery.inj (List.mem_singleton.1 hmem)
  obtain ⟨rfl, rfl⟩ : channel' = farChannel ∧ source' = source := by simpa using hcompleted
  exact h.feeds_of_known hcable hasked hknown

end Forming

end MeshFormation.Fabric
