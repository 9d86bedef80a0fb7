import MeshFormation.Proofs.Formation.Begin
import MeshFormation.Proofs.Formation.Seat
import MeshFormation.Proofs.Router.Announcements

/-!
# An outer node, whatever the order

An outer node of a cube is sent the events of its seat in any order, and one completion for each
transmit that it asks for. Only a connection has to wait for the channel event of its channel. No
matter which event is delivered next, the blueprint of the seat permits it: what the node knows is
what the events delivered so far have brought. The node therefore never fails, and once no event is
left it is ready.
-/

namespace MeshFormation

/-! ## A backend that accepts everything -/

theorem exists_containing {α : Type} (value : α) (keys : List UInt32) :
    ∃ table : Table α, ∀ key ∈ keys, table.contains key = true := by
  induction keys with
  | nil => exact ⟨∅, by simp⟩
  | cons key rest ih =>
    obtain ⟨table, htable⟩ := ih
    refine ⟨table.insert key value, fun other hmem => ?_⟩
    rw [Table.contains_eq_isSome, Table.get?_insert]
    split
    · rfl
    · rename_i hne
      rw [← Table.contains_eq_isSome]
      exact htable other ((List.mem_cons.1 hmem).resolve_left hne)

/-- A node with a cable on every channel is refused nothing. -/
theorem exists_accepting : ∃ wiring : Wiring, wiring.backend = .accepting ∧
    ∀ channel, wiring.contains channel = true := by
  obtain ⟨wiring, hwiring⟩ := exists_containing ((0, 0) : Rank × Channel)
    ((List.range UInt32.size).map UInt32.ofNat)
  have hall : ∀ channel, wiring.contains channel = true := fun channel =>
    hwiring channel ((Topology.mem_map_range_iff (Nat.le_refl _)).2 channel.toNat_lt)
  refine ⟨wiring, ?_, hall⟩
  funext attempts call
  cases call with
  | establish source channel => simp [Wiring.backend, hall, Backend.accepting]
  | disable | lock | send => rfl

namespace Router

variable {router next : Router} {backend : Backend} {event : Event}
  {result : Except RouterError Outbox}

/-- The transmits that a router asks for at an event. -/
def asks (router : Router) (backend : Backend) (event : Event) : List (Rank × Channel) :=
  (router.handle backend event).1.node.journal.requests.drop router.node.journal.requests.length

theorem requests_handle (router : Router) (backend : Backend) (event : Event) :
    (router.handle backend event).1.node.journal.requests =
      router.node.journal.requests ++ router.asks backend event := by
  obtain ⟨made, hmade, -⟩ := (continues_handle router backend event).attempts
  have hrequests : (router.handle backend event).1.node.journal.requests =
      router.node.journal.requests ++ Journal.requests ⟨made, []⟩ := by
    rw [Journal.requests, Journal.accepted, hmade, List.filter_append, List.map_append,
      List.filterMap_append]
    rfl
  rw [asks, hrequests, List.drop_left]

/-- Routes of more than one link come with forwards only. -/
theorem Step.direct (h : router.Step backend event next result)
    (hevent : ∀ forwarder receiver, event ≠ .forward forwarder receiver)
    (hrouter : ∀ {peer route}, router.node.ledger.route? peer = some route → route.linkCount = 1)
    {peer : Rank} {route : Route} (hroute : next.node.ledger.route? peer = some route) :
    route.linkCount = 1 := by
  obtain ⟨node, hwrites, hadvances⟩ := h.writes
  rw [hadvances.ledger] at hroute
  cases hwrites with
  | counts | unbinds => exact hrouter hroute
  | binds => exact hrouter ((Ledger.route?_track _ _ _).symm.trans hroute)
  | learns => exact absurd rfl (hevent _ _)
  | @records direction channel source bound ledger progress phase recorded =>
    cases direction with
    | rx =>
      obtain ⟨-, -, -, hrecord⟩ := Node.ledgerAfter_rx_eq_ok recorded
      exact hrouter (((Ledger.of_recordInput hrecord).2.2 _).symm.trans hroute)
    | tx =>
      obtain ⟨-, -, -, hledger⟩ := Node.ledgerAfter_tx_eq_ok recorded
      dsimp only at hroute
      rw [hledger] at hroute
      split at hroute
      · rw [Ledger.route?_recordRoute] at hroute
        split at hroute
        · rw [Ledger.route?_recordOutput] at hroute
          obtain rfl := Option.some.inj hroute
          cases hknown : router.node.ledger.route? bound with
          | none => rfl
          | some known => exact hrouter hknown
        · exact hrouter ((Ledger.route?_recordOutput _ _ _ _).symm.trans hroute)
      · exact hrouter ((Ledger.route?_recordOutput _ _ _ _).symm.trans hroute)

end Router

/-- One of the events brings a value. -/
def Brings {α : Type} (events : List Event) (part : Event → Option α) (value : α) : Prop :=
  ∃ event ∈ events, part event = some value

theorem brings_concat {α : Type} {events : List Event} {event : Event} {part : Event → Option α}
    {value : α} : Brings (events ++ [event]) part value ↔
      Brings events part value ∨ part event = some value := by
  simp [Brings, or_and_right, exists_or]

/-- The chassis that is stated of a member. -/
def Topology.chassisName (topology : Topology) (rank : Rank) : String :=
  (topology.chassis? rank).getD ""

namespace OuterSeat

variable {topology : Topology} (seat : OuterSeat topology)

/-- A peer is found on its channel. -/
def discovery (peer : Rank) : Event :=
  .channel ⟨seat.channel peer, peer, topology.chassisName peer, true⟩

/-- The data of a source comes in on the channel to a peer. -/
def arrival (input : Rank × Rank) : Event := .connection ⟨.rx, seat.channel input.2, input.1, true⟩

/-- A transmit that was asked for is complete. -/
def completion (request : Rank × Channel) : Event := .connection ⟨.tx, request.2, request.1, true⟩

def announcement : Event := .outerAnnounce seat.fellow (topology.chassisName seat.fellow)

/-- All events of the seat but the completions. -/
def script : List Event :=
  seat.peers.map seat.discovery ++ seat.inputs.map seat.arrival ++ [seat.announcement]

/-- All events of the seat, given the transmits that were asked for. -/
def agenda (requests : List (Rank × Channel)) : List Event :=
  seat.script ++ requests.map completion

/-- What was delivered so far and what is left. Any event that is left may come next, if no channel
event of its channel is left as well. It adds the completions of the transmits that it makes the
node ask for. -/
inductive Play (start : Router) : List Event → List Event → Prop where
  | start : Play start [] seat.script
  | deliver {delivered pending rest : List Event} {event : Event}
    (play : Play start delivered pending)
    (picked : pending.Perm (event :: rest))
    (ordered : ∀ completed, event = .connection completed →
      ∀ known, .channel known ∈ rest → known.channel ≠ completed.channel) :
    Play start (delivered ++ [event])
      (rest ++ ((start.run .accepting delivered).asks .accepting event).map completion)

/-! ## The events of a seat -/

variable {seat} {requests : List (Rank × Channel)} {event : Event} {source peer : Rank}
  {channel : Channel}

theorem mem_agenda_cases (h : event ∈ seat.agenda requests) :
    (∃ peer ∈ seat.peers, event = seat.discovery peer) ∨
      (∃ input ∈ seat.inputs, event = seat.arrival input) ∨ event = seat.announcement ∨
        ∃ request ∈ requests, event = completion request := by
  simp only [agenda, script, List.mem_append, List.mem_map, List.mem_singleton] at h
  rcases h with ((⟨peer, hpeer, rfl⟩ | ⟨input, hinput, rfl⟩) | rfl) | ⟨request, hrequest, rfl⟩
  · exact .inl ⟨peer, hpeer, rfl⟩
  · exact .inr (.inl ⟨input, hinput, rfl⟩)
  · exact .inr (.inr (.inl rfl))
  · exact .inr (.inr (.inr ⟨request, hrequest, rfl⟩))

theorem of_binding? (h : event ∈ seat.agenda requests)
    (hbinding : event.binding? = some (channel, peer)) :
    peer ∈ seat.peers ∧ channel = seat.channel peer ∧ event = seat.discovery peer := by
  rcases mem_agenda_cases h with ⟨other, hother, rfl⟩ | ⟨input, -, rfl⟩ | rfl | ⟨request, -, rfl⟩
  · obtain ⟨rfl, rfl⟩ := Prod.mk.inj (Option.some.inj hbinding)
    exact ⟨hother, rfl, rfl⟩
  all_goals exact absurd hbinding (by simp [Event.binding?, arrival, announcement, completion])

theorem of_arrival? (h : event ∈ seat.agenda requests)
    (harrival : event.arrival? = some (source, channel)) :
    ∃ peer, (source, peer) ∈ seat.inputs ∧ channel = seat.channel peer ∧
      event = seat.arrival (source, peer) := by
  rcases mem_agenda_cases h with ⟨other, -, rfl⟩ | ⟨⟨_, peer⟩, hinput, rfl⟩ | rfl |
    ⟨request, -, rfl⟩
  · exact absurd harrival (by simp [Event.arrival?, discovery])
  · obtain ⟨rfl, rfl⟩ := Prod.mk.inj (Option.some.inj harrival)
    exact ⟨peer, hinput, rfl, rfl⟩
  · exact absurd harrival (by simp [Event.arrival?, announcement])
  · exact absurd harrival (by simp [Event.arrival?, completion])

theorem nodup_script : seat.script.Nodup := by
  have hinputs : seat.inputs.Nodup := List.Nodup.of_map _ seat.nodup_sources
  have hdiscovery : Function.Injective seat.discovery := by
    intro one other heq
    simp only [discovery, Event.channel.injEq, ChannelEvent.mk.injEq] at heq
    exact heq.2.1
  have harrival : ∀ one ∈ seat.inputs, ∀ other ∈ seat.inputs,
      seat.arrival one = seat.arrival other → one = other := by
    intro one hone other hother heq
    simp only [arrival, Event.connection.injEq, ConnectionEvent.mk.injEq] at heq
    exact List.inj_on_of_nodup_map seat.nodup_sources hone hother heq.2.2.1
  rw [script, List.nodup_append, List.nodup_append]
  refine ⟨⟨seat.nodup_peers.map hdiscovery, hinputs.map_on harrival, ?_⟩,
    List.nodup_singleton _, ?_⟩
  · intro one hone other hother
    obtain ⟨peer, -, rfl⟩ := List.mem_map.1 hone
    obtain ⟨input, -, rfl⟩ := List.mem_map.1 hother
    simp [discovery, arrival]
  · intro one hone other hother
    obtain rfl := List.mem_singleton.1 hother
    rcases List.mem_append.1 hone with hone | hone
    · obtain ⟨peer, -, rfl⟩ := List.mem_map.1 hone
      simp [discovery, announcement]
    · obtain ⟨input, -, rfl⟩ := List.mem_map.1 hone
      simp [arrival, announcement]

theorem departure?_of_mem_script (h : event ∈ seat.script) : event.departure? = none := by
  have hagenda : event ∈ seat.agenda [] := by simpa [agenda] using h
  rcases mem_agenda_cases hagenda with ⟨peer, -, rfl⟩ | ⟨input, -, rfl⟩ | rfl |
    ⟨request, hrequest, -⟩
  · rfl
  · rfl
  · rfl
  · exact absurd hrequest List.not_mem_nil

theorem nodup_agenda (h : requests.Nodup) : (seat.agenda requests).Nodup := by
  have hcompletion : Function.Injective completion := by
    rintro ⟨one, channel⟩ ⟨other, channel'⟩ heq
    simp only [completion, Event.connection.injEq, ConnectionEvent.mk.injEq] at heq
    simp [heq]
  rw [agenda, List.nodup_append]
  refine ⟨nodup_script, h.map hcompletion, fun one hone other hother heq => ?_⟩
  obtain ⟨request, -, rfl⟩ := List.mem_map.1 hother
  rw [heq] at hone
  exact absurd (departure?_of_mem_script hone) (by simp [completion, Event.departure?])

/-- The transmits on the agenda are those that were asked for. -/
theorem countP_departure (requests : List (Rank × Channel)) :
    (seat.agenda requests).countP (·.departure?.isSome) = requests.length := by
  have hscript : seat.script.countP (·.departure?.isSome) = 0 :=
    List.countP_eq_zero.2 fun event hmem => by simp [departure?_of_mem_script hmem]
  have hcompletions : (requests.map completion).countP (·.departure?.isSome) = requests.length := by
    rw [List.countP_map, ← List.countP_true]
    apply List.countP_congr
    intro request _
    simp [completion, Event.departure?]
  rw [agenda, List.countP_append, hscript, hcompletions, Nat.zero_add]

/-! ## What the node knows -/

/-- What an outer node knows in the middle of a play: what the delivered events have brought. -/
structure Playing (seat : OuterSeat topology) (delivered pending : List Event) (router : Router) :
    Prop where
  rested : seat.blueprint.Rested topology.localRank router
  events : (delivered ++ pending).Perm (seat.agenda router.node.journal.requests)
  binding : ∀ {channel peer}, router.node.boundPeer? channel = some peer ↔
    Brings delivered Event.binding? (channel, peer)
  input : ∀ {source channel}, router.node.ledger.input? source = some channel ↔
    Brings delivered Event.arrival? (source, channel)
  hears : ∀ {other}, router.forwarding.hears other = true ↔ Brings delivered Event.announcer? other
  transmit : router.node.progress.expected.tx + delivered.countP (·.departure?.isSome) =
    router.forwarding.limit
  direct : ∀ {peer route}, router.node.ledger.route? peer = some route → route.linkCount = 1
  reached : ∀ {channel}, Brings delivered Event.departure? (topology.localRank, channel) →
    ∃ peer, router.node.boundPeer? channel = some peer ∧ router.node.ledger.reaches peer = true

namespace Playing

variable {delivered pending rest : List Event} {router : Router}
  (h : Playing seat delivered pending router)
include h

theorem mem_agenda (hmem : event ∈ delivered) : event ∈ seat.agenda router.node.journal.requests :=
  h.events.mem_iff.1 (List.mem_append_left _ hmem)

theorem mem_agenda_of_picked (hpicked : pending.Perm (event :: rest)) :
    event ∈ seat.agenda router.node.journal.requests :=
  h.events.mem_iff.1 (List.mem_append_right _ (hpicked.mem_iff.2 List.mem_cons_self))

/-- Nothing is delivered twice. -/
theorem notMem_delivered (hpicked : pending.Perm (event :: rest)) : event ∉ delivered := by
  have hnodup := h.events.nodup_iff.2 (nodup_agenda h.rested.nodup)
  rw [List.nodup_append] at hnodup
  intro hmem
  exact hnodup.2.2 event hmem event (hpicked.mem_iff.2 List.mem_cons_self) rfl

theorem boundPeer?_of_discovery (hdelivered : seat.discovery peer ∈ delivered) :
    router.node.boundPeer? (seat.channel peer) = some peer :=
  h.binding.2 ⟨_, hdelivered, rfl⟩

/-- The channel event of a connection that may come next was delivered. -/
theorem boundPeer?_of_ordered {completed : ConnectionEvent}
    (hpicked : pending.Perm (.connection completed :: rest))
    (hordered : ∀ known, .channel known ∈ rest → known.channel ≠ completed.channel)
    (hpeer : peer ∈ seat.peers) (hchannel : completed.channel = seat.channel peer) :
    router.node.boundPeer? completed.channel = some peer := by
  have hscript : seat.discovery peer ∈ seat.script :=
    List.mem_append_left _ (List.mem_append_left _ (List.mem_map_of_mem hpeer))
  have hmem := h.events.mem_iff.2
    (List.mem_append_left (router.node.journal.requests.map completion) hscript)
  rw [hchannel]
  rcases List.mem_append.1 hmem with hdelivered | hpending
  · exact h.boundPeer?_of_discovery hdelivered
  · rcases List.mem_cons.1 (hpicked.mem_iff.1 hpending) with heq | hrest
    · exact absurd heq (by simp [discovery])
    · exact absurd hchannel.symm (hordered _ hrest)

/-- A channel that is bound belongs to a peer of the seat. -/
theorem of_boundPeer? (hbound : router.node.boundPeer? channel = some peer) :
    peer ∈ seat.peers ∧ channel = seat.channel peer ∧ seat.discovery peer ∈ delivered := by
  obtain ⟨event, hmem, hbinding⟩ := h.binding.1 hbound
  obtain ⟨hpeer, hchannel, rfl⟩ := of_binding? (h.mem_agenda hmem) hbinding
  exact ⟨hpeer, hchannel, hmem⟩

variable (hvalid : seat.blueprint.Valid) {wiring : Wiring}
include hvalid

theorem permits_discovery (hwired : ∀ channel, wiring.contains channel = true)
    (hpeer : peer ∈ seat.peers) (hpicked : pending.Perm (seat.discovery peer :: rest)) :
    seat.blueprint.Permits topology.localRank wiring router (seat.discovery peer) := by
  have hnew := h.notMem_delivered hpicked
  have hjoined := seat.joined_iff.2 hpeer
  have hmember := (hvalid.of_joined hjoined).2.2.1
  have hunbound : ∀ channel, router.node.boundPeer? channel ≠ some peer := by
    intro channel hbound
    exact hnew (h.of_boundPeer? hbound).2.2
  apply Blueprint.Permits.channel
  case connected => rfl
  case wired => exact hwired _
  case free =>
    cases hbound : router.node.boundPeer? (seat.channel peer) with
    | none => rfl
    | some other =>
      obtain ⟨hother, hchannel, hdelivered⟩ := h.of_boundPeer? hbound
      rw [seat.eq_of_channel_eq hpeer hother hchannel] at hnew
      exact absurd hdelivered hnew
  case alone => exact hunbound
  case joined => exact hjoined
  case chassis =>
    obtain ⟨name, hname⟩ := Topology.exists_chassis?_iff.2 hmember
    change topology.chassis? peer = some (topology.chassisName peer)
    change topology.chassis? peer = some name at hname
    rw [Topology.chassisName, hname]
    rfl
  case unlocked =>
    rw [Bool.eq_false_iff]
    intro hlocked
    -- A locked node has the data of all peers, and that of a linked peer comes from the peer
    -- itself.
    have hne := (hvalid.of_joined hjoined).1
    obtain ⟨channel, far, hbound, hfeeds⟩ := h.rested.exists_feeds_of_locked hlocked
      (Topology.mem_peers_iff.2 ⟨hne.symm, hmember, seat.sharePartition _ _⟩)
    rw [hvalid.eq_of_feeds_of_joined hfeeds hjoined.symm] at hbound
    exact hunbound channel hbound

theorem permits_arrival (hinput : (source, peer) ∈ seat.inputs)
    (hpicked : pending.Perm (seat.arrival (source, peer) :: rest))
    (hordered : ∀ known, .channel known ∈ rest → known.channel ≠ seat.channel peer) :
    seat.blueprint.Permits topology.localRank wiring router (seat.arrival (source, peer)) := by
  refine .receive
    (h.boundPeer?_of_ordered hpicked hordered (seat.peer_mem_of_mem_inputs hinput) rfl)
    (seat.feeds_of_mem_inputs hvalid hinput) ?_
  cases hknown : router.node.ledger.input? source with
  | none => rfl
  | some channel =>
    obtain ⟨event, hmem, harrival⟩ := h.input.1 hknown
    obtain ⟨other, hother, -, rfl⟩ := of_arrival? (h.mem_agenda hmem) harrival
    have hsame := List.inj_on_of_nodup_map seat.nodup_sources hinput hother rfl
    rw [← hsame] at hmem
    exact absurd hmem (h.notMem_delivered hpicked)

/-- A completion that is left was not counted yet. -/
theorem transmit_pos {request : Rank × Channel}
    (hpicked : pending.Perm (completion request :: rest)) :
    0 < router.node.progress.expected.tx := by
  have hcount := h.events.countP_eq (·.departure?.isSome)
  rw [List.countP_append, hpicked.countP_eq, List.countP_cons, countP_departure] at hcount
  have hone : (completion request).departure?.isSome = true := rfl
  rw [hone, if_pos rfl] at hcount
  have hlimit := h.rested.length_requests_le hvalid seat.hasMember_localRank
  have htransmit := h.transmit
  omega

theorem permits_completion {request : Rank × Channel}
    (hrequest : request ∈ router.node.journal.requests)
    (hpicked : pending.Perm (completion request :: rest)) :
    seat.blueprint.Permits topology.localRank wiring router (completion request) := by
  obtain ⟨source, channel⟩ := request
  obtain ⟨far, hbound, hcharged⟩ := h.rested.asked.1 hrequest
  have hfeeds : seat.blueprint.Feeds source topology.localRank far := by
    rcases hcharged with rfl | ⟨rule, -, hassigned⟩
    · exact .direct (h.rested.joined hbound)
    · exact hassigned.feeds
  exact .transmit hbound hfeeds (h.transmit_pos hvalid hpicked) fun _ hroute => h.direct hroute

omit h in
theorem permits_announcement :
    seat.blueprint.Permits topology.localRank wiring router seat.announcement := by
  have hmember : topology.hasMember seat.fellow = true := seat.hasMember_iff.2 (by simp)
  obtain ⟨name, hname⟩ := Topology.exists_chassis?_iff.2 hmember
  apply Blueprint.Permits.announce
  case cube => exact seat.cube
  case other =>
    have hmate := Topology.mem_chassisMates_iff.1 (seat.mem_mates_iff.2 (.inl rfl))
    exact hmate.1
  case stated =>
    change topology.chassis? seat.fellow = some (topology.chassisName seat.fellow)
    rw [Topology.chassisName, hname]
    rfl
  case outer =>
    rw [seat.partner?_fellow hvalid]
    rfl

/-- The blueprint permits every event that may come next. -/
theorem permits (hwired : ∀ channel, wiring.contains channel = true)
    (hpicked : pending.Perm (event :: rest))
    (hordered : ∀ completed, event = .connection completed →
      ∀ known, .channel known ∈ rest → known.channel ≠ completed.channel) :
    seat.blueprint.Permits topology.localRank wiring router event := by
  rcases mem_agenda_cases (h.mem_agenda_of_picked hpicked) with
    ⟨peer, hpeer, rfl⟩ | ⟨⟨source, peer⟩, hinput, rfl⟩ | rfl | ⟨request, hrequest, rfl⟩
  · exact h.permits_discovery hvalid hwired hpeer hpicked
  · exact h.permits_arrival hvalid hinput hpicked (hordered _ rfl)
  · exact permits_announcement hvalid
  · exact h.permits_completion hvalid hrequest hpicked

omit hvalid in
/-- A complete transmit of the own data reaches the peer of its channel. -/
theorem reaches_completion {outbox : Outbox}
    (hrequest : (topology.localRank, channel) ∈ router.node.journal.requests)
    (hok : (router.handle .accepting (completion (topology.localRank, channel))).2 = .ok outbox) :
    ∃ peer, router.node.boundPeer? channel = some peer ∧
      (router.handle .accepting
          (completion (topology.localRank, channel))).1.node.ledger.reaches peer = true := by
  obtain ⟨peer, hbound, -⟩ := h.rested.asked.1 hrequest
  have hanswer : (router.handle .accepting (completion (topology.localRank, channel))).2.isOk =
      true := by
    rw [hok]
    rfl
  have hconfirms : router.confirms? .accepting (completion (topology.localRank, channel)) =
      some peer := by
    rw [completion, Router.confirms?, if_pos ⟨h.rested.working, h.rested.rank_eq.symm, hanswer⟩,
      hbound]
  refine ⟨peer, hbound, ?_⟩
  exact (Router.step_handle .accepting _ h.rested.working).reaches_of_confirms? rfl hconfirms
    fun hroute => h.direct hroute

omit hvalid in
/-- What was reached stays so, and the event may complete one more transmit of the own data. -/
theorem reached_next {outbox : Outbox} (hmem : event ∈ seat.agenda router.node.journal.requests)
    (hok : (router.handle .accepting event).2 = .ok outbox)
    (hmoves : seat.blueprint.Moves topology.localRank router event outbox
      (router.handle .accepting event).1)
    (hbrings : Brings (delivered ++ [event]) Event.departure? (topology.localRank, channel)) :
    ∃ peer, (router.handle .accepting event).1.node.boundPeer? channel = some peer ∧
      (router.handle .accepting event).1.node.ledger.reaches peer = true := by
  rcases brings_concat.1 hbrings with hold | hdeparture
  · obtain ⟨peer, hbound, hreaches⟩ := h.reached hold
    have hstep := Router.step_handle .accepting event h.rested.working
    exact ⟨peer, hmoves.binding.2 (.inl hbound), hstep.reaches_mono hreaches⟩
  · rcases List.mem_append.1 hmem with hscript | hcompletion
    · exact absurd ((departure?_of_mem_script hscript).symm.trans hdeparture) (by simp)
    · obtain ⟨⟨source, known⟩, hrequest, rfl⟩ := List.mem_map.1 hcompletion
      obtain ⟨rfl, rfl⟩ := Prod.mk.inj (Option.some.inj hdeparture)
      obtain ⟨peer, hbound, hreaches⟩ := h.reaches_completion hrequest hok
      exact ⟨peer, hmoves.binding.2 (.inl hbound), hreaches⟩

/-- One more event is delivered. It is answered without an error, and the play goes on. -/
theorem deliver (hpicked : pending.Perm (event :: rest))
    (hordered : ∀ completed, event = .connection completed →
      ∀ known, .channel known ∈ rest → known.channel ≠ completed.channel) :
    (∃ outbox, (router.handle .accepting event).2 = .ok outbox) ∧
      Playing seat (delivered ++ [event]) (rest ++ (router.asks .accepting event).map completion)
        (router.handle .accepting event).1 := by
  obtain ⟨wiring, hbackend, hwired⟩ := exists_accepting
  obtain ⟨next, outbox, hhandle, hrested, hmoves⟩ :=
    h.rested.applies hvalid (fun _ => hwired _) (h.permits hvalid hwired hpicked hordered)
  rw [hbackend] at hhandle
  obtain rfl : (router.handle .accepting event).1 = next := by rw [hhandle]
  have hok : (router.handle .accepting event).2 = .ok outbox := by rw [hhandle]
  have hmem := h.mem_agenda_of_picked hpicked
  refine ⟨⟨outbox, hok⟩, ?_⟩
  constructor
  case rested => exact hrested
  case events =>
    rw [router.requests_handle .accepting event, agenda, List.map_append, ← List.append_assoc,
      ← List.append_assoc]
    apply List.Perm.append_right
    rw [List.append_assoc, List.singleton_append]
    exact (List.Perm.append_left delivered hpicked.symm).trans h.events
  case binding =>
    intro channel peer
    rw [brings_concat, ← h.binding]
    exact hmoves.binding
  case input =>
    intro source channel
    rw [brings_concat, ← h.input]
    exact hmoves.input
  case hears =>
    intro other
    rw [brings_concat, ← h.hears]
    exact hmoves.hears
  case transmit =>
    have hmoved := hmoves.transmit
    have hbefore := h.transmit
    rw [List.countP_append, List.countP_singleton]
    omega
  case direct =>
    have hstep := Router.step_handle .accepting event h.rested.working
    intro peer route hroute
    refine hstep.direct (fun forwarder receiver hforward => ?_)
      (fun hknown => h.direct hknown) hroute
    rcases mem_agenda_cases hmem with ⟨peer, -, heq⟩ | ⟨input, -, heq⟩ | heq | ⟨request, -, heq⟩ <;>
      exact absurd (heq.symm.trans hforward)
        (by simp [discovery, arrival, announcement, completion])
  case reached => exact fun hbrings => h.reached_next hmem hok hmoves hbrings

end Playing

section Start

variable {start : Router} {members : List Member} {localRank : Rank} {request : ProfileRequest}
  (hmembers : Topology.ofMembers members localRank request = .ok topology)
  (hcreate : (Router.create .cube topology).2 = .ok start)
include hmembers hcreate

theorem playing_start : Playing seat [] seat.script start := by
  have hvalid := seat.valid (Topology.fault?_of_ofMembers hmembers)
  have hbegins : seat.blueprint.Begins topology.localRank start := by
    obtain ⟨node, forwarding, hstart, rfl⟩ : ∃ node forwarding,
        Forwarding.start .cube (.start topology topology.expected) = (node, .ok forwarding) ∧
          start = ⟨node, forwarding⟩ := by
      rw [Router.create, if_neg (by simp [seat.cube])] at hcreate
      split at hcreate
      · exact absurd hcreate (by simp)
      · rename_i node forwarding hstart
        exact ⟨node, forwarding, hstart, (Except.ok.inj hcreate).symm⟩
    refine Blueprint.begins_of_start hvalid.profile ?_
    rw [show seat.blueprint.topology.profile = .cube from seat.cube]
    exact hstart
  constructor
  case rested => exact hbegins.rested hvalid seat.hasMember_localRank
  case events =>
    rw [hbegins.requests, agenda, List.map_nil, List.append_nil, List.nil_append]
  case binding => simp [hbegins.boundPeer?, Brings]
  case input => simp [hbegins.input?, Brings]
  case hears => simp [hbegins.hears, Brings]
  case transmit => exact hbegins.limit hvalid.profile
  case direct =>
    intro peer route hroute
    obtain ⟨hosts, -, hnode⟩ := hbegins.node
    rw [hnode] at hroute
    have hnone : Ledger.empty.route? peer = none := rfl
    exact absurd (hnone.symm.trans hroute) (by simp)
  case reached => simp [Brings]

/-- Every event of a play is answered without an error, and the node knows what they brought. -/
theorem Play.playing {delivered pending : List Event} (h : seat.Play start delivered pending) :
    Playing seat delivered pending (start.run .accepting delivered) ∧
      ∀ before event after, delivered = before ++ event :: after →
        ∃ outbox, ((start.run .accepting before).handle .accepting event).2 = .ok outbox := by
  have hvalid := seat.valid (Topology.fault?_of_ofMembers hmembers)
  induction h with
  | start => exact ⟨playing_start hmembers hcreate, by simp⟩
  | @deliver delivered pending rest event play picked ordered ih =>
    obtain ⟨hplaying, hanswers⟩ := ih
    obtain ⟨hok, hnext⟩ := hplaying.deliver hvalid picked ordered
    rw [Router.run_concat]
    refine ⟨hnext, fun before other after hsplit => ?_⟩
    rcases List.eq_nil_or_concat after with rfl | ⟨front, last, rfl⟩
    · obtain ⟨rfl, heq⟩ := List.append_inj' hsplit rfl
      obtain rfl := List.singleton_inj.1 heq
      exact hok
    · rw [List.concat_eq_append, ← List.cons_append, ← List.append_assoc] at hsplit
      exact hanswers before other front (List.append_inj' hsplit rfl).1

end Start

end OuterSeat

end MeshFormation
