import MeshFormation.Proofs.Router.Relayed

/-!
# Every relay on its own cable

A router takes a peer for one that it exchanges data with directly once it hears the peer somewhere
and reaches it in one hop. It does not look whether it hears the peer on the channel that leads
there. If it does for all its mates and for the partner, then each relay leaves on the cable of its
receiver, and no data is sent on a channel twice. If it hears one mate on the cable of another, this
fails.
-/

namespace MeshFormation

namespace Ledger

/-- The node itself is not heard, and no two near peers are heard on the same channel. -/
structure HeardApart (ledger : Ledger) (rank : Rank) (near : Rank → Prop) : Prop where
  own : ledger.input? rank = none
  apart : ∀ {source other channel}, near source → near other → ledger.input? source = some channel →
    ledger.input? other = some channel → source = other

end Ledger

namespace Router

variable {router middle next full start : Router} {backend : Backend} {event : Event}
  {result : Except RouterError Outbox} {profile : Profile} {topology : Topology}
  {partner fellow far peer : Rank} {asked : RelayRule → List RelayRequest} {near : Rank → Prop}

/-- The source whose data a router that works hears for the first time by an event, on the cable of
another peer. -/
def misheard? (router : Router) : Event → Option Rank
  | .connection ⟨.rx, channel, source, true⟩ =>
    if router.node.isFailed = false ∧ router.node.ledger.input? source = none ∧
        router.node.boundPeer? channel ≠ none ∧ router.node.boundPeer? channel ≠ some source then
      some source
    else none
  | _ => none

theorem boundPeer?_of_not_misheard {channel : Channel} {source bound : Rank}
    (h : router.misheard? (.connection ⟨.rx, channel, source, true⟩) ≠ some source)
    (hworking : router.node.isFailed = false) (hunheard : router.node.ledger.input? source = none)
    (hbound : router.node.boundPeer? channel = some bound) :
    router.node.boundPeer? channel = some source := by
  by_contra hother
  apply h
  rw [misheard?, if_pos ⟨hworking, hunheard, by simp [hbound], hother⟩]

/-- What a router knows of the peers that it hears and reaches, if its near peers are heard on their
own cables. -/
structure Heard (router : Router) (near : Rank → Prop) : Prop where
  inputs : router.node.ledger.HeardApart router.rank near
  direct : router.node.isFailed = false → ∀ {source channel}, near source →
    router.node.ledger.input? source = some channel → router.node.boundPeer? channel = some source
  reached : router.node.isFailed = false → ∀ {peer}, router.node.ledger.reaches peer = true →
    ∃ channel, router.node.boundPeer? channel = some peer

/-! ## One event -/

/-- An input is written by a receipt on a bound channel. -/
theorem Writes.of_input? {node : Node} (h : router.Writes event node) {source : Rank}
    {channel : Channel} (hinput : node.ledger.input? source = some channel) :
    router.node.ledger.input? source = some channel ∨
      event = .connection ⟨.rx, channel, source, true⟩ ∧ source ≠ router.rank ∧
        router.node.ledger.input? source = none ∧
          ∃ bound, router.node.boundPeer? channel = some bound := by
  cases h with
  | counts | unbinds => exact .inl hinput
  | binds => exact .inl (by simpa [Node.bind] using hinput)
  | learns => exact .inl (by simpa using hinput)
  | @records direction key peer bound ledger progress phase recorded =>
    cases direction with
    | rx =>
      obtain ⟨hbound, -, hother, hrecord⟩ := Node.ledgerAfter_rx_eq_ok recorded
      obtain ⟨hunheard, hinputs, -⟩ := Ledger.of_recordInput hrecord
      dsimp only at hinput
      rw [hinputs] at hinput
      split at hinput
      · rename_i heq
        subst heq
        obtain rfl := Option.some.inj hinput
        exact .inr ⟨rfl, hother, hunheard, bound, hbound⟩
      · exact .inl hinput
    | tx =>
      obtain ⟨-, -, -, hledger⟩ := Node.ledgerAfter_tx_eq_ok recorded
      dsimp only at hinput
      rw [hledger] at hinput
      left
      split at hinput <;> simpa using hinput

/-- A peer is reached in one hop once the own data was sent to it. -/
theorem Writes.of_reaches {node : Node} (h : router.Writes event node)
    (hreaches : node.ledger.reaches peer = true) : router.node.ledger.reaches peer = true ∨
      ∃ channel, event = .connection ⟨.tx, channel, router.rank, true⟩ ∧
        router.node.boundPeer? channel = some peer := by
  cases h with
  | counts | unbinds => exact .inl hreaches
  | binds => exact .inl ((Ledger.reaches_congr (Ledger.route?_track _ _ _)).symm.trans hreaches)
  | learns => exact .inl ((Ledger.reaches_relayed _ _ _ _).symm.trans hreaches)
  | @records direction channel source bound ledger progress phase recorded =>
    cases direction with
    | rx =>
      obtain ⟨-, -, -, hrecord⟩ := Node.ledgerAfter_rx_eq_ok recorded
      have hroutes := (Ledger.of_recordInput hrecord).2.2
      exact .inl ((Ledger.reaches_congr (hroutes _)).symm.trans hreaches)
    | tx =>
      obtain ⟨hbound, -, -, hledger⟩ := Node.ledgerAfter_tx_eq_ok recorded
      have houtput := Ledger.reaches_congr
        (Ledger.route?_recordOutput router.node.ledger bound peer channel)
      dsimp only at hreaches
      rw [hledger] at hreaches
      split at hreaches
      · rename_i hown
        rcases Ledger.of_reaches_recordRoute hreaches with hold | ⟨rfl, -⟩
        · exact .inl (houtput.symm.trans hold)
        · exact .inr ⟨channel, hown ▸ rfl, hbound⟩
      · exact .inl (houtput.symm.trans hreaches)

/-- A router at which no near peer is misheard goes on to hear each of them on its own cable. -/
theorem Step.heard (hrouter : router.Heard near) (hworking : router.node.isFailed = false)
    (hhears : ∀ source, near source → router.misheard? event ≠ some source)
    (h : router.Step backend event next result) : next.Heard near := by
  obtain ⟨node, hwrites, hadvances⟩ := h.writes
  have hrank := rank_congr h.topology_eq
  have hcable : ∀ {source channel}, near source → next.node.ledger.input? source = some channel →
      router.node.boundPeer? channel = some source := by
    intro source channel hnear hinput
    rw [hadvances.ledger] at hinput
    rcases hwrites.of_input? hinput with hold | ⟨rfl, -, hunheard, bound, hbound⟩
    · exact hrouter.direct hworking hnear hold
    · exact boundPeer?_of_not_misheard (hhears source hnear) hworking hunheard hbound
  constructor
  case inputs =>
    constructor
    case own =>
      rw [hrank, Option.eq_none_iff_forall_ne_some]
      intro channel hinput
      rw [hadvances.ledger] at hinput
      rcases hwrites.of_input? hinput with hold | ⟨-, hother, -⟩
      · exact absurd (hrouter.inputs.own.symm.trans hold) (by simp)
      · exact hother rfl
    case apart =>
      intro source other channel hsource hother hinput hinput'
      exact Option.some.inj ((hcable hsource hinput).symm.trans (hcable hother hinput'))
  case direct => exact fun hnext _ _ hnear hinput => h.boundPeer?_mono hnext (hcable hnear hinput)
  case reached =>
    intro hnext peer hreaches
    rw [hadvances.ledger] at hreaches
    have hbound : ∃ channel, router.node.boundPeer? channel = some peer := by
      rcases hwrites.of_reaches hreaches with hold | ⟨channel, -, hbound⟩
      · exact hrouter.reached hworking hold
      · exact ⟨channel, hbound⟩
    exact hbound.imp fun channel => h.boundPeer?_mono hnext

/-! ## No request twice -/

/-- What sets the requests of a router apart: each near peer is heard on another channel, and the
partner is neither a mate nor the node itself. -/
structure Distinct (router : Router) (near : Rank → Prop) : Prop where
  inputs : router.node.ledger.HeardApart router.rank near
  mates : ∀ mate ∈ router.mates, near mate
  partner : ∀ {partner}, router.forwarding.crossPartner? = some partner →
    near partner ∧ partner ≠ router.rank ∧ partner ∉ router.mates

theorem Distinct.congr (h : router.Distinct near) (halike : router.Alike full) :
    full.Distinct near := by
  have hrank := rank_congr halike.topology
  have hmates := mates_congr halike.topology
  constructor
  case inputs =>
    rw [halike.ledger, hrank]
    exact h.inputs
  case mates =>
    rw [hmates]
    exact h.mates
  case partner =>
    intro partner hpartner
    rw [hrank, hmates]
    exact h.partner (halike.partner.symm.trans hpartner)

theorem mem_mates_of_mem_innerNodes {mate : Rank} (h : mate ∈ innerNodes router.mates fellow) :
    mate ∈ router.mates :=
  (List.mem_filter.1 h).1

theorem ne_rank_of_mem_mates {mate : Rank} (h : mate ∈ router.mates) : mate ≠ router.rank :=
  (Topology.mem_chassisMates_iff.1 h).1

theorem Relayed.ran_of_mem (h : router.Relayed partner fellow far asked) {rule : RelayRule}
    {request : RelayRequest} (hrequest : request ∈ asked rule) :
    router.forwarding.ran rule = true := by
  rw [← Bool.not_eq_false]
  intro hidle
  rw [h.idle hidle] at hrequest
  exact absurd hrequest (by simp)

/-- The data that each rule asks for is that of other sources. -/
theorem Relayed.source (h : router.Relayed partner fellow far asked) {request : RelayRequest} :
    (request ∈ asked .fanout → request.1 = partner) ∧
      (request ∈ asked .uplink → request.1 ∈ router.mates ∧
        router.node.ledger.input? partner = some request.2) ∧
      (request ∈ asked .cross → request.1 = far ∧ ∃ mate ∈ router.mates,
        router.node.ledger.input? mate = some request.2) := by
  refine ⟨fun hrequest => ?_, fun hrequest => ?_, fun hrequest => ?_⟩
  · obtain ⟨mate, -, hrelay⟩ := exists_of_mem_mapM (h.fanout (h.ran_of_mem hrequest)) hrequest
    exact (Ledger.relay?_eq_some_iff.1 hrelay).1.symm
  · obtain ⟨mate, hmate, hrelay⟩ := exists_of_mem_mapM (h.uplink (h.ran_of_mem hrequest)) hrequest
    obtain ⟨rfl, hinput⟩ := Ledger.relay?_eq_some_iff.1 hrelay
    exact ⟨mem_mates_of_mem_innerNodes hmate, hinput⟩
  · obtain ⟨mate, hmate, hrelay⟩ := exists_of_mem_mapM (h.cross (h.ran_of_mem hrequest)) hrequest
    obtain ⟨rfl, hinput⟩ := Ledger.relay?_eq_some_iff.1 hrelay
    exact ⟨rfl, mate, mem_mates_of_mem_innerNodes hmate, hinput⟩

theorem Relayed.nodup_asked (h : router.Relayed partner fellow far asked)
    (hdistinct : router.Distinct near) (rule : RelayRule) : (asked rule).Nodup := by
  have hapart : ∀ {source first second : Rank} {request : RelayRequest}, first ∈ router.mates →
      second ∈ router.mates → router.node.ledger.relay? source first = some request →
        router.node.ledger.relay? source second = some request → first = second := by
    intro source first second request hfirst hsecond hrelay hrelay'
    exact hdistinct.inputs.apart (hdistinct.mates _ hfirst) (hdistinct.mates _ hsecond)
      (Ledger.relay?_eq_some_iff.1 hrelay).2 (Ledger.relay?_eq_some_iff.1 hrelay').2
  have hinners : (innerNodes router.mates fellow).Nodup := router.nodup_mates.filter _
  cases hran : router.forwarding.ran rule with
  | false => simp [h.idle hran]
  | true =>
    cases rule with
    | fanout => exact nodup_of_mapM (h.fanout hran) router.nodup_mates hapart
    | uplink =>
      apply nodup_of_mapM (h.uplink hran) hinners
      intro first second request _ _ hrelay hrelay'
      rw [(Ledger.relay?_eq_some_iff.1 hrelay).1, (Ledger.relay?_eq_some_iff.1 hrelay').1]
    | cross =>
      apply nodup_of_mapM (h.cross hran) hinners
      intro first second request hfirst hsecond
      exact hapart (mem_mates_of_mem_innerNodes hfirst) (mem_mates_of_mem_innerNodes hsecond)

/-- The data of a mate that is heard where the partner is heard would be asked for twice, but no
mate is heard there. -/
theorem Relayed.nodup (h : router.Relayed partner fellow far asked)
    (hdistinct : router.Distinct near) : router.node.journal.transmits.Nodup := by
  have hpartner := fun {rule} (hran : router.forwarding.ran rule = true) =>
    hdistinct.partner (h.chosen hran)
  have hkeys : router.node.bindings.keys.Nodup :=
    (Table.pairwise_keys _).imp UInt32.ne_of_lt
  rw [h.transmits.nodup_iff, List.nodup_append, List.nodup_append, List.nodup_append]
  refine ⟨?_, ⟨⟨h.nodup_asked hdistinct _, h.nodup_asked hdistinct _, ?_⟩,
    h.nodup_asked hdistinct _, ?_⟩, ?_⟩
  · exact hkeys.map fun _ _ hsame => (Prod.mk.inj hsame).2
  · rintro request hfanout _ huplink rfl
    have hmate := (h.source.2.1 huplink).1
    rw [h.source.1 hfanout] at hmate
    exact (hpartner (h.ran_of_mem hfanout)).2.2 hmate
  · rintro request hrequest _ hcross rfl
    obtain ⟨hne, uplink, hheard, hfar⟩ := (h.behind (h.ran_of_mem hcross)).2
    have hsource := (h.source.2.2 hcross).1
    rcases List.mem_append.1 hrequest with hfanout | huplink
    · exact hne (hsource.symm.trans (h.source.1 hfanout))
    · have hmate := (h.source.2.1 huplink).1
      rw [hsource] at hmate
      have hnear := (hpartner (h.ran_of_mem huplink)).1
      exact hne (hdistinct.inputs.apart (hdistinct.mates _ hmate) hnear hfar hheard)
  · rintro request hown _ hrelay rfl
    obtain ⟨channel, -, rfl⟩ := List.mem_map.1 hown
    rcases List.mem_append.1 hrelay with hrelay | hcross
    · rcases List.mem_append.1 hrelay with hfanout | huplink
      · exact (hpartner (h.ran_of_mem hfanout)).2.1 (h.source.1 hfanout).symm
      · exact ne_rank_of_mem_mates (h.source.2.1 huplink).1 rfl
    · obtain ⟨-, uplink, -, hfar⟩ := (h.behind (h.ran_of_mem hcross)).2
      rw [← (h.source.2.2 hcross).1, hdistinct.inputs.own] at hfar
      exact absurd hfar (by simp)

/-- The data of the partner is asked for by the first rule alone. -/
theorem Relayed.filter_partner (h : router.Relayed partner fellow far asked)
    (hdistinct : router.Distinct near) (hran : router.forwarding.ran .fanout = true) :
    (router.node.journal.transmits.filter (·.1 == partner)).Perm (asked .fanout) := by
  obtain ⟨-, hrank, hmates⟩ := hdistinct.partner (h.chosen hran)
  have hown : (router.node.bindings.keys.map fun channel => (router.rank, channel)).filter
      (·.1 == partner) = [] := by
    rw [List.filter_eq_nil_iff]
    intro request hrequest
    obtain ⟨channel, -, rfl⟩ := List.mem_map.1 hrequest
    simpa using hrank.symm
  have hfanout : (asked .fanout).filter (·.1 == partner) = asked .fanout := by
    rw [List.filter_eq_self]
    intro request hrequest
    simpa using h.source.1 hrequest
  have huplink : (asked .uplink).filter (·.1 == partner) = [] := by
    rw [List.filter_eq_nil_iff]
    intro request hrequest
    have hmate := (h.source.2.1 hrequest).1
    rw [beq_iff_eq]
    rintro rfl
    exact hmates hmate
  have hcross : (asked .cross).filter (·.1 == partner) = [] := by
    rw [List.filter_eq_nil_iff]
    intro request hrequest
    have hne := (h.behind (h.ran_of_mem hrequest)).2.1
    rw [(h.source.2.2 hrequest).1]
    simpa using hne
  have hperm := h.transmits.filter (·.1 == partner)
  rw [List.filter_append, List.filter_append, List.filter_append, hown, hfanout, huplink, hcross,
    List.nil_append, List.append_nil, List.append_nil] at hperm
  exact hperm

theorem Attached.distinct (h : router.Attached)
    (hinputs : router.node.ledger.HeardApart router.rank near)
    (hmates : ∀ mate ∈ router.mates, near mate)
    (hpartner : ∀ {partner}, router.forwarding.crossPartner? = some partner → near partner) :
    router.Distinct near := by
  constructor
  case inputs => exact hinputs
  case mates => exact hmates
  case partner =>
    intro partner hchosen
    obtain ⟨hpeer, hacross⟩ := h.chosen hchosen
    refine ⟨hpartner hchosen, (Topology.mem_peers_iff.1 hpeer).1, fun hmate => ?_⟩
    have hshare := (Topology.mem_chassisMates_iff.1 hmate).2
    exact absurd (hshare.symm.trans hacross) (by simp)

/-! ## Runs -/

/-- A router that hears its near peers on their own cables, and has asked for nothing twice. -/
structure Cabled (router : Router) (near : Rank → Prop) : Prop where
  heard : router.Heard near
  once : router.node.journal.transmits.Nodup

theorem Step.cabled (hrouter : router.Cabled near) (hfrugal : router.Frugal)
    (hworking : router.node.isFailed = false) (hmates : ∀ mate ∈ router.mates, near mate)
    (hpartner : ∀ {partner}, next.forwarding.crossPartner? = some partner → near partner)
    (hhears : ∀ source, near source → router.misheard? event ≠ some source)
    (h : router.Step backend event next result) : next.Cabled near := by
  have hheard := h.heard hrouter.heard hworking hhears
  have hattached := h.attached hfrugal.attached hworking
  obtain ⟨full, hwithin, halike⟩ := h.exists_within (hfrugal.relays hworking) hworking
  have hdistinct : full.Distinct near := by
    rcases halike with halike | halike
    · apply Distinct.congr _ halike
      exact hfrugal.attached.distinct hrouter.heard.inputs hmates
        fun hchosen => hpartner (h.partner_mono hchosen)
    · apply Distinct.congr _ halike
      exact hattached.distinct hheard.inputs ((mates_congr h.topology_eq) ▸ hmates) hpartner
  constructor
  case heard => exact hheard
  case once =>
    obtain ⟨partner, fellow, far, asked, hrelayed⟩ := hwithin.relays
    exact (hrelayed.nodup hdistinct).sublist hwithin.transmits.sublist

theorem cabled_create (h : (create profile topology).2 = .ok start) (near : Rank → Prop) :
    start.Cabled near := by
  obtain ⟨-, hosts, hnode⟩ := create_eq_ok h
  have hunheard : ∀ source, start.node.ledger.input? source = none := by
    rw [hnode]
    exact fun _ => rfl
  have hunreached : ∀ peer, start.node.ledger.reaches peer = false := by
    rw [hnode]
    exact fun _ => rfl
  constructor
  case heard =>
    constructor
    case inputs => exact ⟨hunheard _, fun _ _ hinput => absurd hinput (by simp [hunheard])⟩
    case direct => exact fun _ _ _ _ hinput => absurd hinput (by simp [hunheard])
    case reached => exact fun _ _ hreaches => absurd hreaches (by simp [hunreached])
  case once =>
    rw [hnode]
    exact .nil

theorem mates_run (h : (create profile topology).2 = .ok start) (events : List Event) :
    (start.run backend events).mates = start.mates := by
  apply mates_congr
  rw [topology_run h backend events]
  exact (topology_run h backend []).symm

theorem cabled_run {members : List Member} {localRank : Rank} {request : ProfileRequest}
    (htopology : Topology.ofMembers members localRank request = .ok topology)
    (h : (create profile topology).2 = .ok start) (hprofile : profile ≠ .pair)
    (hmates : ∀ mate ∈ start.mates, near mate) (events : List Event)
    (hpartner : ∀ {before partner}, before <+: events →
      (start.run backend before).forwarding.crossPartner? = some partner → near partner)
    (hhears : ∀ {before event source}, before ++ [event] <+: events → near source →
      (start.run backend before).misheard? event ≠ some source) :
    (start.run backend events).Cabled near := by
  induction events using List.reverseRecOn with
  | nil => exact cabled_create h near
  | append_singleton before event ih =>
    have hgrown := List.prefix_append before [event]
    have hrouter := ih (fun hearly => hpartner (hearly.trans hgrown))
      fun hearly => hhears (hearly.trans hgrown)
    have hnext : ∀ {partner}, (start.run backend (before ++ [event])).forwarding.crossPartner? =
        some partner → near partner := hpartner List.prefix_rfl
    rw [run_concat] at hnext ⊢
    cases hfailed : (start.run backend before).node.isFailed with
    | true =>
      rw [handle_of_isFailed hfailed]
      exact hrouter
    | false =>
      apply (step_handle backend event hfailed).cabled hrouter
        (frugal_run htopology h hprofile backend before) hfailed (mates_run h before ▸ hmates) hnext
      exact fun source => hhears List.prefix_rfl

/-- The peers that a router is to have a cable to: its mates and the partner that it knows. -/
def IsNear (router : Router) (peer : Rank) : Prop :=
  peer ∈ router.mates ∨ router.forwarding.crossPartner? = some peer

instance (router : Router) (peer : Rank) : Decidable (router.IsNear peer) :=
  inferInstanceAs (Decidable (_ ∨ _))

/-- By no event of a run the router first hears a mate or the partner on the cable of another
peer. -/
def HearsDirectly (start : Router) (backend : Backend) (events : List Event) : Prop :=
  ∀ (n : Nat) (h : n < events.length), ((start.run backend (events.take n)).misheard? events[n]).all
    fun source => ¬(start.run backend events).IsNear source

instance (start : Router) (backend : Backend) (events : List Event) :
    Decidable (start.HearsDirectly backend events) :=
  Nat.decidableBallLT events.length fun n h =>
    ((start.run backend (events.take n)).misheard? events[n]).all
      fun source => ¬(start.run backend events).IsNear source

theorem HearsDirectly.misheard?_ne {events before : List Event} {source : Rank}
    (h : start.HearsDirectly backend events) (hevent : before ++ [event] <+: events)
    (hnear : (start.run backend events).IsNear source) :
    (start.run backend before).misheard? event ≠ some source := by
  obtain ⟨after, rfl⟩ := hevent
  intro hmisheard
  have hlt : before.length < (before ++ [event] ++ after).length := by simp
  have hfar := h before.length hlt
  have htake : (before ++ [event] ++ after).take before.length = before := by simp
  have hat : (before ++ [event] ++ after)[before.length] = event := by simp
  rw [htake, hat, hmisheard, Option.all_some, decide_eq_true_eq] at hfar
  exact hfar hnear

/-- A router whose relays go out on the cables of their receivers: a peer with which it exchanges
data directly is heard on the channel that is bound to it, the first rule asks for the data of the
partner on the channels of all three mates, and no data is asked for twice on a channel. -/
structure RelaysOnCables (router : Router) : Prop where
  direct : router.phase ≠ .failed → ∀ {peer}, router.node.ledger.exchangesDirectly peer = true →
    ∃ channel, router.node.boundChannel? peer = some channel ∧
      router.node.ledger.input? peer = some channel
  fanout : router.phase ≠ .failed → router.forwarding.ran .fanout = true → ∃ partner channels,
    router.forwarding.crossPartner? = some partner ∧
      router.mates.mapM router.node.boundChannel? = some channels ∧ channels.length = 3 ∧
        channels.Nodup ∧ (router.node.journal.transmits.filter (·.1 == partner)).Perm
          (channels.map fun channel => (partner, channel))
  once : router.node.journal.transmits.Nodup

/-- While a router works, the peers that it has channels to are near. -/
theorem Frugal.isNear (h : router.Frugal) (hworking : router.node.isFailed = false)
    {channel : Channel} (hbound : router.node.boundPeer? channel = some peer) :
    router.IsNear peer := by
  cases hshare : router.node.topology.shareChassis router.rank peer with
  | true =>
    left
    have hpeer := Topology.mem_peers_iff.1 (h.attached.apart.peer hbound)
    exact Topology.mem_chassisMates_iff.2 ⟨hpeer.1, hshare⟩
  | false => exact .inr (h.attached.known hworking h.profile hbound hshare)

theorem Cabled.relaysOnCables (h : router.Cabled router.IsNear) (hfrugal : router.Frugal) :
    router.RelaysOnCables := by
  have hcable : router.phase ≠ .failed → ∀ {peer channel}, router.IsNear peer →
      router.node.ledger.input? peer = some channel →
        router.node.boundChannel? peer = some channel :=
    fun hphase _ _ hnear hinput =>
      hfrugal.attached.apart.boundChannel?_eq
        (h.heard.direct (working_of_phase hphase) hnear hinput)
  constructor
  case direct =>
    intro hphase peer hdirect
    obtain ⟨hheard, hreaches⟩ := Ledger.exchangesDirectly_iff.1 hdirect
    obtain ⟨channel, hinput⟩ := Option.isSome_iff_exists.1 hheard
    obtain ⟨bound, hbound⟩ := h.heard.reached (working_of_phase hphase) hreaches
    have hnear := hfrugal.isNear (working_of_phase hphase) hbound
    exact ⟨channel, hcable hphase hnear hinput, hinput⟩
  case fanout =>
    intro hphase hran
    obtain ⟨partner, fellow, far, asked, hrelayed⟩ := hfrugal.relays (working_of_phase hphase)
    have hdistinct := hfrugal.attached.distinct h.heard.inputs (fun _ => .inl) .inr
    have hfanout := hrelayed.fanout hran
    rw [Ledger.mapM_relay?, Option.map_eq_some_iff] at hfanout
    obtain ⟨channels, hchannels, hasked⟩ := hfanout
    have hperm := hrelayed.filter_partner hdistinct hran
    have hnodup := hrelayed.nodup_asked hdistinct .fanout
    rw [← hasked] at hperm hnodup
    refine ⟨partner, channels, hrelayed.chosen hran, ?_, ?_, hnodup.of_map _, hperm⟩
    · exact mapM_mono (fun hmate hinput => hcable hphase (.inl hmate) hinput) hchannels
    · exact (length_of_mapM hchannels).trans hfrugal.mates
  case once => exact h.once

theorem relaysOnCables_run {members : List Member} {localRank : Rank} {request : ProfileRequest}
    (htopology : Topology.ofMembers members localRank request = .ok topology)
    (h : (create profile topology).2 = .ok start) (hprofile : profile ≠ .pair)
    {events : List Event} (hhears : start.HearsDirectly backend events) :
    (start.run backend events).RelaysOnCables := by
  have hfrugal := frugal_run htopology h hprofile backend events
  apply Cabled.relaysOnCables _ hfrugal
  apply cabled_run htopology h hprofile
  · intro mate hmate
    left
    rwa [mates_run h]
  · rintro before partner ⟨after, rfl⟩ hpartner
    right
    rw [run_append]
    exact run_invariant hpartner (fun hknown _ hstep => hstep.partner_mono hknown) after
  · exact fun hearly => hhears.misheard?_ne hearly

/-- A router that runs its first rule with all mates and the partner heard on their own cables. -/
theorem relaysOnCables_run_eight : ∃ topology start,
    Topology.ofMembers (Layout.members 8) 0 .auto = .ok topology ∧
      (create .cube topology).2 = .ok start ∧
        start.HearsDirectly .accepting outerExchange ∧
        (start.run .accepting outerExchange).phase ≠ .failed ∧
        (start.run .accepting outerExchange).forwarding.ran .fanout = true ∧
        (start.run .accepting outerExchange).RelaysOnCables := by
  obtain ⟨topology, start, hvalid, hcreate, hhears, hphase, hran⟩ : ∃ topology start,
      Topology.ofMembers (Layout.members 8) 0 .auto = .ok topology ∧
        (create .cube topology).2 = .ok start ∧ start.HearsDirectly .accepting outerExchange ∧
          (start.run .accepting outerExchange).phase ≠ .failed ∧
          (start.run .accepting outerExchange).forwarding.ran .fanout = true :=
    exists_created (by decide +kernel)
  exact ⟨topology, start, hvalid, hcreate, hhears, hphase, hran,
    relaysOnCables_run hvalid hcreate (by decide) hhears⟩

/-- After the same opening as before, mate 2 is heard on the cable of mate 1. -/
def outerMishearing : List Event :=
  outerOpening ++ [.connection ⟨.rx, 1, 1, true⟩, .connection ⟨.rx, 1, 2, true⟩,
    .connection ⟨.rx, 3, 3, true⟩, .connection ⟨.rx, 9, 4, true⟩]

/-- A router that mishears mate 2 takes it for one that it exchanges data with directly, sends the
data of the partner to mate 1 twice and to mate 2 never. -/
theorem not_relaysOnCables_run_eight : ∃ topology start,
    Topology.ofMembers (Layout.members 8) 0 .auto = .ok topology ∧
      (create .cube topology).2 = .ok start ∧
        (start.run .accepting outerMishearing).phase ≠ .failed ∧
        (start.run .accepting outerMishearing).node.ledger.exchangesDirectly 2 = true ∧
        (start.run .accepting outerMishearing).node.boundChannel? 2 = some 2 ∧
        (start.run .accepting outerMishearing).node.ledger.input? 2 = some 1 ∧
        (start.run .accepting outerMishearing).node.journal.transmits =
          [(0, 1), (0, 2), (0, 3), (0, 9), (4, 1), (4, 1), (4, 3)] ∧
        ¬(start.run .accepting outerMishearing).RelaysOnCables := by
  obtain ⟨topology, start, hvalid, hcreate, hphase, hdirect, hbound, hinput, htransmits⟩ :
      ∃ topology start, Topology.ofMembers (Layout.members 8) 0 .auto = .ok topology ∧
        (create .cube topology).2 = .ok start ∧
          (start.run .accepting outerMishearing).phase ≠ .failed ∧
          (start.run .accepting outerMishearing).node.ledger.exchangesDirectly 2 = true ∧
          (start.run .accepting outerMishearing).node.boundChannel? 2 = some 2 ∧
          (start.run .accepting outerMishearing).node.ledger.input? 2 = some 1 ∧
          (start.run .accepting outerMishearing).node.journal.transmits =
            [(0, 1), (0, 2), (0, 3), (0, 9), (4, 1), (4, 1), (4, 3)] :=
    exists_created (by decide +kernel)
  refine ⟨topology, start, hvalid, hcreate, hphase, hdirect, hbound, hinput,
    htransmits, fun h => ?_⟩
  have honce := h.once
  rw [htransmits] at honce
  exact absurd honce (by decide)

end Router

end MeshFormation
