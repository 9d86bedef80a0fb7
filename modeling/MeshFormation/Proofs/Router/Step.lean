import MeshFormation.Proofs.Forwarding.Relays
import MeshFormation.Proofs.Router.Knowledge
import Mathlib.Data.List.Induction

/-!
# What one event can do

A router that has not failed treats an event in one of a few ways. It has nothing to do, it refuses
the event, it fails, or it takes something in: then it locks or runs its rules. The cases below say
for each way when it is taken and what the router is afterwards, so a property of all runs is a
property of the first state that each case keeps.
-/

namespace MeshFormation

namespace Node

variable {node : Node} {event : ChannelEvent}

/-- A locked node accepts no new channel. -/
theorem not_locked_of_fresh (h : node.screening event = .fresh) : node.progress.locked = false :=
  (screening_eq_fresh_iff.1 h).2.2.1

/-- Recording a connection looks at the ledger and not at the counts. -/
theorem ne_surplus_of_ledgerAfter {direction : Direction} {channel : Channel} {source : Rank}
    {violation : Violation} (h : node.ledgerAfter direction channel source = .error violation)
    (surplus : SurplusCompletion) : violation ≠ .surplusCompletion surplus := by
  unfold ledgerAfter at h
  grind

end Node

namespace Forwarding

variable {forwarding : Forwarding} {node : Node} {event : ChannelEvent}

theorem role_announce (cube : CubeForwarding) (node : Node) (peer : Rank) :
    (cube.announce node peer).1.role = cube.role := by
  unfold CubeForwarding.announce
  split <;> rfl

theorem role_announceAll (cube : CubeForwarding) (node : Node) (peers : List Rank) :
    (cube.announceAll node peers).1.role = cube.role := by
  induction peers generalizing cube with
  | nil => rfl
  | cons peer rest ih => exact (ih _).trans (role_announce cube node peer)

@[simp] theorem crossPartner?_transmitDone (forwarding : Forwarding) (node : Node)
    (receiver : Rank) :
    (forwarding.transmitDone node receiver).1.crossPartner? = forwarding.crossPartner? := by
  cases forwarding with
  | pair => rfl
  | hypercube rules => rfl
  | cube rules =>
    simp only [transmitDone, crossPartner?, CubeForwarding.transmitDone]
    split
    · rw [role_announce]
    · rfl

/-- A bound channel that leads to the other chassis gives the node its partner, once, and in a cube
raises the number of expected transmits. -/
inductive Binds (forwarding : Forwarding) (node : Node) : Forwarding → Node → Prop where
  | inside {next : Forwarding} (partner : next.crossPartner? = forwarding.crossPartner?) :
      Binds forwarding node next node
  | across {next : Forwarding} (unset : forwarding.crossPartner? = none)
      (partner : next.crossPartner?.isSome = true) : Binds forwarding node next node
  | raised {next : Forwarding} (unset : forwarding.crossPartner? = none)
      (partner : next.crossPartner?.isSome = true) :
      Binds forwarding node next (node.raiseTransmits outerExtraTx)

theorem binds_channelBound (forwarding : Forwarding) (node : Node) (event : ChannelEvent) :
    forwarding.Binds node (forwarding.channelBound node event).1
      (forwarding.channelBound node event).2.1 := by
  cases forwarding with
  | pair => exact .inside rfl
  | hypercube rules =>
    obtain ⟨⟨partner⟩, requestedLinks, liveLinks, partnerRelayed⟩ := rules
    simp only [channelBound, HypercubeForwarding.channelBound]
    split
    · exact .inside rfl
    · cases partner with
      | none => exact .across rfl rfl
      | some partner => exact .inside rfl
  | cube rules =>
    obtain ⟨role, announcers, informed, partnerRelayed, uplinkRelayed, crossRelayed⟩ := rules
    simp only [channelBound, CubeForwarding.channelBound]
    split
    · exact .inside rfl
    · cases role with
      | undetermined =>
        apply Binds.raised rfl
        simp only [Role.becomeOuter, crossPartner?, role_announceAll]
        rfl
      | outer partner => exact .inside rfl

end Forwarding

theorem Forwarding.Binds.asks {forwarding after : Forwarding} {node next : Node}
    {kind : Call → Prop} (h : forwarding.Binds node after next) : node.Asks kind next := by
  cases h with
  | inside | across => exact .refl kind node
  | raised => exact .nothing rfl

namespace Router

variable {router middle next start : Router} {backend : Backend} {event : Event} {outbox : Outbox}
  {result : Except RouterError Outbox}

/-- A connected channel is turned down, by the shared checks or by the profile. -/
def Rejects (router : Router) (known : ChannelEvent) : Prop :=
  (∃ reason, router.node.screening known = .reject reason) ∨
    router.node.screening known = .fresh ∧
      (router.forwarding.rejection? router.node known).isSome = true

/-- A connected channel passes all checks. -/
structure Admits (router : Router) (known : ChannelEvent) : Prop where
  connected : known.connected = true
  fresh : router.node.screening known = .fresh
  admitted : router.forwarding.rejection? router.node known = none

/-- What a router takes in from an event before it locks or runs its rules, and what it then
sends. -/
inductive Absorbs (router : Router) : Event → Router → Outbox → Prop where
  | receive {channel : Channel} {source bound : Rank} {ledger : Ledger} {progress : Progress}
      (recorded : router.node.ledgerAfter .rx channel source = .ok (bound, ledger))
      (counted : router.node.progress.complete .rx = .ok progress) :
      Absorbs router (.connection ⟨.rx, channel, source, true⟩)
        { router with node := { router.node with ledger, progress } } []
  | transmit {channel : Channel} {source bound : Rank} {ledger : Ledger} {progress : Progress}
      {next : Router} {outbox : Outbox}
      (recorded : router.node.ledgerAfter .tx channel source = .ok (bound, ledger))
      (counted : router.node.progress.complete .tx = .ok progress)
      (informed : transmitCompleted { router with node := { router.node with ledger, progress } }
        source bound = (next, outbox)) :
      Absorbs router (.connection ⟨.tx, channel, source, true⟩) next outbox
  | forward {forwarder receiver : Rank} {base : Route} (other : receiver ≠ router.rank)
      (forwarding : router.node.topology.hasMember forwarder = true)
      (receiving : router.node.topology.hasMember receiver = true)
      (known : router.node.ledger.route? forwarder = some base)
      (sound : (base.relayed receiver).fault? router.rank receiver = none) :
      Absorbs router (.forward forwarder receiver)
        { router with node := { router.node with
          ledger := router.node.ledger.recordRoute receiver (base.relayed receiver) } } []
  | announce {announcer : Rank} {chassis : String} {rules : CubeForwarding}
      (cube : router.forwarding = .cube rules) (other : announcer ≠ router.rank)
      (stated : router.node.topology.chassis? announcer = some chassis) :
      Absorbs router (.outerAnnounce announcer chassis)
        ⟨router.node, .cube { rules with announcers := rules.announcers.add announcer }⟩ []

/-- The ways in which an event reports a loss or a failure that is not the loss of a bound
channel. -/
inductive Breaks (router : Router) : Event → FailureReason → Prop where
  | connection {event : ConnectionEvent} (lost : event.connected = false) :
      Breaks router (.connection event) (.connectionLost event.source)
  | network {event : NetworkEvent} {rules : HypercubeForwarding}
      (hypercube : router.forwarding = .hypercube rules)
      (requested : rules.requestedLinks.contains event.peer = true)
      (lost : event.connected = false) :
      Breaks router (.network event) (.connectionLost event.peer)
  | failure {reason : FailureReason} : Breaks router (.failure reason) reason

/-- What an event does to a router that has not failed. -/
inductive Step (backend : Backend) (router : Router) :
    Event → Router → Except RouterError Outbox → Prop where
  | unheard {announcer : Rank} {chassis : String} (profile : router.forwarding.profile ≠ .cube) :
      Step backend router (.outerAnnounce announcer chassis) router
        (.error (.unsupported .outerAnnounce router.forwarding.profile))
  | unlinked {event : NetworkEvent} (profile : router.forwarding.profile ≠ .hypercube) :
      Step backend router (.network event) router
        (.error (.unsupported .networkLink router.forwarding.profile))
  | repeated {known : ChannelEvent} (connected : known.connected = true)
      (duplicate : router.node.screening known = .duplicate) :
      Step backend router (.channel known) router (.ok [])
  | free {known : ChannelEvent} (lost : known.connected = false)
      (unbound : router.node.boundPeer? known.channel = none) :
      Step backend router (.channel known) router (.ok [])
  | live {event : NetworkEvent} {rules : HypercubeForwarding}
      (hypercube : router.forwarding = .hypercube rules)
      (requested : rules.requestedLinks.contains event.peer = true)
      (connected : event.connected = true) (known : rules.liveLinks.contains event.peer = true) :
      Step backend router (.network event) router (.ok [])
  | rejected {known : ChannelEvent} (connected : known.connected = true)
      (rejects : router.Rejects known) :
      Step backend router (.channel known)
        { router with node := router.node.refuseChannel backend known.channel } (.ok [])
  | unestablished {known : ChannelEvent} {node : Node} (admits : router.Admits known)
      (refused : (router.node.bind known.channel known.peer).establish backend router.node.rank
        known.channel = (node, false)) :
      Step backend router (.channel known) { router with node } (.ok [])
  | bound {known : ChannelEvent} {node : Node} (admits : router.Admits known)
      (accepted : (router.node.bind known.channel known.peer).establish backend router.node.rank
        known.channel = (node, true)) :
      Step backend router (.channel known)
        ⟨(router.forwarding.channelBound node known).2.1,
          (router.forwarding.channelBound node known).1⟩
        (.ok (router.forwarding.channelBound node known).2.2)
  | lost {known : ChannelEvent} {peer : Rank} (lost : known.connected = false)
      (bound : router.node.boundPeer? known.channel = some peer) :
      Step backend router (.channel known)
        ⟨{ router.node with
            bindings := router.node.bindings.erase known.channel
            lostChannels := router.node.lostChannels.add known.channel }.fail
              (.channelLost known.channel peer), router.forwarding⟩ (.ok [])
  | broken {event : Event} {reason : FailureReason} (breaks : router.Breaks event reason) :
      Step backend router event { router with node := router.node.fail reason } (.ok [])
  | violated {event : Event} {violation : Violation}
      (other : ∀ surplus, violation ≠ .surplusCompletion surplus) :
      Step backend router event
        { router with node := router.node.fail (.protocolViolation violation) }
        (.error (.protocolViolation router.rank violation))
  | surplus {direction : Direction} {channel : Channel} {source bound : Rank} {ledger : Ledger}
      {surplus : SurplusCompletion}
      (recorded : router.node.ledgerAfter direction channel source = .ok (bound, ledger))
      (exhausted : router.node.progress.complete direction.counter = .error surplus) :
      Step backend router (.connection ⟨direction, channel, source, true⟩)
        ⟨{ router.node with ledger }.fail (.protocolViolation (.surplusCompletion surplus)),
          router.forwarding⟩
        (.error (.protocolViolation router.rank (.surplusCompletion surplus)))
  | surplusLink {event : NetworkEvent} {rules : HypercubeForwarding} {surplus : SurplusCompletion}
      (hypercube : router.forwarding = .hypercube rules)
      (requested : rules.requestedLinks.contains event.peer = true)
      (connected : event.connected = true) (new : rules.liveLinks.contains event.peer = false)
      (exhausted : router.node.progress.complete .network = .error surplus) :
      Step backend router (.network event)
        ⟨router.node.fail (.protocolViolation (.surplusCompletion surplus)),
          .hypercube { rules with liveLinks := rules.liveLinks.add event.peer }⟩
        (.error (.protocolViolation router.rank (.surplusCompletion surplus)))
  | linked {event : NetworkEvent} {rules : HypercubeForwarding} {progress : Progress}
      (hypercube : router.forwarding = .hypercube rules)
      (requested : rules.requestedLinks.contains event.peer = true)
      (connected : event.connected = true) (new : rules.liveLinks.contains event.peer = false)
      (counted : router.node.progress.complete .network = .ok progress) :
      Step backend router (.network event)
        ⟨Node.signalReadiness { router.node with progress },
          .hypercube { rules with liveLinks := rules.liveLinks.add event.peer }⟩ (.ok [])
  | absorbed {event : Event} {middle : Router} {outbox : Outbox}
      (absorbs : router.Absorbs event middle outbox) :
      Step backend router event (middle.proceed backend) (.ok outbox)

/-! ## Every event is treated in one of these ways -/

theorem step_channelChanged (router : Router) (backend : Backend) (known : ChannelEvent) :
    router.Step backend (.channel known) (router.channelChanged backend known).1
      (.ok (router.channelChanged backend known).2) := by
  unfold channelChanged
  split
  · rename_i hlost
    have hlost : known.connected = false := by simpa using hlost
    unfold Node.channelLost
    split
    · rename_i hfree
      exact .free hlost hfree
    · rename_i peer hbound
      exact .lost hlost hbound
  rename_i hconnected
  have hconnected : known.connected = true := by simpa using hconnected
  split
  · rename_i hduplicate
    exact .repeated hconnected hduplicate
  · rename_i reason hreject
    exact .rejected hconnected (.inl ⟨reason, hreject⟩)
  rename_i hfresh
  split
  · rename_i reason hreject
    exact .rejected hconnected (.inr ⟨hfresh, by rw [hreject]; rfl⟩)
  rename_i hadmitted
  split
  · rename_i node hrefused
    exact .unestablished ⟨hconnected, hfresh, hadmitted⟩ hrefused
  · rename_i node haccepted
    exact .bound ⟨hconnected, hfresh, hadmitted⟩ haccepted

theorem step_connectionChanged (router : Router) (backend : Backend) (completed : ConnectionEvent) :
    router.Step backend (.connection completed) (router.connectionChanged backend completed).1
      (router.connectionChanged backend completed).2 := by
  obtain ⟨direction, channel, source, connected⟩ := completed
  cases connected with
  | false => exact .broken (.connection rfl)
  | true =>
    unfold connectionChanged Node.completeConnection
    simp only [Bool.not_true, Bool.false_eq_true, if_false]
    cases hrecorded : router.node.ledgerAfter direction channel source with
    | error violation => exact .violated (Node.ne_surplus_of_ledgerAfter hrecorded)
    | ok recorded =>
      obtain ⟨bound, ledger⟩ := recorded
      dsimp only
      cases hcounted : router.node.progress.complete direction.counter with
      | error surplus => exact .surplus hrecorded hcounted
      | ok progress =>
        cases direction with
        | rx => exact .absorbed (.receive hrecorded hcounted)
        | tx => exact .absorbed (.transmit hrecorded hcounted rfl)

theorem step_forwarded (router : Router) (backend : Backend) (forwarder receiver : Rank) :
    router.Step backend (.forward forwarder receiver)
      (router.forwarded backend forwarder receiver).1
      (router.forwarded backend forwarder receiver).2 := by
  by_cases hother : receiver = router.rank
  · rw [forwarded, if_pos hother]
    exact .violated (by simp)
  rw [forwarded, if_neg hother, Node.learnForward]
  by_cases hunknown : (!router.node.topology.hasMember forwarder ||
      !router.node.topology.hasMember receiver) = true
  · rw [if_pos hunknown]
    exact .violated (by simp)
  obtain ⟨hforwarder, hreceiver⟩ : router.node.topology.hasMember forwarder = true ∧
      router.node.topology.hasMember receiver = true := by simpa using hunknown
  rw [if_neg hunknown]
  cases hbase : router.node.ledger.route? forwarder with
  | none => exact .violated (by simp)
  | some base =>
    dsimp only
    cases hsound : (base.relayed receiver).fault? router.node.rank receiver with
    | some fault => exact .violated (by simp)
    | none => exact .absorbed (.forward hother hforwarder hreceiver hbase hsound)

theorem step_announcementHeard (router : Router) (backend : Backend) (announcer : Rank)
    (chassis : String) :
    router.Step backend (.outerAnnounce announcer chassis)
      (router.announcementHeard backend announcer chassis).1
      (router.announcementHeard backend announcer chassis).2 := by
  obtain ⟨node, forwarding⟩ := router
  cases forwarding with
  | pair => exact .unheard (by simp [Forwarding.profile])
  | hypercube rules => exact .unheard (by simp [Forwarding.profile])
  | cube rules =>
    unfold announcementHeard
    simp only [Forwarding.announcementHeard, CubeForwarding.announcementHeard]
    by_cases hother : announcer = node.rank
    · rw [if_pos hother]
      exact .violated (by simp)
    rw [if_neg hother]
    cases hdeclared : node.topology.chassis? announcer with
    | none => exact .violated (by simp)
    | some declared =>
      dsimp only
      by_cases hstated : declared = chassis
      · subst hstated
        rw [if_neg (by simp)]
        exact .absorbed (.announce rfl hother hdeclared)
      · rw [if_pos hstated]
        exact .violated (by simp)

theorem step_networkChanged (router : Router) (backend : Backend) (changed : NetworkEvent) :
    router.Step backend (.network changed) (router.networkChanged changed).1
      (router.networkChanged changed).2 := by
  obtain ⟨node, forwarding⟩ := router
  cases forwarding with
  | pair => exact .unlinked (by simp [Forwarding.profile])
  | cube rules => exact .unlinked (by simp [Forwarding.profile])
  | hypercube rules =>
    unfold networkChanged
    simp only [Forwarding.networkChanged, HypercubeForwarding.networkChanged]
    cases hrequested : rules.requestedLinks.contains changed.peer with
    | false => exact .violated (by simp)
    | true =>
      cases hconnected : changed.connected with
      | false => exact .broken (.network rfl hrequested hconnected)
      | true =>
        cases hlive : rules.liveLinks.contains changed.peer with
        | true => exact .live rfl hrequested hconnected hlive
        | false =>
          simp only [Bool.not_true, Bool.false_eq_true, if_false, Node.countNetworkLink]
          cases hcounted : node.progress.complete .network with
          | error surplus => exact .surplusLink rfl hrequested hconnected hlive hcounted
          | ok progress => exact .linked rfl hrequested hconnected hlive hcounted

theorem step_handle (backend : Backend) (event : Event) (h : router.node.isFailed = false) :
    router.Step backend event (router.handle backend event).1 (router.handle backend event).2 := by
  unfold handle
  rw [if_neg (by simp [h])]
  cases event with
  | channel known => exact step_channelChanged router backend known
  | connection completed => exact step_connectionChanged router backend completed
  | forward forwarder receiver => exact step_forwarded router backend forwarder receiver
  | outerAnnounce announcer chassis => exact step_announcementHeard router backend announcer chassis
  | network changed => exact step_networkChanged router backend changed
  | failure reason => exact .broken .failure

/-! ## What an event makes a router ask for -/

/-- Messages about a transmit change neither the node nor its role. -/
theorem of_transmitCompleted {source bound : Rank}
    (h : transmitCompleted router source bound = (next, outbox)) :
    next.node = router.node ∧ next.forwarding.crossPartner? = router.forwarding.crossPartner? := by
  unfold transmitCompleted at h
  split at h
  · obtain ⟨rfl, -⟩ := Prod.mk.inj h
    exact ⟨rfl, Forwarding.crossPartner?_transmitDone _ _ _⟩
  · obtain ⟨rfl, -⟩ := Prod.mk.inj h
    exact ⟨rfl, rfl⟩

theorem Absorbs.journal (h : router.Absorbs event middle outbox) :
    middle.node.journal = router.node.journal := by
  cases h with
  | transmit recorded counted informed => rw [(of_transmitCompleted informed).1]
  | receive | forward | announce => rfl

theorem Absorbs.topology (h : router.Absorbs event middle outbox) :
    middle.node.topology = router.node.topology := by
  cases h with
  | transmit recorded counted informed => rw [(of_transmitCompleted informed).1]
  | receive | forward | announce => rfl

theorem Absorbs.bindings (h : router.Absorbs event middle outbox) :
    middle.node.bindings = router.node.bindings := by
  cases h with
  | transmit recorded counted informed => rw [(of_transmitCompleted informed).1]
  | receive | forward | announce => rfl

theorem asks_proceed (router : Router) (backend : Backend) :
    router.node.Asks (·.isDisable = false) (router.proceed backend).node := by
  unfold proceed
  split
  · exact .refl _ _
  split
  · exact (router.node.locks_lockWhenComplete backend).asks rfl
  · obtain ⟨accepted, hcalls⟩ := router.forwarding.calls_runRules router.node backend
    exact hcalls.asks.mono fun _ => Call.not_isDisable_of_isEstablish

/-- Going on with a lock or with the rules marks which rules have run. -/
theorem forwarding_proceed (router : Router) (backend : Backend) :
    (router.proceed backend).forwarding =
      router.forwarding.marked (router.proceed backend).forwarding.ran := by
  unfold proceed
  split
  · exact router.forwarding.marked_ran.symm
  split
  · exact router.forwarding.marked_ran.symm
  · exact router.forwarding.runRules_eq_marked router.node backend

/-- Channels are disabled only where they are turned down. -/
theorem Step.asks_or_rejects (h : router.Step backend event next result) :
    router.node.Asks (·.isDisable = false) next.node ∨
      ∃ known, event = .channel known ∧ known.connected = true ∧ router.Rejects known ∧
        next = { router with node := router.node.refuseChannel backend known.channel } := by
  cases h with
  | unheard | unlinked | repeated | free | live => exact .inl (.refl _ _)
  | rejected connected rejects => exact .inr ⟨_, rfl, connected, rejects, rfl⟩
  | @unestablished known _ admits refused =>
    apply Or.inl
    have hbind :
        router.node.Asks (·.isDisable = false) (router.node.bind known.channel known.peer) :=
      .nothing rfl
    apply hbind.trans
    exact (Node.calls_of_establish refused).asks.mono fun _ => Call.not_isDisable_of_isEstablish
  | @bound known node admits accepted =>
    apply Or.inl
    have hbind :
        router.node.Asks (·.isDisable = false) (router.node.bind known.channel known.peer) :=
      .nothing rfl
    have hcalls := (Node.calls_of_establish accepted).asks.mono fun _ =>
      Call.not_isDisable_of_isEstablish
    exact (hbind.trans hcalls).trans (router.forwarding.binds_channelBound node known).asks
  | lost | broken | violated | surplus | surplusLink =>
    apply Or.inl
    apply Node.Asks.fail
    exact .nothing rfl
  | @linked changed rules progress =>
    have hcounted : router.node.Asks (·.isDisable = false) { router.node with progress } :=
      .nothing rfl
    exact .inl (hcounted.trans (Node.signals_signalReadiness _).asks)
  | absorbed absorbs =>
    apply Or.inl
    apply Node.Asks.trans (.nothing (congrArg Journal.attempts absorbs.journal))
    exact asks_proceed _ backend

/-! ## Runs -/

theorem run_append (router : Router) (backend : Backend) (before after : List Event) :
    router.run backend (before ++ after) = (router.run backend before).run backend after :=
  List.foldl_append

theorem run_concat (router : Router) (backend : Backend) (events : List Event) (event : Event) :
    router.run backend (events ++ [event]) =
      ((router.run backend events).handle backend event).1 :=
  router.run_append backend events [event]

theorem run_of_isFailed (h : router.node.isFailed = true) (backend : Backend)
    (events : List Event) : router.run backend events = router := by
  induction events with
  | nil => rfl
  | cons event rest ih =>
    rw [run, List.foldl_cons, handle_of_isFailed h]
    exact ih

/-- A router that works at the end has worked all the time. -/
theorem working_of_run (events : List Event)
    (h : (router.run backend events).node.isFailed = false) :
    router.node.isFailed = false := by
  cases hfailed : router.node.isFailed with
  | false => rfl
  | true =>
    rw [run_of_isFailed hfailed, hfailed] at h
    exact h

/-- What holds at first and is kept by every event of a router that has not failed holds always. -/
theorem run_invariant {Inv : Router → Prop} (hstart : Inv start)
    (hstep : ∀ {router event next result}, Inv router → router.node.isFailed = false →
      router.Step backend event next result → Inv next) (events : List Event) :
    Inv (start.run backend events) := by
  induction events generalizing start with
  | nil => exact hstart
  | cons event rest ih =>
    apply ih
    cases hfailed : start.node.isFailed with
    | true =>
      simpa only [handle_of_isFailed hfailed] using hstart
    | false => exact hstep hstart hfailed (step_handle backend event hfailed)

/-- What holds at first of no events, and is kept as one that the router survives is added to them,
holds of the events of a run as long as the router works. -/
theorem run_history_of_working (Inv : List Event → Router → Prop) (hstart : Inv [] start)
    (hstep : ∀ {before router event}, Inv before router → router.node.isFailed = false →
      (router.handle backend event).1.node.isFailed = false →
        Inv (before ++ [event]) (router.handle backend event).1) (events : List Event)
    (hworking : (start.run backend events).node.isFailed = false) :
    Inv events (start.run backend events) := by
  induction events using List.reverseRecOn with
  | nil => exact hstart
  | append_singleton before event ih =>
    rw [run_concat] at hworking ⊢
    have hbefore : (start.run backend before).node.isFailed = false :=
      working_of_run [event] hworking
    exact hstep (ih hbefore) hbefore hworking

/-- What holds at first and is kept by every event that a router survives holds as long as it
works. -/
theorem run_invariant_of_working {Inv : Router → Prop} (hstart : Inv start)
    (hstep : ∀ {router event next result}, Inv router → next.node.isFailed = false →
      router.Step backend event next result → Inv next) (events : List Event)
    (hworking : (start.run backend events).node.isFailed = false) :
    Inv (start.run backend events) :=
  run_history_of_working (fun _ => Inv) hstart
    (fun hrouter hfailed hnext => hstep hrouter hnext (step_handle backend _ hfailed))
    events hworking

end Router

end MeshFormation
