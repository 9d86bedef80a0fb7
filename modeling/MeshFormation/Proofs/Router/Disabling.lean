import MeshFormation.Layout
import MeshFormation.Proofs.Router.Bindings
import MeshFormation.Proofs.Router.Lock

/-!
# Channels that are disabled

A router has a channel disabled when it turns down an event on it, and at no other time. What it
turns down once it turns down for good, as long as it works: its bindings, its partner and its lock
stay, and who is declared where does not change. A channel that is bound has therefore been disabled
only if some event on it named another peer or another chassis, and such an event leaves the binding
as it is.
-/

namespace MeshFormation

/-- The number of times that the backend was asked to disable a channel. -/
def Journal.disableAttempts (journal : Journal) (channel : Channel) : Nat :=
  journal.attempts.countP (·.call == .disable channel)

namespace Node

variable {node next : Node} {event : ChannelEvent} {channel : Channel}

theorem Asks.disableAttempts (h : node.Asks (·.isDisable = false) next) (channel : Channel) :
    next.journal.disableAttempts channel = node.journal.disableAttempts channel := by
  obtain ⟨made, hmade, hkind⟩ := h
  have hnone : made.countP (·.call == .disable channel) = 0 := by
    apply List.countP_eq_zero.2
    intro attempt hmem hcall
    have hdisable := hkind attempt hmem
    rw [beq_iff_eq.1 hcall] at hdisable
    exact absurd hdisable (by simp [Call.isDisable])
  rw [Journal.disableAttempts, hmade, List.countP_append, hnone]
  rfl

theorem disableAttempts_refuseChannel (node : Node) (backend : Backend)
    (refused channel : Channel) :
    (node.refuseChannel backend refused).journal.disableAttempts channel =
      node.journal.disableAttempts channel + if refused = channel then 1 else 0 := by
  rw [Journal.disableAttempts, refuseChannel, attempts_request, List.countP_append,
    List.countP_singleton]
  simp [Journal.disableAttempts]

end Node

/-- The rules turn down what leads out of the chassis once they know a partner. -/
theorem Forwarding.isSome_rejection?_iff {forwarding : Forwarding} {node : Node}
    {event : ChannelEvent} :
    (forwarding.rejection? node event).isSome = true ↔
      node.topology.shareChassis node.rank event.peer = false ∧
        ∃ partner, forwarding.crossPartner? = some partner := by
  cases forwarding with
  | pair => simp [rejection?, crossPartner?]
  | cube rules =>
    simp only [rejection?, CubeForwarding.rejection?, crossPartner?]
    split <;> simp_all [Option.isSome_iff_exists]
  | hypercube rules =>
    simp only [rejection?, HypercubeForwarding.rejection?, crossPartner?]
    split <;> simp_all [Option.isSome_iff_exists]

namespace Router

variable {router next start : Router} {backend : Backend} {event : Event} {known : ChannelEvent}
  {result : Except RouterError Outbox} {profile : Profile} {topology : Topology} {channel : Channel}
  {peer : Rank}

theorem not_rejects_iff (hconnected : known.connected = true) : ¬router.Rejects known ↔
    router.node.screening known = .duplicate ∨ router.Admits known := by
  constructor
  · intro hnot
    cases hscreening : router.node.screening known with
    | reject reason => exact absurd (.inl ⟨reason, hscreening⟩) hnot
    | duplicate => exact .inl rfl
    | fresh =>
      refine .inr ⟨hconnected, hscreening, ?_⟩
      rw [← Option.not_isSome_iff_eq_none]
      exact fun hrejected => hnot (.inr ⟨hscreening, hrejected⟩)
  · rintro (hduplicate | hadmits) (⟨reason, hreason⟩ | ⟨hfresh, hrejected⟩)
    · exact absurd (hduplicate.symm.trans hreason) (by simp)
    · exact absurd (hduplicate.symm.trans hfresh) (by simp)
    · exact absurd (hadmits.fresh.symm.trans hreason) (by simp)
    · exact absurd hrejected (by simp [hadmits.admitted])

/-! ## When a channel is disabled -/

/-- The event reports on this channel, and a working router turns it down. -/
def Disables (router : Router) (event : Event) (channel : Channel) : Prop :=
  router.node.isFailed = false ∧ ∃ known, event = .channel known ∧ known.connected = true ∧
    known.channel = channel ∧ router.Rejects known

theorem handle_of_rejects (hworking : router.node.isFailed = false)
    (hconnected : known.connected = true) (hrejects : router.Rejects known) (backend : Backend) :
    (router.handle backend (.channel known)).1 =
      { router with node := router.node.refuseChannel backend known.channel } := by
  rcases hrejects with ⟨reason, hreason⟩ | ⟨hfresh, hrejected⟩
  · simp [handle, hworking, channelChanged, hconnected, hreason]
  · obtain ⟨reason, hreason⟩ := Option.isSome_iff_exists.1 hrejected
    simp [handle, hworking, channelChanged, hconnected, hfresh, hreason]

/-- An event that is turned down has its channel disabled once more, and no other event any
channel. -/
theorem disableAttempts_handle (router : Router) (backend : Backend) (event : Event)
    (channel : Channel) :
    ¬router.Disables event channel ∧
        (router.handle backend event).1.node.journal.disableAttempts channel =
          router.node.journal.disableAttempts channel ∨
      router.Disables event channel ∧
        (router.handle backend event).1.node.journal.disableAttempts channel =
          router.node.journal.disableAttempts channel + 1 := by
  cases hfailed : router.node.isFailed with
  | true =>
    rw [handle_of_isFailed hfailed]
    exact .inl ⟨fun hdisables => absurd (hfailed.symm.trans hdisables.1) (by simp), rfl⟩
  | false =>
    by_cases hturned : ∃ known, event = .channel known ∧ known.connected = true ∧
        router.Rejects known
    · obtain ⟨known, rfl, hconnected, hrejects⟩ := hturned
      rw [handle_of_rejects hfailed hconnected hrejects, Node.disableAttempts_refuseChannel]
      by_cases hchannel : known.channel = channel
      · rw [if_pos hchannel]
        exact .inr ⟨⟨hfailed, known, rfl, hconnected, hchannel, hrejects⟩, rfl⟩
      · rw [if_neg hchannel]
        refine .inl ⟨?_, rfl⟩
        rintro ⟨-, other, hsame, -, hother, -⟩
        obtain rfl := Event.channel.inj hsame
        exact hchannel hother
    · left
      constructor
      · rintro ⟨-, known, hevent, hconnected, -, hrejects⟩
        exact hturned ⟨known, hevent, hconnected, hrejects⟩
      · rcases (step_handle backend event hfailed).asks_or_rejects with hasks |
          ⟨known, hevent, hconnected, hrejects, -⟩
        · exact hasks.disableAttempts channel
        · exact absurd ⟨known, hevent, hconnected, hrejects⟩ hturned

/-! ## What is turned down stays turned down -/

/-- A router that goes on to work lost no channel. -/
theorem Step.lostChannels_eq (h : router.Step backend event next result)
    (hnext : next.node.isFailed = false) :
    next.node.lostChannels = router.node.lostChannels := by
  obtain ⟨node, hwrites, hadvances⟩ := h.writes
  rw [hadvances.lostChannels]
  cases hwrites with
  | counts | binds | records | learns => rfl
  | @unbinds known peer bound =>
    -- The channel that is given up would be bound to nobody, but a router that works keeps its
    -- bindings.
    have hgone : next.node.boundPeer? known.channel = none := by
      rw [Node.boundPeer?, hadvances.bindings, Table.get?_erase, if_pos rfl]
    exact absurd ((h.boundPeer?_mono hnext bound).symm.trans hgone) (by simp)

theorem Step.locked_mono (h : router.Step backend event next result)
    (hlocked : router.node.progress.locked = true) : next.node.progress.locked = true := by
  rcases h.extends_or_locks with hextends | ⟨node, hextends, -, -, hnext⟩
  · exact hextends.locked.trans hlocked
  · have hnode := hextends.locked.trans hlocked
    have hlocks : node.Extends (fun _ => True) (node.lockWhenComplete backend) :=
      (node.locks_lockWhenComplete backend).extends_of_locked hnode
    rw [hnext]
    exact hlocks.locked.trans hnode

/-- A channel is bound only by an event that passes all checks. -/
theorem Step.boundPeer?_cases (h : router.Step backend event next result)
    (hbound : next.node.boundPeer? channel = some peer) :
    router.node.boundPeer? channel = some peer ∨ ∃ known, event = .channel known ∧
      router.Admits known ∧ known.channel = channel ∧ known.peer = peer := by
  obtain ⟨node, hwrites, hadvances⟩ := h.writes
  rw [Node.boundPeer?, hadvances.bindings] at hbound
  cases hwrites with
  | counts | records | learns => exact .inl hbound
  | @binds known admits =>
    have hcases := (router.node.boundPeer?_bind known.channel channel known.peer).symm.trans hbound
    split at hcases
    · rename_i hchannel
      exact .inr ⟨known, rfl, admits, hchannel.symm, Option.some.inj hcases⟩
    · exact .inl hcases
  | unbinds =>
    rw [Table.get?_erase] at hbound
    split at hbound
    · exact absurd hbound (by simp)
    · exact .inl hbound

theorem Step.duplicate_mono (h : router.Step backend event next result)
    (hnext : next.node.isFailed = false) (hduplicate : router.node.screening known = .duplicate) :
    next.node.screening known = .duplicate := by
  obtain ⟨hrecognises, hbound⟩ := Node.screening_eq_duplicate_iff.1 hduplicate
  exact Node.screening_eq_duplicate_iff.2
    ⟨hrecognises.congr h.topology_eq (h.lostChannels_eq hnext), h.boundPeer?_mono hnext hbound⟩

/-- What passes all checks later passes them now. -/
theorem Step.admits_of_admits (h : router.Step backend event next result)
    (hnext : next.node.isFailed = false) (hadmits : next.Admits known) : router.Admits known := by
  obtain ⟨hrecognises, hunbound, hunlocked, hfree⟩ := Node.screening_eq_fresh_iff.1 hadmits.fresh
  have hkept : ∀ channel peer, next.node.boundPeer? channel ≠ some peer →
      router.node.boundPeer? channel ≠ some peer :=
    fun channel peer hnone hbound => hnone (h.boundPeer?_mono hnext hbound)
  constructor
  case connected => exact hadmits.connected
  case fresh =>
    refine Node.screening_eq_fresh_iff.2
      ⟨hrecognises.congr h.topology_eq.symm (h.lostChannels_eq hnext).symm, ?_, ?_, ?_⟩
    · rw [Option.eq_none_iff_forall_ne_some]
      exact fun peer => hkept _ _ (by simp [hunbound])
    · rw [← Bool.not_eq_true]
      exact fun hlocked => absurd ((h.locked_mono hlocked).symm.trans hunlocked) (by simp)
    · exact fun channel => hkept _ _ (hfree channel)
  case admitted =>
    rw [← Option.not_isSome_iff_eq_none, Forwarding.isSome_rejection?_iff]
    rintro ⟨hacross, partner, hpartner⟩
    have hrejected : (next.forwarding.rejection? next.node known).isSome = true := by
      rw [Forwarding.isSome_rejection?_iff, Node.rank, h.topology_eq]
      exact ⟨hacross, partner, h.partner_mono hpartner⟩
    exact absurd hrejected (by simp [hadmits.admitted])

theorem Step.rejects_mono (h : router.Step backend event next result)
    (hnext : next.node.isFailed = false) (hconnected : known.connected = true)
    (hrejects : router.Rejects known) : next.Rejects known := by
  by_contra hnot
  rcases (not_rejects_iff hconnected).1 hnot with hduplicate | hadmits
  · obtain ⟨hrecognises, hbound⟩ := Node.screening_eq_duplicate_iff.1 hduplicate
    have hbefore := hrecognises.congr h.topology_eq.symm (h.lostChannels_eq hnext).symm
    rcases h.boundPeer?_cases hbound with hbound | ⟨first, -, hfirst, hchannel, hpeer⟩
    · exact (not_rejects_iff hconnected).2
        (.inl (Node.screening_eq_duplicate_iff.2 ⟨hbefore, hbound⟩)) hrejects
    · -- The channel was bound by an event that says the same.
      have hchassis := (Node.screening_eq_fresh_iff.1 hfirst.fresh).1.chassis
      rw [hpeer, hbefore.chassis] at hchassis
      have hsame : first = known := by
        have hlive := hfirst.connected.trans hconnected.symm
        obtain ⟨channel, peer, chassis, connected⟩ := first
        obtain ⟨channel', peer', chassis', connected'⟩ := known
        simp_all
      exact (not_rejects_iff hconnected).2 (.inr (hsame ▸ hfirst)) hrejects
  · exact (not_rejects_iff hconnected).2 (.inr (h.admits_of_admits hnext hadmits)) hrejects

/-- A router that goes on to work has turned a connected channel down or has it bound. -/
theorem Step.duplicate_or_rejects (h : router.Step backend (.channel known) next result)
    (hnext : next.node.isFailed = false) (hconnected : known.connected = true) :
    next.node.screening known = .duplicate ∨ router.Rejects known := by
  have htopology := h.topology_eq
  have hlost := h.lostChannels_eq hnext
  cases h with
  | repeated connected duplicate => exact .inl duplicate
  | free lost | lost lost => exact absurd (hconnected.symm.trans lost) (by simp)
  | rejected connected rejects => exact .inr rejects
  | unestablished admits refused =>
    cases Node.calls_of_establish refused with
    | refused calls => exact absurd hnext (by simp)
  | @bound _ node admits accepted =>
    have hadvances := Node.advances_of_establish accepted
    have hrecognises := (Node.screening_eq_fresh_iff.1 admits.fresh).1
    refine .inl (Node.screening_eq_duplicate_iff.2 ⟨hrecognises.congr htopology hlost, ?_⟩)
    rw [Node.boundPeer?, (admits.joins accepted).advances.bindings, hadvances.bindings]
    exact (router.node.boundPeer?_bind known.channel known.channel known.peer).trans (if_pos rfl)
  | broken breaks => cases breaks
  | violated => exact absurd hnext (by simp)
  | absorbed absorbs => cases absorbs

/-! ## Runs -/

/-- What a working router makes of the channels that were connected in its run: each of them is
bound as it was reported or turned down, and those that are turned down are the ones that were
disabled. -/
structure Weighed (router : Router) (events : List Event) : Prop where
  heard : ∀ {known}, .channel known ∈ events → known.connected = true →
    router.node.screening known = .duplicate ∨ router.Rejects known
  disabled : ∀ {channel}, router.node.journal.disableAttempts channel ≠ 0 ↔ ∃ known,
    .channel known ∈ events ∧ known.connected = true ∧ known.channel = channel ∧
      router.Rejects known

theorem Weighed.handle {before : List Event} (h : router.Weighed before)
    (hworking : router.node.isFailed = false)
    (hnext : (router.handle backend event).1.node.isFailed = false) :
    (router.handle backend event).1.Weighed (before ++ [event]) := by
  have hstep := step_handle backend event hworking
  have hnew : ∀ {known}, event = .channel known → known.connected = true →
      (router.handle backend event).1.node.screening known = .duplicate ∨ router.Rejects known := by
    rintro known rfl hconnected
    exact hstep.duplicate_or_rejects hnext hconnected
  constructor
  case heard =>
    intro known hmem hconnected
    rcases List.mem_append.1 hmem with hold | hmem
    · exact (h.heard hold hconnected).imp (hstep.duplicate_mono hnext)
        (hstep.rejects_mono hnext hconnected)
    · exact (hnew (List.mem_singleton.1 hmem).symm hconnected).imp id
        (hstep.rejects_mono hnext hconnected)
  case disabled =>
    intro channel
    -- What is turned down afterwards is not bound then, so it was not bound before and was turned
    -- down.
    have hturned : ∀ {known}, .channel known ∈ before ++ [event] → known.connected = true →
        (router.handle backend event).1.Rejects known → router.Rejects known := by
      intro known hmem hconnected hrejects
      have hbound : (router.handle backend event).1.node.screening known ≠ .duplicate :=
        fun hduplicate => (not_rejects_iff hconnected).2 (.inl hduplicate) hrejects
      rcases List.mem_append.1 hmem with hold | hmem
      · exact (h.heard hold hconnected).resolve_left fun hduplicate =>
          hbound (hstep.duplicate_mono hnext hduplicate)
      · exact (hnew (List.mem_singleton.1 hmem).symm hconnected).resolve_left hbound
    have hcount := router.disableAttempts_handle backend event channel
    constructor
    · intro hdisabled
      by_cases hold : router.node.journal.disableAttempts channel = 0
      · obtain ⟨⟨-, known, rfl, hconnected, hchannel, hrejects⟩, -⟩ :=
          hcount.resolve_left fun hsame => hdisabled (hsame.2.trans hold)
        exact ⟨known, List.mem_append_right _ List.mem_cons_self, hconnected, hchannel,
          hstep.rejects_mono hnext hconnected hrejects⟩
      · obtain ⟨known, hmem, hconnected, hchannel, hrejects⟩ := h.disabled.1 hold
        exact ⟨known, List.mem_append_left _ hmem, hconnected, hchannel,
          hstep.rejects_mono hnext hconnected hrejects⟩
    · rintro ⟨known, hmem, hconnected, hchannel, hrejects⟩
      have hbefore := hturned hmem hconnected hrejects
      rcases List.mem_append.1 hmem with hold | hmem
      · have hdisabled := h.disabled.2 ⟨known, hold, hconnected, hchannel, hbefore⟩
        rcases hcount with ⟨-, hcount⟩ | ⟨-, hcount⟩ <;> omega
      · have hdisables : router.Disables event channel :=
          ⟨hworking, known, (List.mem_singleton.1 hmem).symm, hconnected, hchannel, hbefore⟩
        rcases hcount with ⟨hnever, -⟩ | ⟨-, hcount⟩
        · exact absurd hdisables hnever
        · omega

theorem weighed_run (h : (create profile topology).2 = .ok start) (backend : Backend)
    (events : List Event) (hworking : (start.run backend events).node.isFailed = false) :
    (start.run backend events).Weighed events := by
  have hstart : start.Weighed [] := by
    obtain ⟨-, hosts, hnode⟩ := create_eq_ok h
    refine ⟨fun hmem => absurd hmem List.not_mem_nil, fun {channel} => iff_of_false ?_ ?_⟩
    · rw [hnode]
      exact fun hdisabled => hdisabled rfl
    · rintro ⟨known, hmem, -⟩
      exact absurd hmem List.not_mem_nil
  exact run_history_of_working (fun events router => router.Weighed events) hstart
    (fun hrouter hworking hnext => hrouter.handle hworking hnext) events hworking

/-! ## Bound channels -/

end Router

/-- A connected channel is reported to lead to another peer than a given one, or to another chassis
than the one of this peer. -/
def ChannelEvent.Contradicts (event : ChannelEvent) (topology : Topology) (peer : Rank) : Prop :=
  event.connected = true ∧
    ¬(event.peer = peer ∧ topology.chassis? peer = some event.chassis)

namespace Router

variable {router start : Router} {profile : Profile} {topology : Topology} {known : ChannelEvent}
  {channel : Channel} {peer : Rank}

/-- An event on a bound channel is turned down if and only if it contradicts the binding. -/
theorem rejects_iff_of_bound (hattached : router.Attached) (htracks : router.node.Tracks)
    (hconnected : known.connected = true)
    (hbound : router.node.boundPeer? known.channel = some peer) :
    router.Rejects known ↔ known.Contradicts router.node.topology peer := by
  have hduplicate : router.node.screening known = .duplicate ↔
      known.peer = peer ∧ router.node.topology.chassis? peer = some known.chassis := by
    rw [Node.screening_eq_duplicate_iff, hbound]
    constructor
    · rintro ⟨hrecognises, hpeer⟩
      obtain rfl := Option.some.inj hpeer
      exact ⟨rfl, hrecognises.chassis⟩
    · rintro ⟨rfl, hchassis⟩
      refine ⟨⟨?_, hattached.apart.peer hbound, hchassis⟩, rfl⟩
      rw [← Bool.not_eq_true]
      exact fun hlost => absurd ((htracks.lost hlost).symm.trans hbound) (by simp)
  have hunadmitted : ¬router.Admits known := fun hadmits =>
    absurd ((Node.screening_eq_fresh_iff.1 hadmits.fresh).2.1.symm.trans hbound) (by simp)
  rw [← not_iff_not, not_rejects_iff hconnected, or_iff_left hunadmitted, hduplicate]
  simp [ChannelEvent.Contradicts, hconnected]

/-- What a bound channel is disabled for. An event asks for it exactly if it contradicts the
binding, which it does not change, and while the router works, it was asked for exactly if an event
did so before. -/
structure DisablesContradicted (start : Router) (backend : Backend) (events : List Event)
    (topology : Topology) (channel : Channel) (peer : Rank) : Prop where
  asked : ∀ event,
    ((start.run backend events).handle backend event).1.node.journal.disableAttempts channel ≠
        (start.run backend events).node.journal.disableAttempts channel ↔
      (start.run backend events).phase ≠ .failed ∧ ∃ known, event = .channel known ∧
        known.channel = channel ∧ known.Contradicts topology peer
  kept : ∀ known, known.channel = channel → known.Contradicts topology peer →
    ((start.run backend events).handle backend (.channel known)).1.node.boundPeer? channel =
      some peer
  spared : (start.run backend events).phase ≠ .failed →
    ((start.run backend events).node.journal.disableAttempts channel ≠ 0 ↔ ∃ known,
      .channel known ∈ events ∧ known.channel = channel ∧ known.Contradicts topology peer)

/-- In every run a bound channel is disabled for events that contradict its binding, and for nothing
else. -/
theorem disablesContradicted_run (h : (create profile topology).2 = .ok start) (backend : Backend)
    (events : List Event)
    (hbound : (start.run backend events).node.boundPeer? channel = some peer) :
    start.DisablesContradicted backend events topology channel peer := by
  have hrejects : ∀ {known}, known.connected = true → known.channel = channel →
      ((start.run backend events).Rejects known ↔ known.Contradicts topology peer) := by
    rintro known hconnected rfl
    rw [rejects_iff_of_bound (attached_run h backend events) (tracks_run h backend events)
      hconnected hbound, topology_run h backend events]
  constructor
  case asked =>
    intro event
    have hdisables : (start.run backend events).Disables event channel ↔
        (start.run backend events).phase ≠ .failed ∧ ∃ known, event = .channel known ∧
          known.channel = channel ∧ known.Contradicts topology peer := by
      constructor
      · rintro ⟨hworking, known, rfl, hconnected, hchannel, hrejected⟩
        refine ⟨fun hphase => ?_, known, rfl, hchannel, (hrejects hconnected hchannel).1 hrejected⟩
        exact absurd ((Node.isFailed_iff.2 hphase).symm.trans hworking) (by simp)
      · rintro ⟨hphase, known, rfl, hchannel, hcontradicts⟩
        exact ⟨working_of_phase hphase, known, rfl, hcontradicts.1, hchannel,
          (hrejects hcontradicts.1 hchannel).2 hcontradicts⟩
    rw [← hdisables]
    rcases disableAttempts_handle (start.run backend events) backend event channel with
      ⟨hnever, hcount⟩ | ⟨hdisabled, hcount⟩
    · exact iff_of_false (not_not_intro hcount) hnever
    · exact iff_of_true (by omega) hdisabled
  case kept =>
    intro known hchannel hcontradicts
    cases hfailed : (start.run backend events).node.isFailed with
    | true =>
      rw [handle_of_isFailed hfailed]
      exact hbound
    | false =>
      rw [handle_of_rejects hfailed hcontradicts.1
        ((hrejects hcontradicts.1 hchannel).2 hcontradicts)]
      obtain ⟨accepted, hcalls⟩ :=
        (start.run backend events).node.calls_refuseChannel backend known.channel
      rwa [Node.boundPeer?, hcalls.bindings]
  case spared =>
    intro hphase
    rw [(weighed_run h backend events (working_of_phase hphase)).disabled]
    constructor
    · rintro ⟨known, hmem, hconnected, hchannel, hrejected⟩
      exact ⟨known, hmem, hchannel, (hrejects hconnected hchannel).1 hrejected⟩
    · rintro ⟨known, hmem, hchannel, hcontradicts⟩
      exact ⟨known, hmem, hcontradicts.1, hchannel,
        (hrejects hcontradicts.1 hchannel).2 hcontradicts⟩

/-- A pair connects over channel 5. -/
def pairTurns : List Event :=
  [.channel ⟨5, 1, "p0-a", true⟩, .connection ⟨.rx, 5, 1, true⟩, .connection ⟨.tx, 5, 0, true⟩]

/-- A ready pair whose one channel was never contradicted has not disabled it. -/
theorem disablesContradicted_run_pair : ∃ topology start,
    Topology.ofMembers (Layout.members 2) 0 .auto = .ok topology ∧
      (create .pair topology).2 = .ok start ∧
        (start.run .accepting pairTurns).phase = .ready ∧
        (start.run .accepting pairTurns).node.boundPeer? 5 = some 1 ∧
        start.DisablesContradicted .accepting pairTurns topology 5 1 := by
  obtain ⟨topology, start, hvalid, hcreate, hready, hbound⟩ : ∃ topology start,
      Topology.ofMembers (Layout.members 2) 0 .auto = .ok topology ∧
        (create .pair topology).2 = .ok start ∧
          (start.run .accepting pairTurns).phase = .ready ∧
          (start.run .accepting pairTurns).node.boundPeer? 5 = some 1 :=
            exists_created (by decide +kernel)
  exact ⟨topology, start, hvalid, hcreate, hready, hbound,
    disablesContradicted_run hcreate _ _ hbound⟩

/-- The peer of a bound channel is reported again, in a chassis that it is not declared in. The
router stays ready and bound to a channel that it had disabled. -/
theorem not_spares_bound_pair : ∃ topology start,
    Topology.ofMembers (Layout.members 2) 0 .auto = .ok topology ∧
      (create .pair topology).2 = .ok start ∧
        (start.run .accepting pairTurns).node.boundPeer? 5 = some 1 ∧
        .disable 5 ∉ (start.run .accepting pairTurns).node.journal.accepted ∧
        (start.run .accepting (pairTurns ++ [.channel ⟨5, 1, "p9-z", true⟩])).phase = .ready ∧
        (start.run .accepting (pairTurns ++ [.channel ⟨5, 1, "p9-z", true⟩])).node.boundPeer? 5 =
          some 1 ∧
        .disable 5 ∈
          (start.run .accepting
            (pairTurns ++ [.channel ⟨5, 1, "p9-z", true⟩])).node.journal.accepted :=
  exists_created (by decide +kernel)

end Router

end MeshFormation
