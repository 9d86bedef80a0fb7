import MeshFormation.FaultPlan
import MeshFormation.Proofs.Router.Disabling
import MeshFormation.Proofs.Router.Fanout

/-!
# Events that are delivered twice in a row

A report of a channel or of a network link that is up, a forward and an announcement may come a
second time right after the first. What the first one wrote is there already, so it is written once
more as it is; and what was due after it has been done in one pass, or has failed the router. The
second delivery therefore changes nothing, and asks neither the backend nor the delegate nor a peer
for anything.
-/

namespace MeshFormation

namespace Table

variable {α : Type} {table : Table α} {key : UInt32} {value : α}

/-- To write what is there changes nothing. -/
theorem insert_eq_self (h : table.get? key = some value) : table.insert key value = table := by
  apply ext_get?
  intro other
  rw [get?_insert]
  split
  · rename_i heq
    rw [heq, h]
  · rfl

end Table

theorem KeySet.add_eq_self {set : KeySet} {key : UInt32} (h : set.contains key = true) :
    set.add key = set := by
  rw [Table.contains_eq_isSome] at h
  obtain ⟨value, hvalue⟩ := Option.isSome_iff_exists.1 h
  exact Table.insert_eq_self hvalue

theorem Ledger.recordRoute_eq_self {ledger : Ledger} {peer : Rank} (route : Route)
    (h : (ledger.route? peer).isSome = true) : ledger.recordRoute peer route = ledger := by
  cases hentry : ledger.get? peer with
  | none =>
    rw [route?, Ledger.entry, hentry] at h
    exact absurd h (by simp [Connectivity.blank])
  | some known =>
    have hknown : ledger.entry peer = known := by
      rw [Ledger.entry, hentry]
      rfl
    rw [route?, hknown] at h
    obtain ⟨first, hfirst⟩ := Option.isSome_iff_exists.1 h
    have hkept : { known with route := known.route <|> some route } = known := by
      rw [hfirst]
      exact congrArg (Connectivity.mk known.input known.outputs) hfirst.symm
    rw [recordRoute, hknown, hkept, put, Table.insert_eq_self hentry]

namespace Router

variable {router middle next : Router} {backend : Backend} {event : Event} {outbox : Outbox}
  {result : Except RouterError Outbox}

/-- An event that reports a channel or a network link that is up, the channel accepted as a new one
or known, or a control message. -/
inductive Welcomes (router : Router) : Event → Prop where
  | known {known : ChannelEvent} (connected : known.connected = true)
      (duplicate : router.node.screening known = .duplicate) : Welcomes router (.channel known)
  | fresh {known : ChannelEvent} (admits : router.Admits known) : Welcomes router (.channel known)
  | forward {forwarder receiver : Rank} : Welcomes router (.forward forwarder receiver)
  | outerAnnounce {announcer : Rank} {chassis : String} :
      Welcomes router (.outerAnnounce announcer chassis)
  | link {changed : NetworkEvent} (connected : changed.connected = true) :
      Welcomes router (.network changed)

/-- A second delivery of an event leaves the router as the first one left it, and asks for
nothing. -/
structure Tolerates (router : Router) (backend : Backend) (event : Event) : Prop where
  state : ((router.handle backend event).1.handle backend event).1 = (router.handle backend event).1
  calls : ((router.handle backend event).1.handle backend event).1.node.journal.attempts =
    (router.handle backend event).1.node.journal.attempts
  notices : ((router.handle backend event).1.handle backend event).1.node.journal.notices =
    (router.handle backend event).1.node.journal.notices
  outbox : outboxOf ((router.handle backend event).1.handle backend event).2 = []

theorem Tolerates.of_eq
    (h : ((router.handle backend event).1.handle backend event).1 = (router.handle backend event).1)
    (houtbox : outboxOf ((router.handle backend event).1.handle backend event).2 = []) :
    router.Tolerates backend event :=
  ⟨h, by rw [h], by rw [h], houtbox⟩

/-- A router that failed at the first delivery ignores the second. -/
theorem Tolerates.of_isFailed (h : (router.handle backend event).1.node.isFailed = true) :
    router.Tolerates backend event := by
  have hsecond := handle_of_isFailed h backend event
  exact .of_eq (by rw [hsecond]) (by rw [hsecond]; rfl)

/-- What changed nothing changes nothing again. -/
theorem Tolerates.of_self (h : (router.handle backend event).1 = router)
    (houtbox : outboxOf (router.handle backend event).2 = []) : router.Tolerates backend event :=
  .of_eq (by rw [h, h]) (by rw [h, houtbox])

/-- What was taken in is found again, so the second time the router only goes on as it did
before. -/
theorem Tolerates.of_absorbs (hnext : (router.handle backend event).1 = middle.proceed backend)
    (hworking : (middle.proceed backend).node.isFailed = false)
    (hagain : (middle.proceed backend).Absorbs event (middle.proceed backend) []) :
    router.Tolerates backend event := by
  have hsecond := handle_of_absorbs hworking hagain backend
  rw [proceed_proceed] at hsecond
  apply Tolerates.of_eq
  · rw [hnext, hsecond]
  · rw [hnext, hsecond]
    rfl

/-! ## What is known already -/

theorem handle_of_duplicate {known : ChannelEvent} (hworking : router.node.isFailed = false)
    (hconnected : known.connected = true) (hduplicate : router.node.screening known = .duplicate)
    (backend : Backend) : router.handle backend (.channel known) = (router, .ok []) := by
  simp [handle, hworking, channelChanged, hconnected, hduplicate]

theorem handle_of_live {changed : NetworkEvent} {rules : HypercubeForwarding}
    (hworking : router.node.isFailed = false) (hrules : router.forwarding = .hypercube rules)
    (hrequested : rules.requestedLinks.contains changed.peer = true)
    (hconnected : changed.connected = true) (hlive : rules.liveLinks.contains changed.peer = true)
    (backend : Backend) : router.handle backend (.network changed) = (router, .ok []) := by
  obtain ⟨node, forwarding⟩ := router
  obtain rfl : forwarding = .hypercube rules := hrules
  simp [handle, show node.isFailed = false from hworking, networkChanged, Forwarding.networkChanged,
    HypercubeForwarding.networkChanged, hrequested, hconnected, hlive]

/-- A forward that brings no new route is taken in as it is. -/
theorem absorbs_known_forward {forwarder receiver : Rank} {base : Route}
    (hother : receiver ≠ router.rank) (hforwarder : router.node.topology.hasMember forwarder = true)
    (hreceiver : router.node.topology.hasMember receiver = true)
    (hbase : router.node.ledger.route? forwarder = some base)
    (hsound : (base.relayed receiver).fault? router.rank receiver = none)
    (hknown : (router.node.ledger.route? receiver).isSome = true) :
    router.Absorbs (.forward forwarder receiver) router [] := by
  have habsorbs := Absorbs.forward hother hforwarder hreceiver hbase hsound
  rwa [Ledger.recordRoute_eq_self _ hknown] at habsorbs

/-- An announcement that was heard before is taken in as it is. -/
theorem absorbs_known_announce {announcer : Rank} {chassis : String} {rules : CubeForwarding}
    (hrules : router.forwarding = .cube rules) (hother : announcer ≠ router.rank)
    (hstated : router.node.topology.chassis? announcer = some chassis)
    (hheard : rules.announcers.contains announcer = true) :
    router.Absorbs (.outerAnnounce announcer chassis) router [] := by
  have habsorbs := Absorbs.announce hrules hother hstated
  rw [KeySet.add_eq_self hheard] at habsorbs
  change router.Absorbs _ ⟨router.node, .cube rules⟩ [] at habsorbs
  rwa [← hrules] at habsorbs

theorem Absorbs.again_of_forward {forwarder receiver : Rank}
    (h : router.Absorbs (.forward forwarder receiver) middle outbox) (backend : Backend) :
    (middle.proceed backend).Absorbs (.forward forwarder receiver) (middle.proceed backend) [] := by
  have hadvances := advances_proceed middle backend
  cases h with
  | forward other forwarding receiving known sound =>
    have hrank := rank_congr hadvances.topology
    apply absorbs_known_forward
    · exact hrank.symm ▸ other
    · exact hadvances.topology ▸ forwarding
    · exact hadvances.topology ▸ receiving
    · rw [hadvances.ledger]
      exact (Ledger.grows_recordRoute _ _ _).route known
    · exact hrank.symm ▸ sound
    · rw [hadvances.ledger, Ledger.route?_recordRoute, if_pos rfl]
      rfl

theorem Absorbs.again_of_announce {announcer : Rank} {chassis : String}
    (h : router.Absorbs (.outerAnnounce announcer chassis) middle outbox) (backend : Backend) :
    (middle.proceed backend).Absorbs (.outerAnnounce announcer chassis)
      (middle.proceed backend) [] := by
  have hadvances := advances_proceed middle backend
  have hforwarding := forwarding_proceed middle backend
  cases h with
  | announce cube other stated =>
    apply absorbs_known_announce hforwarding
    · exact (rank_congr hadvances.topology).symm ▸ other
    · exact hadvances.topology ▸ stated
    · simp

/-! ## The second delivery -/

theorem tolerates_channel {known : ChannelEvent} (hworking : router.node.isFailed = false)
    (hnext : (router.handle backend (.channel known)).1.node.isFailed = false)
    (hconnected : known.connected = true) (hwelcome : ¬router.Rejects known) :
    router.Tolerates backend (.channel known) := by
  have hstep := step_handle backend (.channel known) hworking
  have hduplicate := (hstep.duplicate_or_rejects hnext hconnected).resolve_right hwelcome
  have hsecond := handle_of_duplicate hnext hconnected hduplicate backend
  exact .of_eq (by rw [hsecond]) (by rw [hsecond]; rfl)

theorem tolerates_forward {forwarder receiver : Rank} (hworking : router.node.isFailed = false)
    (hnext : (router.handle backend (.forward forwarder receiver)).1.node.isFailed = false) :
    router.Tolerates backend (.forward forwarder receiver) := by
  obtain ⟨middle, outbox, habsorbs, hproceed⟩ :=
    (step_handle backend (.forward forwarder receiver) hworking).absorbs_of_arrival rfl hnext
  exact .of_absorbs hproceed (hproceed ▸ hnext) (habsorbs.again_of_forward backend)

theorem tolerates_announce {announcer : Rank} {chassis : String}
    (hworking : router.node.isFailed = false)
    (hnext : (router.handle backend (.outerAnnounce announcer chassis)).1.node.isFailed = false) :
    router.Tolerates backend (.outerAnnounce announcer chassis) := by
  have hstep := step_handle backend (.outerAnnounce announcer chassis) hworking
  generalize hanswer : router.handle backend (.outerAnnounce announcer chassis) =
    answer at hstep hnext
  obtain ⟨next, result⟩ := answer
  dsimp only at hstep hnext
  cases hstep with
  | unheard => exact .of_self (by rw [hanswer]) (by rw [hanswer]; rfl)
  | broken breaks => cases breaks
  | violated => exact absurd ((Node.isFailed_fail _ _).symm.trans hnext) (by simp)
  | absorbed absorbs =>
    exact .of_absorbs (by rw [hanswer]) hnext (absorbs.again_of_announce backend)

theorem tolerates_link {changed : NetworkEvent} (hworking : router.node.isFailed = false)
    (hnext : (router.handle backend (.network changed)).1.node.isFailed = false)
    (hconnected : changed.connected = true) : router.Tolerates backend (.network changed) := by
  have hstep := step_handle backend (.network changed) hworking
  generalize hanswer : router.handle backend (.network changed) = answer at hstep hnext
  obtain ⟨next, result⟩ := answer
  dsimp only at hstep hnext
  cases hstep with
  | unlinked | live => exact .of_self (by rw [hanswer]) (by rw [hanswer]; rfl)
  | broken | violated | surplusLink =>
    exact absurd ((Node.isFailed_fail _ _).symm.trans hnext) (by simp)
  | linked hypercube requested =>
    have hsecond := handle_of_live hnext rfl requested hconnected (by simp) backend
    exact .of_eq (by rw [hanswer, hsecond]) (by rw [hanswer, hsecond]; rfl)
  | absorbed absorbs => cases absorbs

/-- Whatever a router makes of an event that it welcomes, it makes nothing more of it when it comes
again. -/
theorem tolerates_welcome (router : Router) (backend : Backend) {event : Event}
    (h : router.Welcomes event) : router.Tolerates backend event := by
  cases hworking : router.node.isFailed with
  | true =>
    apply Tolerates.of_isFailed
    rwa [handle_of_isFailed hworking]
  | false =>
    cases hnext : (router.handle backend event).1.node.isFailed with
    | true => exact .of_isFailed hnext
    | false =>
      cases h with
      | known connected duplicate =>
        exact tolerates_channel hworking hnext connected
          ((not_rejects_iff connected).2 (.inl duplicate))
      | fresh admits =>
        exact tolerates_channel hworking hnext admits.connected
          ((not_rejects_iff admits.connected).2 (.inr admits))
      | forward => exact tolerates_forward hworking hnext
      | outerAnnounce => exact tolerates_announce hworking hnext
      | link connected => exact tolerates_link hworking hnext connected

/-- An outer node that has exchanged data hears two nodes behind its partner. -/
def unannouncedTurns : List Event :=
  outerExchange ++ [.connection ⟨.rx, 9, 6, true⟩, .connection ⟨.rx, 9, 7, true⟩]

/-- The ninth transmit is refused. -/
def ninthRefused : Backend :=
  (FaultPlan.empty.refuseAfter [] "establish_transmit" 8 "full").backend

/-- The announcement of the other outer node lets two rules run. It may come again, also where a
request of the first of them was refused; and so may the report of a new channel. -/
theorem tolerates_welcome_eight : ∃ topology start,
    Topology.ofMembers (Layout.members 8) 0 .auto = .ok topology ∧
      (create .cube topology).2 = .ok start ∧
        ((start.run .accepting unannouncedTurns).node.journal.transmits.length = 7 ∧
          ((start.run .accepting unannouncedTurns).handle .accepting
            (.outerAnnounce 1 "p0-a")).1.node.journal.transmits.length = 11 ∧
          (start.run .accepting unannouncedTurns).Tolerates .accepting (.outerAnnounce 1 "p0-a")) ∧
        ((start.run ninthRefused unannouncedTurns).phase = .forming ∧
          ((start.run ninthRefused unannouncedTurns).handle ninthRefused
            (.outerAnnounce 1 "p0-a")).1.phase = .failed ∧
          (start.run ninthRefused unannouncedTurns).Tolerates ninthRefused
            (.outerAnnounce 1 "p0-a")) ∧
        start.node.screening ⟨1, 1, "p0-a", true⟩ = .fresh ∧
        start.Tolerates .accepting (.channel ⟨1, 1, "p0-a", true⟩) := by
  obtain ⟨topology, start, hvalid, hcreate, ⟨hbefore, hafter⟩, ⟨hforming, hfailed⟩,
    hfresh, hadmitted⟩ :
      ∃ topology start, Topology.ofMembers (Layout.members 8) 0 .auto = .ok topology ∧
        (create .cube topology).2 = .ok start ∧
          ((start.run .accepting unannouncedTurns).node.journal.transmits.length = 7 ∧
            ((start.run .accepting unannouncedTurns).handle .accepting
              (.outerAnnounce 1 "p0-a")).1.node.journal.transmits.length = 11) ∧
          ((start.run ninthRefused unannouncedTurns).phase = .forming ∧
            ((start.run ninthRefused unannouncedTurns).handle ninthRefused
              (.outerAnnounce 1 "p0-a")).1.phase = .failed) ∧
          start.node.screening ⟨1, 1, "p0-a", true⟩ = .fresh ∧
          start.forwarding.rejection? start.node ⟨1, 1, "p0-a", true⟩ = none :=
    exists_created (by decide +kernel)
  exact ⟨topology, start, hvalid, hcreate,
    ⟨hbefore, hafter, tolerates_welcome _ _ .outerAnnounce⟩,
    ⟨hforming, hfailed, tolerates_welcome _ _ .outerAnnounce⟩, hfresh,
    tolerates_welcome _ _ (.fresh ⟨rfl, hfresh, hadmitted⟩)⟩

end Router

end MeshFormation
