import MeshFormation.Proofs.Forwarding.Announcements
import MeshFormation.Proofs.Router.Bindings
import MeshFormation.Proofs.Router.Cables

/-!
# Whom an outer node tells

A cube router announces itself at two places: to the peers that it reaches in one hop when it finds
its partner, and from then on to each peer to which a transmit of its own data is complete. Its list
of told peers keeps the two apart, so no peer is told twice. A peer is missed where its transmit is
complete before the partner is found and after a longer route to it was learned: the longer route
stays, and the peer does not count as reached in one hop.
-/

namespace MeshFormation

theorem Forwarding.Fresh.tells {forwarding : Forwarding} {topology : Topology}
    (h : forwarding.Fresh topology) (peer : Rank) : forwarding.tells peer = false := by
  cases h <;> rfl

namespace Router

variable {router next start : Router} {backend : Backend} {event : Event} {told done : List Rank}
  {result : Except RouterError Outbox} {topology : Topology} {peer receiver : Rank}

/-! ## What a run sends and confirms -/

/-- The messages that a run asks for, in order. -/
def sent (router : Router) (backend : Backend) : List Event → Outbox
  | [] => []
  | event :: rest =>
    outboxOf (router.handle backend event).2 ++ (router.handle backend event).1.sent backend rest

/-- The peer to which an event completes a transmit of the own data. -/
def confirms? (router : Router) (backend : Backend) : Event → Option Rank
  | .connection ⟨.tx, channel, source, true⟩ =>
    if router.node.isFailed = false ∧ source = router.rank ∧
        (router.handle backend (.connection ⟨.tx, channel, source, true⟩)).2.isOk then
      router.node.boundPeer? channel
    else none
  | _ => none

/-- The peers to which a run completes transmits of the own data, in order. -/
def confirmed (router : Router) (backend : Backend) : List Event → List Rank
  | [] => []
  | event :: rest =>
    (router.confirms? backend event).toList ++
      (router.handle backend event).1.confirmed backend rest

theorem sent_concat (router : Router) (backend : Backend) (events : List Event) (event : Event) :
    router.sent backend (events ++ [event]) =
      router.sent backend events ++
        outboxOf ((router.run backend events).handle backend event).2 := by
  induction events generalizing router with
  | nil => simp [sent, run]
  | cons first rest ih =>
    rw [List.cons_append, sent, ih, sent, List.append_assoc]
    rfl

theorem confirmed_concat (router : Router) (backend : Backend) (events : List Event)
    (event : Event) :
    router.confirmed backend (events ++ [event]) = router.confirmed backend events ++
      ((router.run backend events).confirms? backend event).toList := by
  induction events generalizing router with
  | nil => simp [confirmed, run]
  | cons first rest ih =>
    rw [List.cons_append, confirmed, ih, confirmed, List.append_assoc]
    rfl

theorem confirms?_eq_none_of_error {error : RouterError}
    (h : (router.handle backend event).2 = .error error) :
    router.confirms? backend event = none := by
  unfold confirms?
  split
  · rw [if_neg]
    simp [h, Except.isOk, Except.toBool]
  · rfl

theorem confirms?_of_isFailed (h : router.node.isFailed = true) :
    router.confirms? backend event = none := by
  unfold confirms?
  split
  · rw [if_neg]
    simp [h]
  · rfl

/-! ## One event -/

/-- What an event of a cube router has to do with announcements. It confirms a transmit of the own
data, or it brings the partner, or it leaves the router silent. -/
inductive Speaks (router : Router) (backend : Backend) (event : Event) (next : Router)
    (outbox : Outbox) : Prop where
  | silent (confirms : router.confirms? backend event = none)
      (partner : next.forwarding.crossPartner? = router.forwarding.crossPartner?)
      (notifies : router.forwarding.Notifies router.node [] next.forwarding outbox)
  | confirmed {receiver : Rank} (confirms : router.confirms? backend event = some receiver)
      (bound : ∃ channel, router.node.boundPeer? channel = some receiver)
      (partner : next.forwarding.crossPartner? = router.forwarding.crossPartner?)
      (notifies : router.forwarding.Notifies router.node (router.forwarding.owed receiver)
        next.forwarding outbox)
  | discovered {reached : List Rank} (confirms : router.confirms? backend event = none)
      (unset : router.forwarding.crossPartner? = none)
      (partner : next.forwarding.crossPartner?.isSome = true)
      (reaches : ∀ {peer}, peer ∈ reached ↔ router.node.ledger.reaches peer = true)
      (notifies : (∀ peer, router.forwarding.tells peer = false) →
        router.forwarding.Notifies router.node reached next.forwarding outbox)

theorem Admits.speaks {known : ChannelEvent} {node : Node} (h : router.Admits known)
    (hcube : router.forwarding.profile = .cube)
    (haccepted : (router.node.bind known.channel known.peer).establish backend router.node.rank
      known.channel = (node, true)) :
    router.Speaks backend (.channel known)
      ⟨(router.forwarding.channelBound node known).2.1,
        (router.forwarding.channelBound node known).1⟩
      (router.forwarding.channelBound node known).2.2 := by
  have hadvances := Node.advances_of_establish haccepted
  have htopology : node.topology = router.node.topology := hadvances.topology
  rcases (h.joins haccepted).partner with ⟨hsame, hpair | hinside⟩ | ⟨hunset, hpartner, hacross⟩
  · exact absurd (hcube.symm.trans hpair) (by simp)
  · exact .silent rfl hsame
      ((Forwarding.notifies_channelBound_inside hcube hinside).congr htopology)
  · refine .discovered rfl hunset (by rw [hpartner]; rfl) (fun {peer} => ?_) fun htells =>
      (Forwarding.notifies_channelBound hcube htells hunset hacross).congr htopology
    rw [Ledger.mem_directlyReached_iff, hadvances.ledger,
      show (router.node.bind known.channel known.peer).ledger.reaches peer =
        router.node.ledger.reaches peer from Ledger.reaches_congr (Ledger.route?_track _ _ _)]

theorem Absorbs.speaks {middle : Router} {outbox : Outbox} (h : router.Absorbs event middle outbox)
    (hcube : router.forwarding.profile = .cube) (hworking : router.node.isFailed = false)
    (hresult : (router.handle backend event).2 = .ok outbox) :
    router.Speaks backend event (middle.proceed backend) outbox := by
  have hpartner : (middle.proceed backend).forwarding.crossPartner? =
      router.forwarding.crossPartner? :=
    (keepsLinks_proceed middle backend).partner.trans h.keepsLinks.partner
  have hproceed := forwarding_proceed middle backend
  cases h with
  | receive | forward =>
    refine .silent rfl hpartner (.nobody rfl ?_)
    rw [hproceed, Forwarding.tells_marked]
  | announce cube =>
    refine .silent rfl hpartner (.nobody rfl ?_)
    rw [hproceed, Forwarding.tells_marked, cube]
    rfl
  | @transmit channel source bound ledger progress next outbox recorded counted informed =>
    have hbound := (Node.ledgerAfter_tx_eq_ok recorded).1
    unfold transmitCompleted at informed
    split at informed
    · rename_i hown
      obtain ⟨rfl, rfl⟩ := Prod.mk.inj informed
      have hconfirms : router.confirms? backend (.connection ⟨.tx, channel, source, true⟩) =
          some bound := by
        rw [confirms?, if_pos ⟨hworking, hown, by rw [hresult]; rfl⟩, hbound]
      refine .confirmed hconfirms ⟨channel, hbound⟩ hpartner ?_
      rw [hproceed]
      apply Forwarding.Notifies.marked
      exact (Forwarding.notifies_transmitDone hcube
        { router.node with ledger, progress } bound).congr rfl
    · rename_i hother
      obtain ⟨rfl, rfl⟩ := Prod.mk.inj informed
      refine .silent ?_ hpartner (.nobody rfl ?_)
      · rw [confirms?, if_neg fun hown => hother hown.2.1]
      · rw [hproceed, Forwarding.tells_marked]

theorem Step.speaks (h : router.Step backend event next result)
    (hcube : router.forwarding.profile = .cube) (hworking : router.node.isFailed = false)
    (hresult : (router.handle backend event).2 = result) :
    router.Speaks backend event next (outboxOf result) := by
  cases h with
  | unheard | unlinked | violated | surplus =>
    exact .silent (confirms?_eq_none_of_error hresult) rfl (.nobody rfl rfl)
  | repeated | free | live | rejected | unestablished | lost =>
    exact .silent rfl rfl (.nobody rfl rfl)
  | bound admits accepted => exact admits.speaks hcube accepted
  | broken breaks =>
    refine .silent ?_ rfl (.nobody rfl rfl)
    cases breaks with
    | @connection completed lost =>
      obtain ⟨direction, channel, source, connected⟩ := completed
      obtain rfl : connected = false := lost
      cases direction <;> rfl
    | network | failure => rfl
  | surplusLink hypercube | linked hypercube =>
    rw [hypercube] at hcube
    exact absurd hcube (by simp [Forwarding.profile])
  | absorbed absorbs => exact absorbs.speaks hcube hworking hresult

theorem exists_of_confirms? (h : router.confirms? backend event = some receiver) : ∃ channel outbox,
    event = .connection ⟨.tx, channel, router.rank, true⟩ ∧
      (router.handle backend event).2 = .ok outbox ∧
        router.node.boundPeer? channel = some receiver := by
  unfold confirms? at h
  split at h
  · rename_i channel source
    split at h
    · rename_i hconfirms
      obtain ⟨-, rfl, hok⟩ := hconfirms
      cases hresult : (router.handle backend (.connection ⟨.tx, channel, router.rank, true⟩)).2 with
      | error error =>
        rw [hresult] at hok
        exact absurd hok (by simp [Except.isOk, Except.toBool])
      | ok outbox => exact ⟨channel, outbox, rfl, rfl, h⟩
    · exact absurd h (by simp)
  · exact absurd h (by simp)

/-- Only a completed connection that breaks the contract is answered by an error. -/
theorem Step.exists_ok {completed : ConnectionEvent}
    (h : router.Step backend (.connection completed) next result)
    (hnext : next.node.isFailed = false) : ∃ outbox, result = .ok outbox := by
  cases h with
  | broken | absorbed => exact ⟨_, rfl⟩
  | violated | surplus => exact absurd ((Node.isFailed_fail _ _).symm.trans hnext) (by simp)

/-- A router that goes on to work reaches a new peer only by a transmit of its own data. -/
theorem Step.of_reaches (h : router.Step backend event next result)
    (hworking : router.node.isFailed = false)
    (hresult : (router.handle backend event).2 = result) (hnext : next.node.isFailed = false)
    (hreaches : next.node.ledger.reaches peer = true) :
    router.node.ledger.reaches peer = true ∨ router.confirms? backend event = some peer := by
  obtain ⟨node, hwrites, hadvances⟩ := h.writes
  rw [hadvances.ledger] at hreaches
  rcases hwrites.of_reaches hreaches with hold | ⟨channel, rfl, hbound⟩
  · exact .inl hold
  · obtain ⟨outbox, rfl⟩ := h.exists_ok hnext
    right
    rw [confirms?, if_pos ⟨hworking, rfl, by rw [hresult]; rfl⟩, hbound]

theorem Step.reaches_mono (h : router.Step backend event next result)
    (hreaches : router.node.ledger.reaches peer = true) : next.node.ledger.reaches peer = true := by
  obtain ⟨node, hwrites, hadvances⟩ := h.writes
  obtain ⟨route, hroute, hlink⟩ := Ledger.reaches_iff.1 hreaches
  rw [hadvances.ledger]
  exact Ledger.reaches_iff.2 ⟨route, hwrites.grows.route hroute, hlink⟩

/-- A confirmed peer is reached, unless a longer route to it was known. -/
theorem Step.reaches_of_confirms? (h : router.Step backend event next result)
    (hresult : (router.handle backend event).2 = result)
    (hconfirms : router.confirms? backend event = some receiver)
    (hroutes : ∀ {route}, router.node.ledger.route? receiver = some route → route.linkCount = 1) :
    next.node.ledger.reaches receiver = true := by
  obtain ⟨channel, outbox, rfl, hok, hbound⟩ := exists_of_confirms? hconfirms
  obtain rfl := hresult.symm.trans hok
  cases h with
  | broken breaks =>
    cases breaks with
    | connection lost => exact absurd lost (by simp)
  | @absorbed _ middle _ absorbs =>
    rw [(advances_proceed middle backend).ledger]
    cases absorbs with
    | @transmit _ _ bound ledger progress _ _ recorded counted informed =>
      obtain ⟨hfound, -, -, hledger⟩ := Node.ledgerAfter_tx_eq_ok recorded
      obtain rfl := Option.some.inj (hbound.symm.trans hfound)
      rw [(of_transmitCompleted informed).1]
      dsimp only
      rw [hledger, if_pos (show router.rank = router.node.rank from rfl), Ledger.reaches_iff]
      refine ⟨_, (Ledger.route?_recordRoute _ _ _ _).trans (if_pos rfl), ?_⟩
      rw [Ledger.route?_recordOutput]
      cases hroute : router.node.ledger.route? receiver with
      | none => rfl
      | some route => exact hroutes hroute

/-! ## All events -/

/-- The peer of a transmit that is complete before the router knows its partner and after it has
learned a longer route to the peer. -/
def overtaken? (router : Router) (backend : Backend) (event : Event) : Option Rank :=
  (router.confirms? backend event).filter fun receiver => router.forwarding.crossPartner?.isNone &&
    (router.node.ledger.route? receiver).any (·.linkCount != 1)

theorem linkCount_of_not_overtaken (h : router.overtaken? backend event = none)
    (hconfirms : router.confirms? backend event = some receiver)
    (hunset : router.forwarding.crossPartner? = none) {route : Route}
    (hroute : router.node.ledger.route? receiver = some route) : route.linkCount = 1 := by
  rw [overtaken?, hconfirms] at h
  simpa [hunset, hroute] using h

/-- Whom a router has told, next to the peers with a confirmed transmit. -/
structure Told (router : Router) (told done : List Rank) : Prop where
  nodup : told.Nodup
  tells : ∀ {peer}, router.forwarding.tells peer = true ↔ peer ∈ told
  outer : router.forwarding.crossPartner? = none → told = []
  confirmed : ∀ {peer}, peer ∈ told → peer ∈ done
  bound : router.node.isFailed = false → ∀ {peer}, peer ∈ done →
    ∃ channel, router.node.boundPeer? channel = some peer
  reached : router.node.isFailed = false →
    ∀ {peer}, router.node.ledger.reaches peer = true → peer ∈ done

/-- No peer with a confirmed transmit is missed: it is reached, and told once there is a partner. -/
structure Thorough (router : Router) (told done : List Rank) : Prop where
  before : router.forwarding.crossPartner? = none → ∀ {peer}, peer ∈ done →
    router.node.ledger.reaches peer = true
  after : router.forwarding.crossPartner?.isSome = true → ∀ {peer}, peer ∈ done → peer ∈ told

theorem Told.tells_eq_false (h : router.Told told done)
    (hunset : router.forwarding.crossPartner? = none) (peer : Rank) :
    router.forwarding.tells peer = false := by
  rw [Bool.eq_false_iff, Ne, h.tells, h.outer hunset]
  exact List.not_mem_nil

/-- Announcements to new peers, each of them confirmed. -/
theorem Told.notify {new more : List Rank} {outbox : Outbox} (h : router.Told told done)
    (hstep : router.Step backend event next result) (hworking : router.node.isFailed = false)
    (hresult : (router.handle backend event).2 = result)
    (hnotifies : router.forwarding.Notifies router.node new next.forwarding outbox)
    (hmore : (router.confirms? backend event).toList = more)
    (hbound : ∀ peer ∈ more, ∃ channel, router.node.boundPeer? channel = some peer)
    (houter : next.forwarding.crossPartner? = none → new = [])
    (hconfirmed : ∀ peer ∈ new, peer ∈ done ++ more) :
    next.Told (told ++ new) (done ++ more) := by
  constructor
  case nodup =>
    refine h.nodup.append hnotifies.nodup fun peer hold hnew => ?_
    exact absurd ((h.tells.2 hold).symm.trans (hnotifies.new peer hnew)) (by simp)
  case tells =>
    intro peer
    rw [hnotifies.tells, Bool.or_eq_true, h.tells, List.contains_iff_mem, List.mem_append]
  case outer =>
    intro hunset
    have hbefore : router.forwarding.crossPartner? = none := by
      rw [Option.eq_none_iff_forall_ne_some]
      intro partner hpartner
      exact absurd ((hstep.partner_mono hpartner).symm.trans hunset) (by simp)
    rw [h.outer hbefore, houter hunset]
    rfl
  case confirmed =>
    intro peer hmem
    rcases List.mem_append.1 hmem with hold | hnew
    · exact List.mem_append_left _ (h.confirmed hold)
    · exact hconfirmed peer hnew
  case bound =>
    intro hnext peer hmem
    have hbefore : ∃ channel, router.node.boundPeer? channel = some peer := by
      rcases List.mem_append.1 hmem with hold | hnew
      · exact h.bound hworking hold
      · exact hbound peer hnew
    exact hbefore.imp fun channel => hstep.boundPeer?_mono hnext
  case reached =>
    intro hnext peer hreaches
    rw [List.mem_append, ← hmore, Option.mem_toList]
    rcases hstep.of_reaches hworking hresult hnext hreaches with hold | hnew
    · exact .inl (h.reached hworking hold)
    · exact .inr hnew

/-- An event that brings no partner and completes no transmit leaves a router thorough. -/
theorem Thorough.rest (h : router.Thorough told done)
    (hstep : router.Step backend event next result)
    (hpartner : next.forwarding.crossPartner? = router.forwarding.crossPartner?) :
    next.Thorough told done where
  before hunset _ hmem := hstep.reaches_mono (h.before (hpartner.symm.trans hunset) hmem)
  after hsome _ hmem := h.after (hpartner ▸ hsome) hmem

/-- The peer of a transmit that is not overtaken is reached, and told at once if there is a
partner. -/
theorem Thorough.confirm (h : router.Thorough told done) (htold : router.Told told done)
    (hstep : router.Step backend event next result)
    (hresult : (router.handle backend event).2 = result)
    (hconfirms : router.confirms? backend event = some receiver)
    (hovertaken : router.overtaken? backend event = none)
    (hpartner : next.forwarding.crossPartner? = router.forwarding.crossPartner?) :
    next.Thorough (told ++ router.forwarding.owed receiver) (done ++ [receiver]) := by
  constructor
  case before =>
    intro hunset peer hpeer
    rw [hpartner] at hunset
    rcases List.mem_append.1 hpeer with hold | hnew
    · exact hstep.reaches_mono (h.before hunset hold)
    · obtain rfl := List.mem_singleton.1 hnew
      exact hstep.reaches_of_confirms? hresult hconfirms
        (linkCount_of_not_overtaken hovertaken hconfirms hunset)
  case after =>
    intro hsome peer hpeer
    rw [hpartner] at hsome
    rw [List.mem_append]
    rcases List.mem_append.1 hpeer with hold | hnew
    · exact .inl (h.after hsome hold)
    · obtain rfl := List.mem_singleton.1 hnew
      cases htells : router.forwarding.tells peer with
      | true => exact .inl (htold.tells.1 htells)
      | false =>
        right
        simp [Forwarding.owed, hsome, htells]

/-- The only peer that may be owed an announcement is the one whose transmit is complete. -/
theorem eq_of_mem_owed (h : peer ∈ router.forwarding.owed receiver) : peer = receiver := by
  rw [Forwarding.owed] at h
  split at h
  · exact List.mem_singleton.1 h
  · exact absurd h List.not_mem_nil

/-- One event adds to the told peers those it announces the router to, and to the confirmed peers
the one whose transmit it completes. Unless that transmit is overtaken, no confirmed peer is
missed. -/
theorem Step.exists_told (h : router.Step backend event next result)
    (hcube : router.forwarding.profile = .cube) (hworking : router.node.isFailed = false)
    (hresult : (router.handle backend event).2 = result) (htold : router.Told told done) :
    ∃ new : List Rank, (outboxOf result).announcements = new.map router.node.announcement ∧
      next.Told (told ++ new) (done ++ (router.confirms? backend event).toList) ∧
        (router.overtaken? backend event = none → router.Thorough told done →
          next.Thorough (told ++ new) (done ++ (router.confirms? backend event).toList)) := by
  cases h.speaks hcube hworking hresult with
  | silent confirms partner notifies =>
    refine ⟨[], notifies.outbox, ?_, fun _ hthorough => ?_⟩
    · exact htold.notify h hworking hresult notifies rfl (by simp [confirms])
        (fun _ => rfl) (by simp)
    · rw [confirms, Option.toList_none, List.append_nil, List.append_nil]
      exact hthorough.rest h partner
  | @confirmed receiver confirms bound partner notifies =>
    refine ⟨router.forwarding.owed receiver, notifies.outbox, ?_, fun hovertaken hthorough => ?_⟩
    · apply htold.notify h hworking hresult notifies rfl
      · simpa [confirms] using bound
      · intro hunset
        rw [Forwarding.owed, ← partner, hunset]
        rfl
      · intro peer hpeer
        simp [confirms, eq_of_mem_owed hpeer]
    · rw [confirms]
      exact hthorough.confirm htold h hresult confirms hovertaken partner
  | @discovered reached confirms unset partner reaches notifies =>
    have hnotifies := notifies (htold.tells_eq_false unset)
    refine ⟨reached, hnotifies.outbox, ?_, fun _ hthorough => ?_⟩
    · apply htold.notify h hworking hresult hnotifies rfl (by simp [confirms])
      · exact fun hunset => absurd (hunset ▸ partner) (by simp)
      · exact fun peer hpeer => List.mem_append_left _ (htold.reached hworking (reaches.1 hpeer))
    · rw [confirms]
      constructor
      case before => exact fun hunset => absurd (hunset ▸ partner) (by simp)
      case after =>
        intro _ peer hpeer
        exact List.mem_append_right _ (reaches.2 (hthorough.before unset (by simpa using hpeer)))

/-- By no event of a run a transmit is overtaken. -/
def NeverOvertaken (start : Router) (backend : Backend) (events : List Event) : Prop :=
  ∀ (n : Nat) (h : n < events.length), (start.run backend (events.take n)).overtaken? backend
    events[n] = none

instance (start : Router) (backend : Backend) (events : List Event) :
    Decidable (start.NeverOvertaken backend events) :=
  Nat.decidableBallLT events.length fun n h =>
    (start.run backend (events.take n)).overtaken? backend events[n] = none

theorem neverOvertaken_concat {events : List Event}
    (h : start.NeverOvertaken backend (events ++ [event])) :
    start.NeverOvertaken backend events ∧
      (start.run backend events).overtaken? backend event = none := by
  constructor
  · intro n hn
    have hat := h n (by rw [List.length_append]; omega)
    rwa [List.take_append_of_le_length (Nat.le_of_lt hn), List.getElem_append_left hn] at hat
  · have hat := h events.length (by simp)
    simpa using hat

theorem told_run (h : (create .cube topology).2 = .ok start) (backend : Backend)
    (events : List Event) : ∃ told : List Rank,
      (start.sent backend events).announcements = told.map start.node.announcement ∧
        (start.run backend events).Told told (start.confirmed backend events) ∧
          (start.NeverOvertaken backend events →
            (start.run backend events).Thorough told (start.confirmed backend events)) := by
  induction events using List.reverseRecOn with
  | nil =>
    obtain ⟨hpartner, hosts, hnode⟩ := create_eq_ok h
    have htells := (fresh_create h).tells
    have hreaches : ∀ peer, start.node.ledger.reaches peer = false := by
      intro peer
      rw [hnode]
      rfl
    refine ⟨[], rfl, ?_, fun _ => ?_⟩
    · exact ⟨.nil, by simp [run, htells], fun _ => rfl, by simp, by simp [confirmed],
        by simp [run, hreaches]⟩
    · exact ⟨by simp [confirmed], by simp [confirmed]⟩
  | append_singleton events event ih =>
    obtain ⟨told, hsent, htold, hthorough⟩ := ih
    rw [sent_concat, confirmed_concat, run_concat, Outbox.announcements_append, hsent]
    cases hfailed : (start.run backend events).node.isFailed with
    | true =>
      rw [handle_of_isFailed hfailed, confirms?_of_isFailed hfailed]
      simp only [Option.toList_none, List.append_nil]
      exact ⟨told, List.append_nil _, htold, fun hnever =>
        hthorough (neverOvertaken_concat hnever).1⟩
    | false =>
      have hstep := step_handle backend event hfailed
      obtain ⟨new, hnew, hnext, hcomplete⟩ :=
        hstep.exists_told (profile_run h backend events) hfailed rfl htold
      have hnode : (start.run backend events).node.announcement = start.node.announcement :=
        Node.announcement_congr
          ((topology_run h backend events).trans (topology_run h backend []).symm)
      refine ⟨told ++ new, ?_, hnext, fun hnever => ?_⟩
      · rw [hnew, hnode, List.map_append]
      · obtain ⟨hbefore, hnow⟩ := neverOvertaken_concat hnever
        exact hcomplete hnow (hthorough hbefore)

/-- The announcements that a run sends. Each goes to another peer, with the rank and the chassis of
the node, once the node has a partner and only after a transmit of its own data to the peer was
complete. As long as the router works and no transmit was overtaken, all bound peers with such a
transmit have got theirs. -/
structure Announces (start : Router) (backend : Backend) (events : List Event) (told : List Rank) :
    Prop where
  sent : (start.sent backend events).announcements =
    told.map fun peer => ⟨peer, .outerAnnounce start.rank start.node.topology.localChassis⟩
  once : told.Nodup
  outer : told ≠ [] → (start.run backend events).forwarding.crossPartner? ≠ none
  confirmed : ∀ {peer}, peer ∈ told → peer ∈ start.confirmed backend events
  complete : start.NeverOvertaken backend events → (start.run backend events).phase ≠ .failed →
    (start.run backend events).forwarding.crossPartner? ≠ none → ∀ {peer}, peer ∈ told ↔
      (∃ channel, (start.run backend events).node.boundPeer? channel = some peer) ∧
        peer ∈ start.confirmed backend events

theorem exists_announces_run (h : (create .cube topology).2 = .ok start) (backend : Backend)
    (events : List Event) : ∃ told, start.Announces backend events told := by
  obtain ⟨told, hsent, htold, hthorough⟩ := told_run h backend events
  refine ⟨told, ?_⟩
  constructor
  case sent => exact hsent
  case once => exact htold.nodup
  case outer => exact mt htold.outer
  case confirmed => exact htold.confirmed
  case complete =>
    intro hnever hphase hpartner peer
    constructor
    · intro hmem
      exact ⟨htold.bound (working_of_phase hphase) (htold.confirmed hmem), htold.confirmed hmem⟩
    · rintro ⟨-, hdone⟩
      exact (hthorough hnever).after (Option.isSome_iff_ne_none.2 hpartner) hdone

/-- A transmit to peer 1 is complete when the partner is found, one to peer 2 later. In between a
relay of peer 1 to peer 2 is reported. -/
def announcingInTurn : List Event :=
  [.channel ⟨1, 1, "p0-a", true⟩, .channel ⟨2, 2, "p0-a", true⟩, .connection ⟨.tx, 1, 0, true⟩,
    .channel ⟨9, 4, "p0-b", true⟩, .forward 1 2, .connection ⟨.tx, 2, 0, true⟩]

theorem exists_announces_run_eight : ∃ topology start,
    Topology.ofMembers (Layout.members 8) 0 .auto = .ok topology ∧
      (create .cube topology).2 = .ok start ∧
        start.NeverOvertaken .accepting announcingInTurn ∧
        (start.run .accepting announcingInTurn).phase ≠ .failed ∧
        (start.run .accepting announcingInTurn).forwarding.crossPartner? = some 4 ∧
        start.confirmed .accepting announcingInTurn = [1, 2] ∧
        start.Announces .accepting announcingInTurn [1, 2] := by
  obtain ⟨topology, start, hvalid, hcreate, hnever, hphase, hpartner, hconfirmed, hreceivers⟩ :
      ∃ topology start, Topology.ofMembers (Layout.members 8) 0 .auto = .ok topology ∧
        (create .cube topology).2 = .ok start ∧
          start.NeverOvertaken .accepting announcingInTurn ∧
          (start.run .accepting announcingInTurn).phase ≠ .failed ∧
          (start.run .accepting announcingInTurn).forwarding.crossPartner? = some 4 ∧
          start.confirmed .accepting announcingInTurn = [1, 2] ∧
          (start.sent .accepting announcingInTurn).announcements.map (·.receiver) = [1, 2] :=
    exists_created (by decide +kernel)
  obtain ⟨told, hannounces⟩ := exists_announces_run hcreate .accepting announcingInTurn
  have htold : told = [1, 2] := by
    rw [hannounces.sent, List.map_map] at hreceivers
    exact (List.map_id told).symm.trans hreceivers
  exact ⟨topology, start, hvalid, hcreate, hnever, hphase, hpartner, hconfirmed, htold ▸ hannounces⟩

/-- The same events, with the partner found last. -/
def announcingLate : List Event :=
  [.channel ⟨1, 1, "p0-a", true⟩, .channel ⟨2, 2, "p0-a", true⟩, .connection ⟨.tx, 1, 0, true⟩,
    .forward 1 2, .connection ⟨.tx, 2, 0, true⟩, .channel ⟨9, 4, "p0-b", true⟩]

/-- The transmit to peer 2 is overtaken, and the outer node never announces itself there. -/
theorem not_announces_run_eight : ∃ topology start,
    Topology.ofMembers (Layout.members 8) 0 .auto = .ok topology ∧
      (create .cube topology).2 = .ok start ∧
        (start.run .accepting announcingLate).phase ≠ .failed ∧
        (start.run .accepting announcingLate).forwarding.crossPartner? = some 4 ∧
        (start.run .accepting announcingLate).node.boundPeer? 2 = some 2 ∧
        start.confirmed .accepting announcingLate = [1, 2] ∧
        (start.sent .accepting announcingLate).announcements = [⟨1, .outerAnnounce 0 "p0-a"⟩] ∧
        ¬∀ peer, peer ∈ (start.sent .accepting announcingLate).announcements.map (·.receiver) ↔
          (∃ channel, (start.run .accepting announcingLate).node.boundPeer? channel = some peer) ∧
            peer ∈ start.confirmed .accepting announcingLate := by
  obtain ⟨topology, start, hvalid, hcreate, hphase, hpartner, hbound, hconfirmed, hsent⟩ :
      ∃ topology start, Topology.ofMembers (Layout.members 8) 0 .auto = .ok topology ∧
        (create .cube topology).2 = .ok start ∧
          (start.run .accepting announcingLate).phase ≠ .failed ∧
          (start.run .accepting announcingLate).forwarding.crossPartner? = some 4 ∧
          (start.run .accepting announcingLate).node.boundPeer? 2 = some 2 ∧
          start.confirmed .accepting announcingLate = [1, 2] ∧
          (start.sent .accepting announcingLate).announcements = [⟨1, .outerAnnounce 0 "p0-a"⟩] :=
    exists_created (by decide +kernel)
  refine ⟨topology, start, hvalid, hcreate, hphase, hpartner, hbound, hconfirmed,
    hsent, fun h => ?_⟩
  have hmissed := (h 2).2 ⟨⟨2, hbound⟩, by rw [hconfirmed]; decide⟩
  rw [hsent] at hmissed
  exact absurd hmissed (by decide)

end Router

end MeshFormation
