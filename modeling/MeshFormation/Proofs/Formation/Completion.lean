import MeshFormation.Proofs.Formation.Discovery

/-!
# A connection is complete

The data of a source arrives at a node that still waits for it, or a transmit that the node asked
for has started. Either lowers a count that is not zero. A transmit of the node's own data makes the
receiver reached, and a relay is told to the source.
-/

namespace MeshFormation

theorem Progress.complete_eq_ok {progress : Progress} {counter : Counter}
    (h : 0 < progress.expected.count counter) : progress.complete counter =
      .ok { progress with expected :=
        match counter with
        | .rx => { progress.expected with rx := progress.expected.rx - 1 }
        | .tx => { progress.expected with tx := progress.expected.tx - 1 }
        | .network => { progress.expected with network := progress.expected.network - 1 } } := by
  unfold Progress.complete Expected.complete
  rw [if_neg (by omega)]
  cases counter <;> rfl

namespace Blueprint

variable {b : Blueprint} {near far source peer : Rank} {router : Router} {node : Node}
  {rule : RelayRule} {channel : Channel} {wiring : Wiring}

/-! ## Data arrives -/

/-- The node to which the data of a source arrives on a channel. -/
def receiving (node : Node) (source : Rank) (channel : Channel) : Node :=
  { node with
    ledger := node.ledger.put source { node.ledger.entry source with input := some channel }
    progress := { node.progress with expected :=
      { node.progress.expected with rx := node.progress.expected.rx - 1 } } }

theorem input?_receiving (other : Rank) : (receiving node source channel).ledger.input? other =
    if other = source then some channel else node.ledger.input? other := by
  rw [Ledger.input?, receiving, Ledger.entry_put]
  split <;> rfl

theorem reaches_receiving (other : Rank) :
    (receiving node source channel).ledger.reaches other = node.ledger.reaches other := by
  rw [Ledger.reaches, receiving, Ledger.entry_put]
  split
  · rename_i heq
    subst heq
    rfl
  · rfl

theorem isSome_input?_receiving (other : Rank) :
    ((receiving node source channel).ledger.input? other).isSome =
      ((node.ledger.input? other).isSome || other == source) := by
  rw [input?_receiving]
  by_cases hother : other = source
  · simp [hother]
  · simp [hother]

/-- A new input is one more of the data that a node waits for. -/
theorem Steady.rx_receiving (h : b.Steady near router) (channel : Channel) (hvalid : b.Valid)
    (hfeeds : b.Feeds source peer near) (hmissing : router.node.ledger.input? source = none) :
    0 < router.node.progress.expected.rx ∧
      (receiving router.node source channel).progress.expected.rx +
        (b.topology.peers near).countP (fun other =>
          ((receiving router.node source channel).ledger.input? other).isSome) =
            (b.topology.peers near).length := by
  obtain ⟨hne, hmember, -, hshare⟩ := hvalid.of_feeds hfeeds
  rw [Topology.sharePartition_comm] at hshare
  have hpeer := Topology.mem_peers_iff.2 ⟨hne, hmember, hshare⟩
  have hadd := countP_add (fun other => (router.node.ledger.input? other).isSome)
    (fun other => ((receiving router.node source channel).ledger.input? other).isSome)
    (b.topology.nodup_peers near) hpeer (by simp [hmissing]) isSome_input?_receiving
  have hreceive := h.receive
  have hrx : (receiving router.node source channel).progress.expected.rx =
      router.node.progress.expected.rx - 1 := rfl
  have hle : (b.topology.peers near).countP (fun other =>
      ((receiving router.node source channel).ledger.input? other).isSome) ≤
        (b.topology.peers near).length := List.countP_le_length
  omega

theorem Steady.not_locked_of_missing (h : b.Steady near router)
    (hmissing : router.node.progress.expected.meshDone = false) :
    router.node.progress.locked = false := by
  rw [Bool.eq_false_iff]
  intro hlocked
  rw [h.locked hlocked] at hmissing
  exact absurd hmissing (by simp)

/-- What a node knows stays true when data arrives along its share of the blueprint. -/
theorem Consistent.receiving {forwarding : Forwarding} (h : b.Consistent near node forwarding)
    (hbound : node.boundPeer? channel = some peer) (hfeeds : b.Feeds source peer near) :
    b.Consistent near (Blueprint.receiving node source channel) forwarding :=
  { h with
    input := by
      intro other known hinput
      rw [input?_receiving] at hinput
      split at hinput
      · rename_i heq
        subst heq
        obtain rfl := Option.some.inj hinput
        exact ⟨peer, hbound, hfeeds⟩
      · exact h.input hinput
    reached := by
      intro far hreached
      rw [reaches_receiving] at hreached
      exact h.reached hreached }

theorem Steady.receiving (h : b.Steady near router) (hvalid : b.Valid)
    (hbound : router.node.boundPeer? channel = some peer) (hfeeds : b.Feeds source peer near)
    (hmissing : router.node.ledger.input? source = none) :
    b.Steady near ⟨receiving router.node source channel, router.forwarding⟩ := by
  obtain ⟨hpos, hreceive⟩ := h.rx_receiving channel hvalid hfeeds hmissing
  have hunlocked := h.not_locked_of_missing (by
    simp only [Expected.meshDone, Bool.and_eq_false_iff, beq_eq_false_iff_ne]
    omega)
  constructor
  case toConsistent => exact h.toConsistent.receiving hbound hfeeds
  case lost => exact h.lost
  case working => exact h.working
  case nodup => exact h.nodup
  case asked => exact h.asked
  case ran =>
    intro rule hran
    refine (h.ran hran).mono (fun other hsome => ?_) (fun other hreached => ?_) (fun _ => id)
      fun _ => id
    · rw [isSome_input?_receiving, hsome]
      rfl
    · rw [reaches_receiving]
      exact hreached
  case tells =>
    intro other
    rw [reaches_receiving]
    exact h.tells other
  case receive => exact hreceive
  case transmit => exact h.transmit
  case wanted => exact h.wanted
  case network => exact h.network
  case locked => exact fun hlocked => absurd (hunlocked.symm.trans hlocked) Bool.false_ne_true
  case ready => exact fun hready => absurd hready (h.phase_ne_ready hunlocked)
  case locks => exact h.locks
  case signals => exact h.signals

/-- The node locks nothing and signals nothing before its rules ran, so it can proceed. -/
theorem Steady.applies (hvalid : b.Valid) {event : Event} {outbox : Outbox} {middle : Router}
    (hsteady : b.Steady near middle) (hmoves : b.Moves near router event outbox middle)
    (hwired : ∀ {channel far}, middle.node.boundPeer? channel = some far →
      wiring.contains channel = true)
    (hhandle : router.handle wiring.backend event = (middle.proceed wiring.backend, .ok outbox)) :
    b.Applies near wiring router event := by
  obtain ⟨hrested, hresumes⟩ := hsteady.proceed hvalid hwired
  exact ⟨_, outbox, hhandle, hrested, hmoves.resume hresumes⟩

theorem Steady.hasMember_eq (h : b.Steady near router) (peer : Rank) :
    router.node.topology.hasMember peer = b.topology.hasMember peer := by
  rw [h.topology]
  rfl

/-- A node records the data of another member that it still waits for. -/
theorem completeConnection_receiving (hbound : node.boundPeer? channel = some peer)
    (hmember : node.topology.hasMember source = true) (hne : source ≠ node.rank)
    (hmissing : node.ledger.input? source = none) (hexpected : 0 < node.progress.expected.rx) :
    node.completeConnection .rx channel source =
      (receiving node source channel, .ok peer) := by
  have hrecord : node.ledger.recordInput source channel =
      .ok (receiving node source channel).ledger := Ledger.recordInput_eq_ok_iff.2 ⟨hmissing, rfl⟩
  have hledger : node.ledgerAfter .rx channel source =
      .ok (peer, (receiving node source channel).ledger) := by
    rw [Node.ledgerAfter, hbound]
    dsimp only
    rw [hmember, if_neg (by simp), if_neg hne, hrecord]
  have hcount : 0 < node.progress.expected.count Direction.rx.counter := hexpected
  rw [Node.completeConnection, hledger]
  dsimp only
  rw [Progress.complete_eq_ok hcount]
  rfl

/-- A router that records such data then proceeds and sends nothing. -/
theorem handle_receiving (hworking : router.node.isFailed = false)
    (hbound : router.node.boundPeer? channel = some peer)
    (hmember : router.node.topology.hasMember source = true) (hne : source ≠ router.node.rank)
    (hmissing : router.node.ledger.input? source = none)
    (hexpected : 0 < router.node.progress.expected.rx) :
    router.handle wiring.backend (.connection ⟨.rx, channel, source, true⟩) =
      (Router.proceed ⟨receiving router.node source channel, router.forwarding⟩ wiring.backend,
        .ok []) := by
  rw [Router.handle, if_neg (by simp [hworking])]
  simp only [Router.connectionChanged, Bool.not_true, Bool.false_eq_true, if_false]
  rw [completeConnection_receiving hbound hmember hne hmissing hexpected]

theorem Rested.applies_receive (h : b.Rested near router) (hvalid : b.Valid)
    (hwired : ∀ {channel far}, router.node.boundPeer? channel = some far →
      wiring.contains channel = true)
    (hbound : router.node.boundPeer? channel = some peer) (hfeeds : b.Feeds source peer near)
    (hmissing : router.node.ledger.input? source = none) :
    b.Applies near wiring router (.connection ⟨.rx, channel, source, true⟩) := by
  have hmoves : b.Moves near router (.connection ⟨.rx, channel, source, true⟩) []
      ⟨receiving router.node source channel, router.forwarding⟩ := by
    constructor
    case binding =>
      intro other far
      simp only [Event.binding?, reduceCtorEq, or_false]
      rfl
    case input =>
      intro other known
      simp only [Event.arrival?, if_true, Option.some.injEq, Prod.mk.injEq]
      rw [input?_receiving]
      split
      · rename_i heq
        subst heq
        simp [hmissing]
      · rename_i hne
        simp [Ne.symm hne]
    case hears => simp [Event.announcer?]
    case links => simp [Event.link?]
    case transmit =>
      simp only [Event.departure?, reduceCtorEq, if_false, Option.isSome_none, Bool.false_eq_true]
      rfl
    case forwards => simp [Event.departure?]
    case announces => simp
    case told => exact fun htells => .inl htells
    case share => simp
  obtain ⟨hexpected, -⟩ := h.toSteady.rx_receiving channel hvalid hfeeds hmissing
  obtain ⟨hne, hmember, -, -⟩ := hvalid.of_feeds hfeeds
  exact (h.toSteady.receiving hvalid hbound hfeeds hmissing).applies hvalid hmoves hwired
    (handle_receiving h.working hbound ((h.hasMember_eq source).trans hmember) (h.rank_eq ▸ hne)
      hmissing hexpected)

/-! ## A transmit starts -/

/-- The node whose transmit to a peer has started. Its own data makes the peer reached. -/
def transmitting (node : Node) (source far : Rank) (channel : Channel) : Node :=
  { node with
    ledger := if source = node.rank then
        (node.ledger.recordOutput far channel).recordRoute far (.direct source far)
      else node.ledger.recordOutput far channel
    progress := { node.progress with expected :=
      { node.progress.expected with tx := node.progress.expected.tx - 1 } } }

theorem input?_transmitting (other : Rank) :
    (transmitting node source far channel).ledger.input? other = node.ledger.input? other := by
  rw [transmitting]
  split
  · rw [Ledger.input?_recordRoute, Ledger.input?_recordOutput]
  · rw [Ledger.input?_recordOutput]

/-- If no longer route to the peer was known before, the direct one is known afterwards. -/
theorem reaches_transmitting (hdirect : ∀ {route}, source = node.rank →
      node.ledger.route? far = some route → route.linkCount = 1) (other : Rank) :
    (transmitting node source far channel).ledger.reaches other =
      (node.ledger.reaches other || (source == node.rank && other == far)) := by
  rw [Ledger.reaches_eq, Ledger.reaches_eq, transmitting]
  by_cases hsource : source = node.rank
  · have hroute : ((node.ledger.recordOutput far channel).recordRoute far
        (.direct source far)).route? other = if other = far then
          some ((node.ledger.route? far).getD (.direct source far)) else
            node.ledger.route? other := by
      rw [Ledger.route?_recordRoute, Ledger.route?_recordOutput, Ledger.route?_recordOutput]
    simp only [hsource, if_true]
    rw [← hsource, hroute]
    by_cases hother : other = far
    · subst hother
      cases hknown : node.ledger.route? other with
      | none => simp [Route.linkCount]
      | some route => simp [hdirect hsource hknown]
    · simp [hother]
  · simp [hsource]

/-- The rules of the second state differ at most in whom the node told that it is an outer node. -/
structure Alike (forwarding next : Forwarding) : Prop where
  profile : next.profile = forwarding.profile
  partner : next.crossPartner? = forwarding.crossPartner?
  hears : next.hears = forwarding.hears
  requestedLinks : next.requestedLinks = forwarding.requestedLinks
  links : next.links = forwarding.links
  ran : next.ran = forwarding.ran

theorem Alike.refl (forwarding : Forwarding) : Alike forwarding forwarding :=
  ⟨rfl, rfl, rfl, rfl, rfl, rfl⟩

theorem Alike.speaks {forwarding next : Forwarding} (h : Alike forwarding next) :
    next.speaks = forwarding.speaks := by
  rw [Forwarding.speaks, h.profile, h.partner, Forwarding.speaks]

theorem Alike.limit {forwarding next : Forwarding} (h : Alike forwarding next) :
    next.limit = forwarding.limit := by
  rw [Forwarding.limit, h.profile, h.partner, Forwarding.limit]

theorem Alike.charged_iff {forwarding next : Forwarding} (h : Alike forwarding next) :
    b.Charged near next source far ↔ b.Charged near forwarding source far := by
  rw [Charged, h.ran, Charged]

/-- An outer node tells a peer so when its own data starts to flow there, unless it has done so. -/
structure Informs (forwarding next : Forwarding) (node : Node) (peer : Rank) (outbox : Outbox) :
    Prop extends Alike forwarding next where
  tells : ∀ other, next.tells other =
    (forwarding.tells other || (forwarding.speaks && other == peer))
  sends : ∀ outbound, outbound ∈ outbox ↔ forwarding.speaks = true ∧ forwarding.tells peer = false ∧
    outbound = ⟨peer, .outerAnnounce node.rank node.topology.localChassis⟩
  length : outbox.length ≤ 1

theorem informs_transmitDone (forwarding : Forwarding) (node : Node) (peer : Rank) :
    Informs forwarding (forwarding.transmitDone node peer).1 node peer
      (forwarding.transmitDone node peer).2 := by
  cases forwarding with
  | pair =>
    exact ⟨.refl _, fun _ => rfl, by simp [Forwarding.transmitDone, Forwarding.speaks,
      Forwarding.profile], by simp [Forwarding.transmitDone]⟩
  | hypercube rules =>
    exact ⟨.refl _, fun _ => rfl, by simp [Forwarding.transmitDone, Forwarding.speaks,
      Forwarding.profile], by simp [Forwarding.transmitDone]⟩
  | cube rules =>
    have hspeaks : (Forwarding.cube rules).speaks = rules.role.isOuter := by
      rw [Forwarding.speaks]
      simp only [Forwarding.profile, Forwarding.crossPartner?, beq_self_eq_true, Bool.true_and]
      cases rules.role <;> rfl
    have htells : (Forwarding.cube rules).tells peer = rules.informed.contains peer := rfl
    simp only [Forwarding.transmitDone, CubeForwarding.transmitDone]
    cases houter : rules.role.isOuter with
    | false =>
      simp only [Bool.false_eq_true, if_false]
      exact ⟨.refl _, by simp [hspeaks, houter], by simp [hspeaks, houter], by simp⟩
    | true =>
      simp only [if_true, CubeForwarding.announce]
      cases htold : rules.informed.contains peer with
      | true =>
        simp only [if_true]
        refine ⟨.refl _, fun other => ?_, by simp [htells, htold], by simp⟩
        by_cases hother : other = peer
        · subst hother
          simp [htells, htold]
        · simp [hother]
      | false =>
        simp only [Bool.false_eq_true, if_false]
        refine ⟨⟨rfl, rfl, rfl, rfl, rfl, ?_⟩, fun other => ?_, ?_, by simp⟩
        · funext rule
          cases rule <;> rfl
        · rw [hspeaks, houter, Bool.true_and, Bool.or_comm]
          exact KeySet.contains_add rules.informed peer other
        · simp [hspeaks, houter, htells, htold]

/-- What a node knows stays true when it reaches the peer of a channel. -/
theorem Consistent.transmitting {forwarding next : Forwarding}
    (h : b.Consistent near node forwarding) (hbound : node.boundPeer? channel = some far)
    (halike : Alike forwarding next)
    (hreaches : ∀ other, (Blueprint.transmitting node source far channel).ledger.reaches other =
      (node.ledger.reaches other || (source == near && other == far))) :
    b.Consistent near (Blueprint.transmitting node source far channel) next :=
  { h with
    profile := halike.profile.trans h.profile
    input := by
      intro other known hinput
      rw [input?_transmitting] at hinput
      exact h.input hinput
    reached := by
      intro other hreached
      rw [hreaches, Bool.or_eq_true, Bool.and_eq_true, beq_iff_eq, beq_iff_eq] at hreached
      rcases hreached with hreached | ⟨-, rfl⟩
      · exact h.reached hreached
      · exact ⟨channel, hbound⟩
    partner := by
      intro partner
      rw [halike.partner]
      exact h.partner
    heard := by
      intro other hheard
      rw [halike.hears] at hheard
      exact h.heard hheard }

theorem Steady.transmitting (h : b.Steady near router)
    (hbound : router.node.boundPeer? channel = some far)
    (hdue : 0 < router.node.progress.expected.tx)
    (hdirect : ∀ {route}, source = near → router.node.ledger.route? far = some route →
      route.linkCount = 1) {forwarding : Forwarding} (halike : Alike router.forwarding forwarding)
    (htells : ∀ other, forwarding.tells other = (router.forwarding.tells other ||
      (router.forwarding.speaks && (source == near && other == far)))) :
    b.Steady near ⟨transmitting router.node source far channel, forwarding⟩ := by
  have hunlocked := h.not_locked_of_missing (by
    simp only [Expected.meshDone, Bool.and_eq_false_iff, beq_eq_false_iff_ne]
    omega)
  have hreaches : ∀ other,
      (Blueprint.transmitting router.node source far channel).ledger.reaches other =
        (router.node.ledger.reaches other || (source == near && other == far)) := by
    intro other
    rw [reaches_transmitting, h.rank_eq]
    rw [h.rank_eq]
    exact hdirect
  constructor
  case toConsistent => exact h.toConsistent.transmitting hbound halike hreaches
  case lost => exact h.lost
  case working => exact h.working
  case nodup => exact h.nodup
  case asked =>
    intro other known
    constructor
    · intro hmem
      obtain ⟨peer, hpeer, hcharged⟩ := h.asked.1 hmem
      exact ⟨peer, hpeer, halike.charged_iff.2 hcharged⟩
    · rintro ⟨peer, hpeer, hcharged⟩
      exact h.asked.2 ⟨peer, hpeer, halike.charged_iff.1 hcharged⟩
  case ran =>
    intro rule hran
    rw [halike.ran] at hran
    refine (h.ran hran).mono (fun other hsome => ?_) (fun other hreached => ?_)
      (fun partner hpartner => ?_) fun other hheard => ?_
    · rw [input?_transmitting]
      exact hsome
    · rw [hreaches, hreached]
      rfl
    · exact halike.partner.trans hpartner
    · rwa [halike.hears]
  case tells =>
    intro other
    rw [htells, h.tells, hreaches, halike.speaks]
    cases router.forwarding.speaks <;> rfl
  case receive =>
    simp only [input?_transmitting]
    exact h.receive
  case transmit =>
    rw [halike.limit]
    exact Nat.le_trans (Nat.sub_le _ _) h.transmit
  case wanted =>
    intro other
    rw [halike.requestedLinks]
    exact h.wanted other
  case network =>
    rw [halike.links]
    exact h.network
  case locked => exact fun hlocked => absurd (hunlocked.symm.trans hlocked) Bool.false_ne_true
  case ready => exact fun hready => absurd hready (h.phase_ne_ready hunlocked)
  case locks => exact h.locks
  case signals => exact h.signals

/-- A node records that a transmit which it expects has started. -/
theorem completeConnection_transmitting (hbound : node.boundPeer? channel = some far)
    (hmember : node.topology.hasMember source = true) (hne : source ≠ far)
    (hexpected : 0 < node.progress.expected.tx) :
    node.completeConnection .tx channel source =
      (transmitting node source far channel, .ok far) := by
  have hledger : node.ledgerAfter .tx channel source =
      .ok (far, (transmitting node source far channel).ledger) := by
    rw [Node.ledgerAfter, hbound]
    dsimp only
    rw [hmember, if_neg (by simp), if_neg hne, transmitting]
    split <;> rfl
  have hcount : 0 < node.progress.expected.count Direction.tx.counter := hexpected
  rw [Node.completeConnection, hledger]
  dsimp only
  rw [Progress.complete_eq_ok hcount]
  rfl

/-- A router that records such a transmit sends what follows from it, and then proceeds. -/
theorem handle_transmitting (hworking : router.node.isFailed = false)
    (hbound : router.node.boundPeer? channel = some far)
    (hmember : router.node.topology.hasMember source = true) (hne : source ≠ far)
    (hexpected : 0 < router.node.progress.expected.tx) {middle : Router} {outbox : Outbox}
    (hcompleted : Router.transmitCompleted
      ⟨transmitting router.node source far channel, router.forwarding⟩ source far =
        (middle, outbox)) :
    router.handle wiring.backend (.connection ⟨.tx, channel, source, true⟩) =
      (middle.proceed wiring.backend, .ok outbox) := by
  rw [Router.handle, if_neg (by simp [hworking])]
  simp only [Router.connectionChanged, Bool.not_true, Bool.false_eq_true, if_false]
  rw [completeConnection_transmitting hbound hmember hne hexpected]
  dsimp only
  rw [hcompleted]

theorem moves_transmitting {forwarding : Forwarding} {outbox : Outbox}
    (halike : Alike router.forwarding forwarding) (hdue : 0 < router.node.progress.expected.tx)
    (hforwards : ∀ {receiver forwarder peer}, ⟨receiver, .forward forwarder peer⟩ ∈ outbox ↔
      forwarder = near ∧ receiver ≠ near ∧ receiver = source ∧
        router.node.boundPeer? channel = some peer)
    (hannounces : ∀ {receiver announcer chassis},
      ⟨receiver, .outerAnnounce announcer chassis⟩ ∈ outbox → announcer = near ∧
        b.topology.chassis? near = some chassis ∧ forwarding.tells receiver = true)
    (htold : ∀ {receiver}, forwarding.tells receiver = true →
      router.forwarding.tells receiver = true ∨
        ∃ chassis, ⟨receiver, .outerAnnounce near chassis⟩ ∈ outbox)
    (hlength : outbox.length ≤ 1) :
    b.Moves near router (.connection ⟨.tx, channel, source, true⟩) outbox
      ⟨transmitting router.node source far channel, forwarding⟩ where
  binding := by
    intro other peer
    simp only [Event.binding?, reduceCtorEq, or_false]
    rfl
  input := by
    intro other known
    rw [input?_transmitting]
    simp [Event.arrival?]
  hears := by
    intro other
    rw [halike.hears]
    simp [Event.announcer?]
  links := by
    intro peer
    rw [halike.links]
    simp [Event.link?]
  transmit := by
    have htx : (transmitting router.node source far channel).progress.expected.tx =
        router.node.progress.expected.tx - 1 := rfl
    rw [halike.limit]
    simp only [Event.departure?, if_true, Option.isSome_some, htx]
    omega
  forwards := by
    intro receiver forwarder peer
    rw [hforwards]
    simp only [Event.departure?, if_true, Option.some.injEq, Prod.mk.injEq]
    constructor
    · rintro ⟨hforwarder, hne, rfl, hbound⟩
      exact ⟨hforwarder, hne, channel, ⟨rfl, rfl⟩, hbound⟩
    · rintro ⟨hforwarder, hne, known, ⟨rfl, rfl⟩, hbound⟩
      exact ⟨hforwarder, hne, rfl, hbound⟩
  announces := hannounces
  told := htold
  share := hlength

theorem Rested.applies_transmit_own (h : b.Rested near router) (hvalid : b.Valid)
    (hwired : ∀ {channel far}, router.node.boundPeer? channel = some far →
      wiring.contains channel = true)
    (hbound : router.node.boundPeer? channel = some far) (hfeeds : b.Feeds near near far)
    (hdue : 0 < router.node.progress.expected.tx)
    (hdirect : ∀ {route}, near = near → router.node.ledger.route? far = some route →
      route.linkCount = 1) :
    b.Applies near wiring router (.connection ⟨.tx, channel, near, true⟩) := by
  obtain ⟨hne, hmember, -, -⟩ := hvalid.of_feeds hfeeds
  have hinforms := informs_transmitDone router.forwarding
    (transmitting router.node near far channel) far
  have hrank : (transmitting router.node near far channel).rank = near := h.rank_eq
  have hsteady := h.toSteady.transmitting hbound hdue hdirect hinforms.toAlike
    (by simpa using hinforms.tells)
  refine hsteady.applies hvalid (moves_transmitting hinforms.toAlike hdue ?_ ?_ ?_ hinforms.length)
    hwired ?_
  · intro receiver forwarder peer
    rw [hinforms.sends]
    constructor
    · rintro ⟨-, -, heq⟩
      exact absurd (AddressedMessage.mk.inj heq).2 (by simp)
    · rintro ⟨-, hne, heq, -⟩
      exact absurd heq hne
  · intro receiver announcer chassis hmem
    obtain ⟨hspeaks, -, heq⟩ := (hinforms.sends _).1 hmem
    obtain ⟨rfl, hmessage⟩ := AddressedMessage.mk.inj heq
    obtain ⟨rfl, rfl⟩ := ControlMessage.outerAnnounce.inj hmessage
    refine ⟨hrank, h.chassis?_eq hmember, ?_⟩
    rw [hinforms.tells, hspeaks]
    simp
  · intro receiver htells
    rw [hinforms.tells, Bool.or_eq_true, Bool.and_eq_true, beq_iff_eq] at htells
    rcases htells with htells | ⟨hspeaks, rfl⟩
    · exact .inl htells
    · cases hbefore : router.forwarding.tells receiver with
      | true => exact .inl rfl
      | false =>
        right
        refine ⟨router.node.topology.localChassis, (hinforms.sends _).2 ⟨hspeaks, hbefore, ?_⟩⟩
        rw [hrank]
        rfl
  · apply handle_transmitting h.working hbound ((h.hasMember_eq near).trans hmember) hne hdue
    rw [Router.transmitCompleted, if_pos]
    exact h.rank_eq.symm

theorem Rested.applies_transmit_relay (h : b.Rested near router) (hvalid : b.Valid)
    (hwired : ∀ {channel far}, router.node.boundPeer? channel = some far →
      wiring.contains channel = true)
    (hbound : router.node.boundPeer? channel = some far) (hfeeds : b.Feeds source near far)
    (hdue : 0 < router.node.progress.expected.tx) (hrelay : source ≠ near) :
    b.Applies near wiring router (.connection ⟨.tx, channel, source, true⟩) := by
  obtain ⟨hne, hmember, -, -⟩ := hvalid.of_feeds hfeeds
  have hsteady := h.toSteady.transmitting hbound hdue (fun heq => absurd heq hrelay) (.refl _)
    (by simp [hrelay])
  have houtbox : ([⟨source, .forward near far⟩] : Outbox).length ≤ 1 := Nat.le_refl 1
  refine hsteady.applies hvalid (moves_transmitting (.refl _) hdue ?_ ?_ ?_ houtbox) hwired ?_
  · intro receiver forwarder peer
    rw [List.mem_singleton]
    constructor
    · intro heq
      obtain ⟨rfl, hmessage⟩ := AddressedMessage.mk.inj heq
      obtain ⟨rfl, rfl⟩ := ControlMessage.forward.inj hmessage
      exact ⟨rfl, hrelay, rfl, hbound⟩
    · rintro ⟨rfl, -, rfl, hknown⟩
      obtain rfl := Option.some.inj (hbound.symm.trans hknown)
      rfl
  · intro receiver announcer chassis hmem
    exact absurd hmem (by simp)
  · exact fun htells => .inl htells
  · have hrank : (⟨transmitting router.node source far channel, router.forwarding⟩ : Router).rank =
        near := h.rank_eq
    apply handle_transmitting h.working hbound ((h.hasMember_eq source).trans hmember) hne hdue
    rw [Router.transmitCompleted, hrank, if_neg hrelay]

end Blueprint

end MeshFormation
