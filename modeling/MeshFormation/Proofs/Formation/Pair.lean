import MeshFormation.Proofs.Fabric.Surplus
import MeshFormation.Proofs.Formation.Completion

/-!
# A node of a pair

A node of a pair binds one channel and sends its own data there, once. It takes in the first report
of that channel and later ones, the completion of its own transmit and the data of its peer, as long
as either is expected.
-/

namespace MeshFormation

namespace Node

variable {node next : Node} {wiring : Wiring}

/-- A node that went on to lock a complete mesh and to signal readiness, if either was due. -/
structure Settles (node next : Node) : Prop extends node.Advances next where
  working : next.isFailed = false
  expected : next.progress.expected = node.progress.expected
  locked : next.progress.locked = true →
    node.progress.locked = true ∨ node.progress.expected.meshDone = true
  requests : next.journal.requests = node.journal.requests

theorem settles_refl (hworking : node.isFailed = false) : node.Settles node :=
  ⟨.refl node, hworking, rfl, .inl, rfl⟩

theorem Signals.settles (h : node.Signals next) (hadvances : node.Advances next)
    (hworking : node.isFailed = false) : node.Settles next where
  toAdvances := hadvances
  working := by
    cases h with
    | idle => exact hworking
    | signalled => rfl
  expected := by cases h <;> rfl
  locked hlocked := by
    cases h with
    | idle => exact .inl hlocked
    | signalled _ hold => exact .inl hold
  requests := by cases h <;> rfl

theorem settles_signalReadiness (hworking : node.isFailed = false) :
    node.Settles node.signalReadiness :=
  (signals_signalReadiness node).settles (advances_signalReadiness node) hworking

theorem settles_lockWhenComplete (hworking : node.isFailed = false) :
    node.Settles (node.lockWhenComplete wiring.backend) := by
  unfold lockWhenComplete
  split
  · exact settles_refl hworking
  rename_i hdue
  have hmesh : node.progress.expected.meshDone = true := by
    simp only [hworking, Bool.false_or, Bool.not_eq_true', Bool.not_eq_false] at hdue
    exact hdue
  split
  · exact settles_signalReadiness hworking
  rw [lock_backend]
  have hlocking : node.Advances { node.locking with progress := node.locking.progress.lock } :=
    ⟨⟨rfl, id, _, rfl, by simp [Call.isSend]⟩, rfl, rfl, rfl⟩
  have hsettles : Settles { node.locking with progress := node.locking.progress.lock } _ :=
    settles_signalReadiness hworking
  exact ⟨hlocking.trans hsettles.toAdvances, hsettles.working, hsettles.expected,
    fun _ => .inr hmesh, hsettles.requests.trans (requests_locking node)⟩

end Node

namespace Blueprint

variable {b : Blueprint} {near far source : Rank} {router : Router} {next : Node} {wiring : Wiring}
  {channel : Channel} {event : ChannelEvent}

/-- A node of a pair. It asked to transmit its own data on the channel that it has bound, if any,
and its data is under way or received before it locks. -/
structure Paired (b : Blueprint) (near : Rank) (router : Router) : Prop where
  topology : router.node.topology = b.topology.seenFrom near
  forwarding : router.forwarding = .pair
  lost : ∀ channel, router.node.lostChannels.contains channel = false
  working : router.node.isFailed = false
  asked : ∀ {source channel}, (source, channel) ∈ router.node.journal.requests ↔
    source = near ∧ ∃ far, router.node.boundPeer? channel = some far
  once : router.node.journal.requests.length ≤ 1
  few : router.node.progress.expected.rx ≤ 1
  heard : ∀ {source}, (router.node.ledger.input? source).isSome = true →
    router.node.progress.expected.rx = 0
  locked : router.node.progress.locked = true → router.node.progress.expected.tx = 0

/-- A node of a pair takes an event in, and then asks for some transmits. -/
structure Turns (b : Blueprint) (near : Rank) (wiring : Wiring) (router : Router) (event : Event)
    (due : List (Rank × Channel)) : Prop where
  ok : (router.handle wiring.backend event).2 = .ok []
  paired : b.Paired near (router.handle wiring.backend event).1
  binding : ∀ {channel peer},
    (router.handle wiring.backend event).1.node.boundPeer? channel = some peer ↔
      router.node.boundPeer? channel = some peer ∨ event.binding? = some (channel, peer)
  requests : (router.handle wiring.backend event).1.node.journal.requests =
    router.node.journal.requests ++ due
  transmit : (router.handle wiring.backend event).1.node.progress.expected.tx +
    (if event.departure?.isSome then 1 else 0) = router.node.progress.expected.tx
  receive : (router.handle wiring.backend event).1.node.progress.expected.rx +
    (if event.arrival?.isSome then 1 else 0) = router.node.progress.expected.rx
  asks : router.node.Asks (·.isDisable = false) (router.handle wiring.backend event).1.node

namespace Paired

variable (h : b.Paired near router)
include h

theorem rank_eq : router.node.rank = near := by
  rw [Node.rank, h.topology]
  rfl

theorem hasMember_eq (peer : Rank) :
    router.node.topology.hasMember peer = b.topology.hasMember peer := by
  rw [h.topology]
  rfl

theorem requests_eq_nil (hfree : ∀ channel, router.node.boundPeer? channel = none) :
    router.node.journal.requests = [] := by
  rw [List.eq_nil_iff_forall_not_mem]
  rintro ⟨source, channel⟩ hmem
  obtain ⟨-, far, hbound⟩ := h.asked.1 hmem
  rw [hfree] at hbound
  exact absurd hbound (by simp)

theorem settles (hsettles : router.node.Settles next) : b.Paired near ⟨next, .pair⟩ where
  topology := hsettles.topology.trans h.topology
  forwarding := rfl
  lost channel := by
    rw [hsettles.lostChannels]
    exact h.lost channel
  working := hsettles.working
  asked := by
    intro source channel
    dsimp only
    rw [hsettles.requests, Node.boundPeer?, hsettles.bindings]
    exact h.asked
  once := by
    rw [hsettles.requests]
    exact h.once
  few := by
    rw [hsettles.expected]
    exact h.few
  heard := by
    rw [hsettles.expected, hsettles.ledger]
    exact h.heard
  locked := by
    intro hlocked
    rw [hsettles.expected]
    rcases hsettles.locked hlocked with hold | hmesh
    · exact h.locked hold
    · simp only [Expected.meshDone, Bool.and_eq_true, beq_iff_eq] at hmesh
      exact hmesh.2

theorem disabling (channel : Channel) : b.Paired near (router.disabling channel) :=
  { h with
    asked := by
      intro source other
      rw [Router.requests_disabling]
      exact h.asked
    once := (Router.requests_disabling router channel).symm ▸ h.once
    heard := h.heard }

theorem proceed (wiring : Wiring) : router.node.Settles (router.proceed wiring.backend).node ∧
    b.Paired near (router.proceed wiring.backend) := by
  have hsettles : router.node.Settles (router.proceed wiring.backend).node ∧
      (router.proceed wiring.backend).forwarding = .pair := by
    rw [Router.proceed, if_neg (by simp [h.working])]
    split
    · exact ⟨Node.settles_lockWhenComplete h.working, h.forwarding⟩
    · rw [h.forwarding]
      exact ⟨Node.settles_refl h.working, rfl⟩
  have hpaired := h.settles hsettles.1
  rw [← hsettles.2] at hpaired
  exact ⟨hsettles.1, hpaired⟩

theorem handle_receive {bound : Rank} (hbound : router.node.boundPeer? channel = some bound)
    (hmember : b.topology.hasMember source = true) (hne : source ≠ near)
    (hexpected : 0 < router.node.progress.expected.rx) :
    router.handle wiring.backend (.connection ⟨.rx, channel, source, true⟩) =
      (Router.proceed ⟨Blueprint.receiving router.node source channel, router.forwarding⟩
        wiring.backend, .ok []) := by
  have hmissing : router.node.ledger.input? source = none := by
    cases hinput : router.node.ledger.input? source with
    | none => rfl
    | some known =>
      have hzero := @Paired.heard _ _ _ h source (by rw [hinput]; rfl)
      omega
  exact handle_receiving h.working hbound ((h.hasMember_eq source).trans hmember) (h.rank_eq ▸ hne)
    hmissing hexpected

/-- Data of the peer arrives while it is expected. -/
theorem receive {bound : Rank} (hbound : router.node.boundPeer? channel = some bound)
    (hmember : b.topology.hasMember source = true) (hne : source ≠ near)
    (hexpected : 0 < router.node.progress.expected.rx) :
    b.Turns near wiring router (.connection ⟨.rx, channel, source, true⟩) [] := by
  have hhandle : router.handle wiring.backend (.connection ⟨.rx, channel, source, true⟩) = _ :=
    h.handle_receive hbound hmember hne hexpected
  have hfew := h.few
  have hrx : (Blueprint.receiving router.node source channel).progress.expected.rx =
      router.node.progress.expected.rx - 1 := rfl
  have hmiddle : b.Paired near
      ⟨Blueprint.receiving router.node source channel, router.forwarding⟩ :=
    { h with
      few := by
        dsimp only
        omega
      heard := fun _ => by
        dsimp only
        omega }
  obtain ⟨hsettles, hpaired⟩ := hmiddle.proceed wiring
  constructor
  case ok => rw [hhandle]
  case paired => rwa [hhandle]
  case binding =>
    intro other peer
    rw [hhandle, Node.boundPeer?, hsettles.bindings]
    simp [Event.binding?, Blueprint.receiving, Node.boundPeer?]
  case requests =>
    rw [hhandle, hsettles.requests, List.append_nil]
    rfl
  case transmit =>
    rw [hhandle, hsettles.expected]
    simp [Event.departure?, Blueprint.receiving]
  case receive =>
    rw [hhandle, hsettles.expected, hrx]
    simp [Event.arrival?]
    omega
  case asks =>
    rw [hhandle]
    exact Node.Asks.trans (.nothing rfl) (Router.asks_proceed _ _)

theorem handle_transmit (hbound : router.node.boundPeer? channel = some far)
    (hmember : b.topology.hasMember near = true) (hne : near ≠ far)
    (hexpected : 0 < router.node.progress.expected.tx) :
    router.handle wiring.backend (.connection ⟨.tx, channel, near, true⟩) =
      (Router.proceed ⟨Blueprint.transmitting router.node near far channel, .pair⟩
        wiring.backend, .ok []) := by
  apply handle_transmitting h.working hbound ((h.hasMember_eq near).trans hmember) hne hexpected
  simp only [Router.transmitCompleted, Router.rank, h.forwarding]
  rw [if_pos]
  · rfl
  · exact h.rank_eq.symm

/-- A transmit of the node's own data starts while it is expected. -/
theorem transmit (hbound : router.node.boundPeer? channel = some far)
    (hmember : b.topology.hasMember near = true) (hne : near ≠ far)
    (hexpected : 0 < router.node.progress.expected.tx) :
    b.Turns near wiring router (.connection ⟨.tx, channel, near, true⟩) [] := by
  have hhandle : router.handle wiring.backend (.connection ⟨.tx, channel, near, true⟩) = _ :=
    h.handle_transmit hbound hmember hne hexpected
  have hmiddle : b.Paired near ⟨Blueprint.transmitting router.node near far channel, .pair⟩ :=
    { h with
      forwarding := rfl
      heard := by
        intro source hinput
        rw [input?_transmitting] at hinput
        exact h.heard hinput
      locked := by
        intro hlocked
        have hzero := h.locked hlocked
        omega }
  obtain ⟨hsettles, hpaired⟩ := hmiddle.proceed wiring
  constructor
  case ok => rw [hhandle]
  case paired => rwa [hhandle]
  case binding =>
    intro other peer
    rw [hhandle, Node.boundPeer?, hsettles.bindings]
    simp [Event.binding?, Blueprint.transmitting, Node.boundPeer?]
  case requests =>
    rw [hhandle, hsettles.requests, List.append_nil]
    rfl
  case transmit =>
    rw [hhandle, hsettles.expected]
    simp [Event.departure?, Blueprint.transmitting]
    omega
  case receive =>
    rw [hhandle, hsettles.expected]
    simp [Event.arrival?, Blueprint.transmitting]
  case asks =>
    rw [hhandle]
    exact Node.Asks.trans (.nothing rfl) (Router.asks_proceed _ _)

section Channel

variable (hne : event.peer ≠ near) (hchassis : b.topology.chassis? event.peer = some event.chassis)
  (hshare : b.topology.sharePartition near event.peer = true)
include hne hchassis hshare

theorem recognises : router.node.Recognises event := by
  have hmember := Topology.exists_chassis?_iff.1 ⟨_, hchassis⟩
  constructor
  case kept => exact h.lost _
  case peer =>
    rw [h.rank_eq, h.topology]
    exact Topology.mem_peers_iff.2 ⟨hne, hmember, hshare⟩
  case chassis =>
    rw [h.topology]
    exact hchassis

theorem handle_discover (hconnected : event.connected = true)
    (hwired : wiring.contains event.channel = true)
    (hfree : ∀ channel, router.node.boundPeer? channel = none)
    (hunlocked : router.node.progress.locked = false) :
    router.handle wiring.backend (.channel event) =
      (⟨joining router.node event 0, .pair⟩, .ok []) := by
  have halone : ∀ channel, router.node.boundPeer? channel ≠ some event.peer := by simp [hfree]
  have hfresh : router.node.screening event = .fresh :=
    Node.screening_eq_fresh_iff.2 ⟨h.recognises hne hchassis hshare, hfree _, hunlocked, halone⟩
  have hestablish : (router.node.bind event.channel event.peer).establish wiring.backend
      router.node.rank event.channel = ((router.node.bind event.channel event.peer).asking
        [(router.node.rank, event.channel)], true) := Node.establish_backend hwired
  rw [Router.handle, if_neg (by simp [h.working])]
  simp only [Router.channelChanged, hconnected, Bool.not_true, Bool.false_eq_true, if_false, hfresh,
    h.forwarding, Forwarding.rejection?, hestablish, Forwarding.channelBound]
  rfl

omit hne hchassis hshare in
/-- A node without a channel binds the first one, and asks to send its own data there. -/
theorem join (hfree : ∀ channel, router.node.boundPeer? channel = none) :
    b.Paired near ⟨joining router.node event 0, .pair⟩ := by
  have hrequests : (joining router.node event 0).journal.requests =
      [(near, event.channel)] := by
    rw [requests_joining, h.rank_eq, h.requests_eq_nil hfree, List.nil_append]
  exact { h with
    forwarding := rfl
    asked := by
      intro source channel
      dsimp only
      rw [hrequests, List.mem_singleton, Prod.mk.injEq]
      simp [boundPeer?_joining (hfree event.channel), hfree]
    once := by
      dsimp only
      rw [hrequests]
      exact Nat.le_refl 1
    heard := by
      intro source hinput
      rw [input?_joining] at hinput
      exact h.heard hinput
    locked := fun hlocked => h.locked hlocked }

/-- The first channel to the peer is bound, and the node's own data is to be sent there. -/
theorem discover (hconnected : event.connected = true)
    (hwired : wiring.contains event.channel = true)
    (hfree : ∀ channel, router.node.boundPeer? channel = none)
    (hunlocked : router.node.progress.locked = false) :
    b.Turns near wiring router (.channel event) [(near, event.channel)] := by
  have hhandle : router.handle wiring.backend (.channel event) = _ :=
    h.handle_discover hne hchassis hshare hconnected hwired hfree hunlocked
  constructor
  case ok => rw [hhandle]
  case paired =>
    rw [hhandle]
    exact h.join hfree
  case binding =>
    intro channel peer
    rw [hhandle, boundPeer?_joining (hfree event.channel), hfree]
    simp [Event.binding?, eq_comm]
  case requests =>
    rw [hhandle, requests_joining, h.rank_eq]
  case transmit =>
    rw [hhandle]
    rfl
  case receive =>
    rw [hhandle]
    rfl
  case asks =>
    rw [hhandle]
    exact ⟨[⟨.establish router.node.rank event.channel, none⟩], rfl, by simp [Call.isDisable]⟩

/-- The channel in use may be reported again. -/
theorem rediscover (hconnected : event.connected = true)
    (hbound : router.node.boundPeer? event.channel = some event.peer) :
    b.Turns near wiring router (.channel event) [] := by
  have hduplicate : router.node.screening event = .duplicate :=
    Node.screening_eq_duplicate_iff.2 ⟨h.recognises hne hchassis hshare, hbound⟩
  have hhandle : router.handle wiring.backend (.channel event) = (router, .ok []) := by
    rw [Router.handle, if_neg (by simp [h.working])]
    simp only [Router.channelChanged, hconnected, Bool.not_true, Bool.false_eq_true, if_false,
      hduplicate]
  constructor
  case ok => rw [hhandle]
  case paired => rwa [hhandle]
  case binding =>
    intro channel peer
    rw [hhandle]
    refine ⟨.inl, ?_⟩
    rintro (hold | hnew)
    · exact hold
    · obtain ⟨rfl, rfl⟩ := Prod.mk.inj (Option.some.inj hnew)
      exact hbound
  case requests => rw [hhandle, List.append_nil]
  case transmit =>
    rw [hhandle]
    rfl
  case receive =>
    rw [hhandle]
    rfl
  case asks =>
    rw [hhandle]
    exact .refl _ _

end Channel

end Paired

/-- The blueprint of two nodes. -/
structure OfPair (b : Blueprint) : Prop where
  fault : b.topology.fault? = none
  profile : b.topology.profile = .pair
  member : ∀ link ∈ b.links, link.1 ≠ link.2 ∧ b.topology.hasMember link.1 = true ∧
    b.topology.hasMember link.2 = true

namespace OfPair

variable {other : Rank} (h : b.OfPair)
include h

theorem distinct : ∀ link ∈ b.links, link.1 ≠ link.2 := fun link hmem => (h.member link hmem).1

theorem of_joined (hjoined : b.Joined near far) : near ≠ far ∧ b.topology.hasMember near = true ∧
    b.topology.hasMember far = true := by
  rcases hjoined with hmem | hmem
  · exact h.member _ hmem
  · obtain ⟨hne, hfar, hnear⟩ := h.member _ hmem
    exact ⟨hne.symm, hnear, hfar⟩

theorem sharePartition (near far : Rank) : b.topology.sharePartition near far = true := by
  simp [Topology.sharePartition, Topology.partitionIndex, h.profile]

theorem length_ranks : b.topology.ranks.length = 2 := by
  have hfault := h.fault
  rw [Topology.fault?, h.profile] at hfault
  dsimp only at hfault
  split at hfault
  · exact absurd hfault (by simp)
  · rename_i hsize
    exact (Table.length_keys _).trans (not_not.1 hsize)

/-- There is no third node. -/
theorem eq_of_ne (hnear : b.topology.hasMember near = true) (hfar : b.topology.hasMember far = true)
    (hother : b.topology.hasMember other = true) (hne : far ≠ near) (hne' : other ≠ near) :
    other = far := by
  refine Classical.byContradiction fun hthird => ?_
  have hnodup : [near, far, other].Nodup := by
    simp [hne.symm, hne'.symm, Ne.symm hthird]
  have hsubset : [near, far, other] ⊆ b.topology.ranks := by
    simp [Topology.mem_ranks_iff, hnear, hfar, hother]
  have hlength := (List.subperm_of_subset hnodup hsubset).length_le
  rw [h.length_ranks] at hlength
  exact absurd hlength (by simp)

end OfPair

end Blueprint

end MeshFormation
