import MeshFormation.Proofs.Formation.Steady

/-!
# One event at a node at rest

An event that the blueprint permits never fails a node at rest: the node applies it, sends the
messages that are due, and is at rest again. Each event is treated on its own; what it changes is
stated in the same terms for all of them.
-/

namespace MeshFormation

namespace Event

def binding? : Event → Option (Channel × Rank)
  | .channel event => some (event.channel, event.peer)
  | _ => none

/-- The source whose data an event brings, with the channel. -/
def arrival? : Event → Option (Rank × Channel)
  | .connection event =>
    if event.direction = .rx then some (event.source, event.channel) else none
  | _ => none

/-- The source whose data the node sends from an event on, with the channel. -/
def departure? : Event → Option (Rank × Channel)
  | .connection event =>
    if event.direction = .tx then some (event.source, event.channel) else none
  | _ => none

def announcer? : Event → Option Rank
  | .outerAnnounce announcer _ => some announcer
  | _ => none

def link? : Event → Option Rank
  | .network event => some event.peer
  | _ => none

/-- The greatest number of messages that an event makes a node send. -/
def share : Event → Nat
  | .channel _ => 7
  | .connection event => if event.direction = .tx then 1 else 0
  | _ => 0

end Event

namespace Blueprint

variable {b : Blueprint} {near far source peer partner : Rank} {router next : Router}
  {rule : RelayRule} {channel : Channel} {wiring : Wiring} {event : Event} {outbox : Outbox}

/-- The events that can reach a node of an ensemble that forms by the blueprint. -/
inductive Permits (b : Blueprint) (near : Rank) (wiring : Wiring) (router : Router) : Event → Prop
  | channel {event : ChannelEvent} (connected : event.connected = true)
      (wired : wiring.contains event.channel = true)
      (free : router.node.boundPeer? event.channel = none)
      (alone : ∀ channel, router.node.boundPeer? channel ≠ some event.peer)
      (joined : b.Joined near event.peer)
      (chassis : b.topology.chassis? event.peer = some event.chassis)
      (unlocked : router.node.progress.locked = false) :
      Permits b near wiring router (.channel event)
  | receive {channel : Channel} {source peer : Rank}
      (bound : router.node.boundPeer? channel = some peer) (feeds : b.Feeds source peer near)
      (missing : router.node.ledger.input? source = none) :
      Permits b near wiring router (.connection ⟨.rx, channel, source, true⟩)
  | transmit {channel : Channel} {source far : Rank}
      (bound : router.node.boundPeer? channel = some far) (feeds : b.Feeds source near far)
      (due : 0 < router.node.progress.expected.tx)
      (direct : ∀ {route}, source = near → router.node.ledger.route? far = some route →
        route.linkCount = 1) :
      Permits b near wiring router (.connection ⟨.tx, channel, source, true⟩)
  | forward {forwarder receiver : Rank} {base : Route} (other : receiver ≠ near)
      (forwarding : b.topology.hasMember forwarder = true)
      (receiving : b.topology.hasMember receiver = true)
      (known : router.node.ledger.route? forwarder = some base)
      (sound : (base.relayed receiver).fault? near receiver = none) :
      Permits b near wiring router (.forward forwarder receiver)
  | announce {announcer : Rank} {chassis : String} (cube : b.topology.profile = .cube)
      (other : announcer ≠ near) (stated : b.topology.chassis? announcer = some chassis)
      (outer : (b.partner? announcer).isSome = true) :
      Permits b near wiring router (.outerAnnounce announcer chassis)
  | network {event : NetworkEvent} (hypercube : b.topology.profile = .hypercube)
      (connected : event.connected = true) (wanted : event.peer ∈ b.topology.counterparts near) :
      Permits b near wiring router (.network event)

/-- What an event changes at a node, and which messages the node sends. -/
structure Moves (b : Blueprint) (near : Rank) (router : Router) (event : Event) (outbox : Outbox)
    (next : Router) : Prop where
  binding : ∀ {channel peer}, next.node.boundPeer? channel = some peer ↔
    router.node.boundPeer? channel = some peer ∨ event.binding? = some (channel, peer)
  input : ∀ {source channel}, next.node.ledger.input? source = some channel ↔
    router.node.ledger.input? source = some channel ∨ event.arrival? = some (source, channel)
  hears : ∀ {other}, next.forwarding.hears other = true ↔
    router.forwarding.hears other = true ∨ event.announcer? = some other
  links : ∀ {peer}, next.forwarding.links.contains peer = true ↔
    router.forwarding.links.contains peer = true ∨ event.link? = some peer
  transmit : next.node.progress.expected.tx + router.forwarding.limit +
    (if event.departure?.isSome then 1 else 0) =
      router.node.progress.expected.tx + next.forwarding.limit
  forwards : ∀ {receiver forwarder far}, ⟨receiver, .forward forwarder far⟩ ∈ outbox ↔
    forwarder = near ∧ receiver ≠ near ∧ ∃ channel,
      event.departure? = some (receiver, channel) ∧ router.node.boundPeer? channel = some far
  announces : ∀ {receiver announcer chassis},
    ⟨receiver, .outerAnnounce announcer chassis⟩ ∈ outbox →
    announcer = near ∧ b.topology.chassis? near = some chassis ∧
      next.forwarding.tells receiver = true
  told : ∀ {receiver}, next.forwarding.tells receiver = true →
    router.forwarding.tells receiver = true ∨
      ∃ chassis, ⟨receiver, .outerAnnounce near chassis⟩ ∈ outbox
  share : outbox.length ≤ event.share

theorem Moves.resume {last : Router} (h : b.Moves near router event outbox next)
    (hresumes : Resumes next last) : b.Moves near router event outbox last where
  binding := by
    intro channel peer
    rw [Node.boundPeer?, hresumes.bindings]
    exact h.binding
  input := by
    intro source channel
    rw [hresumes.ledger]
    exact h.input
  hears := by
    intro other
    rw [hresumes.hears]
    exact h.hears
  links := by
    intro peer
    rw [hresumes.links]
    exact h.links
  transmit := by
    have hlimit : last.forwarding.limit = next.forwarding.limit := by
      rw [Forwarding.limit, hresumes.profile, hresumes.partner, Forwarding.limit]
    rw [hresumes.expected, hlimit]
    exact h.transmit
  forwards := h.forwards
  announces := by
    intro receiver announcer chassis hmem
    rw [hresumes.tells]
    exact h.announces hmem
  told := by
    intro receiver htells
    rw [hresumes.tells] at htells
    exact h.told htells
  share := h.share

/-- The event is applied without an error, and the node is at rest again. -/
def Applies (b : Blueprint) (near : Rank) (wiring : Wiring) (router : Router) (event : Event) :
    Prop :=
  ∃ next outbox, router.handle wiring.backend event = (next, .ok outbox) ∧ b.Rested near next ∧
    b.Moves near router event outbox next

theorem Steady.rank_eq (h : b.Steady near router) : router.node.rank = near := by
  rw [Node.rank, h.topology]
  rfl

/-- A count that was taken over a list without repetitions rises by one with one new member. -/
theorem countP_add {list : List Rank} (before after : Rank → Bool) (hnodup : list.Nodup)
    (hmem : peer ∈ list) (hold : before peer = false)
    (hafter : ∀ other, after other = (before other || other == peer)) :
    list.countP after = list.countP before + 1 := by
  induction list with
  | nil => exact absurd hmem (by simp)
  | cons head rest ih =>
    obtain ⟨hhead, hrest⟩ := List.nodup_cons.1 hnodup
    rw [List.countP_cons, List.countP_cons, hafter head]
    rcases List.mem_cons.1 hmem with rfl | hmem
    · have hsame : rest.countP after = rest.countP before := by
        apply List.countP_congr
        intro other hother
        have hne : other ≠ peer := by
          rintro rfl
          exact hhead hother
        simp [hafter other, hne]
      simp [hsame, hold]
    · have hne : head ≠ peer := by
        rintro rfl
        exact hhead hmem
      rw [ih hrest hmem]
      simp [hne]
      omega

end Blueprint

end MeshFormation
