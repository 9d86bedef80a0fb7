import MeshFormation.Proofs.Formation.Rules

/-!
# Nodes between events

A node that fits the blueprint has asked for exactly the transmits that it is charged with so far,
and its counts stand at what is still missing. Every event but a channel event ends with a
transition that locks a complete mesh or runs the rules that are due; this transition leaves the
node at rest, with nothing more to do until the next event.
-/

namespace MeshFormation

namespace Forwarding

/-- Whether the node tells its peers that it is an outer node. -/
def speaks (forwarding : Forwarding) : Bool :=
  forwarding.profile == .cube && forwarding.crossPartner?.isSome

/-- The number of transmits that the node has to make in all, as far as it knows. -/
def limit (forwarding : Forwarding) : Nat :=
  match forwarding.profile with
  | .pair => 1
  | .cube => if forwarding.crossPartner?.isSome then 3 + outerExtraTx else 3
  | .hypercube => 7

theorem limit_le (forwarding : Forwarding) : forwarding.limit ≤ 11 := by
  unfold limit outerExtraTx
  split
  · omega
  · split <;> omega
  · omega

end Forwarding

namespace Blueprint

variable {b : Blueprint} {near far source : Rank} {router next : Router} {rule : RelayRule}
  {channel : Channel} {wiring : Wiring}

/-- A node has to send the data of a source to a receiver: its own data always, that of others once
the rule has run. -/
def Charged (b : Blueprint) (near : Rank) (forwarding : Forwarding) (source far : Rank) : Prop :=
  source = near ∨ ∃ rule, forwarding.ran rule = true ∧ b.Assigned near rule source far

/-- A node in the middle of an event. What it knows fits the blueprint, it asked for what it is
charged with, and its counts stand at what is missing. -/
structure Steady (b : Blueprint) (near : Rank) (router : Router) : Prop
    extends b.Consistent near router.node router.forwarding where
  lost : ∀ channel, router.node.lostChannels.contains channel = false
  working : router.node.isFailed = false
  nodup : router.node.journal.requests.Nodup
  asked : ∀ {source channel}, (source, channel) ∈ router.node.journal.requests ↔
    ∃ far, router.node.boundPeer? channel = some far ∧ b.Charged near router.forwarding source far
  ran : ∀ {rule}, router.forwarding.ran rule = true →
    b.Due near router.node.ledger router.forwarding rule
  tells : ∀ peer, router.forwarding.tells peer =
    (router.forwarding.speaks && router.node.ledger.reaches peer)
  receive : router.node.progress.expected.rx +
    (b.topology.peers near).countP (fun peer => (router.node.ledger.input? peer).isSome) =
      (b.topology.peers near).length
  transmit : router.node.progress.expected.tx ≤ router.forwarding.limit
  wanted : ∀ peer, router.forwarding.requestedLinks.contains peer = true ↔
    peer ∈ b.topology.counterparts near
  network : router.node.progress.expected.network +
    (b.topology.counterparts near).countP router.forwarding.links.contains =
      (b.topology.counterparts near).length
  locked : router.node.progress.locked = true → router.node.progress.expected.meshDone = true
  ready : router.node.progress.phase = .ready →
    router.node.progress.locked = true ∧ router.node.progress.expected.allDone = true
  locks : router.node.journal.locks = if router.node.progress.locked then 1 else 0
  signals : router.node.journal.readySignals =
    if router.node.progress.phase = .ready then 1 else 0

/-- A node between two events. It has locked a complete mesh, signalled that nothing is missing, and
run all rules that are due before the lock. -/
structure Rested (b : Blueprint) (near : Rank) (router : Router) : Prop
    extends b.Steady near router where
  complete : router.node.progress.expected.meshDone = true → router.node.progress.locked = true
  signalled : router.node.progress.expected.allDone = true → router.node.progress.phase = .ready
  due : ∀ {rule}, router.node.progress.locked = false →
    b.Due near router.node.ledger router.forwarding rule → router.forwarding.ran rule = true

/-- A locked node receives the data of all its peers. -/
theorem Steady.exists_feeds_of_locked (h : b.Steady near router)
    (hlocked : router.node.progress.locked = true) (hpeer : source ∈ b.topology.peers near) :
    ∃ channel far, router.node.boundPeer? channel = some far ∧ b.Feeds source far near := by
  have hmesh := h.locked hlocked
  have hreceive := h.receive
  simp only [Expected.meshDone, Bool.and_eq_true, beq_iff_eq] at hmesh
  have hall := List.countP_eq_length.1 (show (b.topology.peers near).countP
    (fun peer => (router.node.ledger.input? peer).isSome) = _ by omega) source hpeer
  obtain ⟨channel, hinput⟩ := Option.isSome_iff_exists.1 hall
  exact ⟨channel, h.input hinput⟩

/-- What the last part of an event leaves alone. -/
structure Resumes (router next : Router) : Prop where
  ledger : next.node.ledger = router.node.ledger
  bindings : next.node.bindings = router.node.bindings
  expected : next.node.progress.expected = router.node.progress.expected
  profile : next.forwarding.profile = router.forwarding.profile
  partner : next.forwarding.crossPartner? = router.forwarding.crossPartner?
  hears : next.forwarding.hears = router.forwarding.hears
  tells : next.forwarding.tells = router.forwarding.tells
  links : next.forwarding.links = router.forwarding.links

theorem Resumes.refl (router : Router) : Resumes router router :=
  ⟨rfl, rfl, rfl, rfl, rfl, rfl, rfl, rfl⟩

theorem Fires.speaks {node : Node} {forwarding next : Forwarding} {due : List RelayRequest}
    (h : b.Fires near node forwarding next due) : next.speaks = forwarding.speaks := by
  rw [Forwarding.speaks, h.profile, h.partner, Forwarding.speaks]

theorem Fires.limit {node : Node} {forwarding next : Forwarding} {due : List RelayRequest}
    (h : b.Fires near node forwarding next due) : next.limit = forwarding.limit := by
  rw [Forwarding.limit, h.profile, h.partner, Forwarding.limit]

theorem Due.mono {ledger ledger' : Ledger} {forwarding forwarding' : Forwarding}
    (hinput : ∀ peer, (ledger.input? peer).isSome = true → (ledger'.input? peer).isSome = true)
    (hreaches : ∀ peer, ledger.reaches peer = true → ledger'.reaches peer = true)
    (hpartner : ∀ partner, forwarding.crossPartner? = some partner →
      forwarding'.crossPartner? = some partner)
    (hhears : ∀ other, forwarding.hears other = true → forwarding'.hears other = true)
    (h : b.Due near ledger forwarding rule) : b.Due near ledger' forwarding' rule := by
  have hexchange : ∀ peer, ledger.exchangesDirectly peer = true →
      ledger'.exchangesDirectly peer = true := by
    intro peer hpeer
    rw [Ledger.exchangesDirectly_iff] at *
    exact ⟨hinput _ hpeer.1, hreaches _ hpeer.2⟩
  have hprimed : b.Primed near ledger forwarding → b.Primed near ledger' forwarding' := by
    rintro ⟨⟨fellow, hfellow, hheard⟩, ⟨partner, hknown, hsome⟩, hinners⟩
    exact ⟨⟨fellow, hfellow, hhears _ hheard⟩, ⟨partner, hpartner _ hknown, hinput _ hsome⟩,
      fun inner hinner => hinput _ (hinners inner hinner)⟩
  cases rule with
  | fanout =>
    obtain ⟨partner, hknown, hpeer, hmates⟩ := h
    exact ⟨partner, hpartner _ hknown, hexchange _ hpeer,
      fun mate hmate => hexchange _ (hmates mate hmate)⟩
  | uplink => exact hprimed h
  | cross =>
    obtain ⟨hbefore, partner, hknown, hinners⟩ := h
    exact ⟨hprimed hbefore, partner, hpartner _ hknown,
      fun inner hinner => hinput _ (hinners inner hinner)⟩

/-- A rule is due only at a node that knows its partner and receives its data. -/
theorem Due.partner {ledger : Ledger} {forwarding : Forwarding}
    (h : b.Due near ledger forwarding rule) : ∃ partner,
      forwarding.crossPartner? = some partner ∧ (ledger.input? partner).isSome = true := by
  cases rule with
  | fanout =>
    obtain ⟨partner, hknown, hpeer, -⟩ := h
    exact ⟨partner, hknown, (Ledger.exchangesDirectly_iff.1 hpeer).1⟩
  | uplink => exact h.2.1
  | cross => exact h.1.2.1

/-- A node that is to relay the data of a source by a rule that is due receives the data. -/
theorem Due.input {ledger : Ledger} {forwarding : Forwarding}
    (h : b.Due near ledger forwarding rule) (hassigned : b.Assigned near rule source far)
    (hpartner : ∀ {partner}, forwarding.crossPartner? = some partner →
      b.partner? near = some partner) : (ledger.input? source).isSome = true := by
  cases rule with
  | fanout =>
    obtain ⟨partner, hknown, hpeer, -⟩ := h
    obtain rfl := Option.some.inj (hassigned.1.symm.trans (hpartner hknown))
    exact (Ledger.exchangesDirectly_iff.1 hpeer).1
  | uplink => exact h.2.2 source hassigned.2
  | cross =>
    obtain ⟨-, partner, hknown, hinners⟩ := h
    obtain ⟨partner', fellow, hpartner', -, hchoice⟩ := chosen?_eq_some_iff.1 hassigned.1
    obtain rfl := Option.some.inj (hpartner'.symm.trans (hpartner hknown))
    exact hinners source (crossChoice_eq_some hchoice).1

theorem Fires.due_iff {node : Node} {forwarding next : Forwarding} {due : List RelayRequest}
    (h : b.Fires near node forwarding next due) {ledger : Ledger} :
    b.Due near ledger next rule ↔ b.Due near ledger forwarding rule := by
  constructor
  · refine Due.mono (fun _ => id) (fun _ => id) (fun partner hpartner => ?_) fun other hheard => ?_
    · exact h.partner.symm.trans hpartner
    · rwa [h.hears] at hheard
  · refine Due.mono (fun _ => id) (fun _ => id) (fun partner hpartner => ?_) fun other hheard => ?_
    · exact h.partner.trans hpartner
    · rwa [h.hears]

/-- A node that has not asked for the lock has not signalled that it is ready. -/
theorem Steady.phase_ne_ready (h : b.Steady near router)
    (hunlocked : router.node.progress.locked = false) : router.node.progress.phase ≠ .ready := by
  intro hready
  rw [(h.ready hready).1] at hunlocked
  exact absurd hunlocked (by simp)

/-- Once the lock has been asked for, the node is ready as soon as nothing is missing. -/
theorem Steady.signalReadiness (h : b.Steady near router)
    (hlocked : router.node.progress.locked = true) :
    b.Rested near { router with node := router.node.signalReadiness } ∧
      Resumes router { router with node := router.node.signalReadiness } := by
  have hdue : router.node.progress.locked = false → ∀ {p : Prop}, p := by
    intro hunlocked
    rw [hlocked] at hunlocked
    exact absurd hunlocked (by simp)
  have hsignals := router.node.signals_signalReadiness
  generalize router.node.signalReadiness = node at hsignals ⊢
  cases hsignals with
  | idle hwaits =>
    exact ⟨⟨h, fun _ => hlocked, hwaits h.working hlocked, fun hunlocked => hdue hunlocked⟩,
      .refl router⟩
  | signalled hforming _ hdone =>
    have hcount := h.signals
    rw [if_neg (by simp [hforming])] at hcount
    have hsteady : b.Steady near { router with node := router.node.readied } :=
      { h with
        working := rfl
        ready := fun _ => ⟨hlocked, hdone⟩
        signals := by
          simp only [Journal.readySignals, Node.readied, Journal.notify, List.count_append]
            at hcount ⊢
          simp [hcount] }
    exact ⟨⟨hsteady, fun _ => hlocked, fun _ => rfl, fun hunlocked => hdue hunlocked⟩,
      rfl, rfl, rfl, rfl, rfl, rfl, rfl, rfl⟩

theorem Steady.lockWhenComplete (h : b.Steady near router)
    (hmesh : router.node.progress.expected.meshDone = true) :
    b.Rested near { router with node := router.node.lockWhenComplete wiring.backend } ∧
      Resumes router { router with node := router.node.lockWhenComplete wiring.backend } := by
  rw [Node.lockWhenComplete, if_neg (by simp [h.working, hmesh])]
  split
  · rename_i hlocked
    exact h.signalReadiness hlocked
  · rename_i hlocked
    rw [Bool.not_eq_true] at hlocked
    rw [Node.lock_backend]
    dsimp only
    have hlocks : router.node.locking.journal.locks = 1 := by
      rw [Node.locks_locking, h.locks, hlocked]
      rfl
    have hsteady : b.Steady near { router with node :=
        { router.node.locking with progress := router.node.locking.progress.lock } } :=
      { h with
        nodup := by
          have hrequests := Node.requests_locking router.node
          have hnodup := h.nodup
          rw [← hrequests] at hnodup
          exact hnodup
        asked := by
          intro source channel
          have hrequests := Node.requests_locking router.node
          have hasked := @Steady.asked _ _ _ h source channel
          rw [← hrequests] at hasked
          exact hasked
        locked := fun _ => hmesh
        ready := fun hready => absurd hready (h.phase_ne_ready hlocked)
        locks := hlocks }
    obtain ⟨hrested, hresumes⟩ := hsteady.signalReadiness rfl
    exact ⟨hrested, hresumes.ledger, hresumes.bindings, hresumes.expected, hresumes.profile,
      hresumes.partner, hresumes.hears, hresumes.tells, hresumes.links⟩

/-- A charge before the rules ran, or one of a rule that ran now. -/
theorem Fires.charged_iff {node : Node} {forwarding next : Forwarding} {due : List RelayRequest}
    (h : b.Fires near node forwarding next due) {source far : Rank} :
    b.Charged near next source far ↔ b.Charged near forwarding source far ∨
      ∃ rule, forwarding.ran rule = false ∧ b.Due near node.ledger forwarding rule ∧
        b.Assigned near rule source far := by
  constructor
  · rintro (hown | ⟨rule, hran, hassigned⟩)
    · exact .inl (.inl hown)
    · rcases (h.ran rule).1 hran with hbefore | hdue
      · exact .inl (.inr ⟨rule, hbefore, hassigned⟩)
      · cases hbefore : forwarding.ran rule with
        | true => exact .inl (.inr ⟨rule, hbefore, hassigned⟩)
        | false => exact .inr ⟨rule, hbefore, hdue, hassigned⟩
  · rintro ((hown | ⟨rule, hran, hassigned⟩) | ⟨rule, -, hdue, hassigned⟩)
    · exact .inl hown
    · exact .inr ⟨rule, (h.ran rule).2 (.inl hran), hassigned⟩
    · exact .inr ⟨rule, (h.ran rule).2 (.inr hdue), hassigned⟩

/-- The requests of rules that have not run before were not made before. -/
theorem Steady.not_asked (h : b.Steady near router) (hvalid : b.Valid)
    {next : Forwarding} {due : List RelayRequest}
    (hfires : b.Fires near router.node router.forwarding next due) {request : RelayRequest}
    (hdue : request ∈ due) : request ∉ router.node.journal.requests := by
  obtain ⟨source, channel⟩ := request
  obtain ⟨rule, far, hran, -, hassigned, hbound⟩ := hfires.mem.1 hdue
  intro hasked
  obtain ⟨far', hbound', hcharged⟩ := h.asked.1 hasked
  obtain rfl := Option.some.inj (hbound.symm.trans hbound')
  rcases hcharged with hown | ⟨rule', hran', hassigned'⟩
  · exact hvalid.ne_of_assigned hassigned hown
  · rw [hvalid.rule_eq hassigned hassigned', hran'] at hran
    exact absurd hran (by simp)

/-- What a node knows stays true when rules run that are due. -/
theorem Consistent.asking {node : Node} {forwarding next : Forwarding} {due : List RelayRequest}
    (h : b.Consistent near node forwarding) (hfires : b.Fires near node forwarding next due) :
    b.Consistent near (node.asking due) next :=
  { h with
    profile := hfires.profile.trans h.profile
    partner := by
      intro partner
      rw [hfires.partner]
      exact h.partner
    heard := by
      intro other hheard
      rw [hfires.hears] at hheard
      exact h.heard hheard }

theorem Steady.asking (h : b.Steady near router) (hvalid : b.Valid) {next : Forwarding}
    {due : List RelayRequest} (hfires : b.Fires near router.node router.forwarding next due) :
    b.Steady near ⟨router.node.asking due, next⟩ :=
  { h.toConsistent.asking hfires with
    lost := h.lost
    working := h.working
    nodup := by
      dsimp only
      rw [Node.requests_asking, List.nodup_append]
      refine ⟨h.nodup, hfires.nodup, fun request hmem other hother heq => ?_⟩
      subst heq
      exact h.not_asked hvalid hfires hother hmem
    asked := by
      intro source channel
      dsimp only
      rw [Node.requests_asking, List.mem_append, h.asked, hfires.mem]
      constructor
      · rintro (⟨far, hbound, hcharged⟩ | ⟨rule, far, hran, hdue, hassigned, hbound⟩)
        · exact ⟨far, hbound, hfires.charged_iff.2 (.inl hcharged)⟩
        · exact ⟨far, hbound, hfires.charged_iff.2 (.inr ⟨rule, hran, hdue, hassigned⟩)⟩
      · rintro ⟨far, hbound, hcharged⟩
        rcases hfires.charged_iff.1 hcharged with hcharged | ⟨rule, hran, hdue, hassigned⟩
        · exact .inl ⟨far, hbound, hcharged⟩
        · exact .inr ⟨rule, far, hran, hdue, hassigned, hbound⟩
    ran := by
      intro rule hran
      apply hfires.due_iff.2
      rcases (hfires.ran rule).1 hran with hbefore | hdue
      · exact h.ran hbefore
      · exact hdue
    tells := by
      intro peer
      dsimp only
      rw [hfires.tells, hfires.speaks]
      exact h.tells peer
    receive := h.receive
    transmit := by
      dsimp only
      rw [hfires.limit]
      exact h.transmit
    wanted := by
      intro peer
      dsimp only
      rw [hfires.requestedLinks]
      exact h.wanted peer
    network := by
      dsimp only
      rw [hfires.links]
      exact h.network
    locked := h.locked
    ready := h.ready
    locks := by
      dsimp only
      rw [Node.locks_asking]
      exact h.locks
    signals := h.signals }

/-- The last part of an event brings a node to rest. -/
theorem Steady.proceed (h : b.Steady near router) (hvalid : b.Valid)
    (hwired : ∀ {channel far}, router.node.boundPeer? channel = some far →
      wiring.contains channel = true) :
    b.Rested near (router.proceed wiring.backend) ∧
      Resumes router (router.proceed wiring.backend) := by
  rw [Router.proceed, if_neg (by simp [h.working])]
  split
  · rename_i hmesh
    exact h.lockWhenComplete hmesh
  · rename_i hmesh
    obtain ⟨forwarding, due, hrun, hfires⟩ := hvalid.runRules h.toConsistent hwired
    rw [hrun]
    have hsteady := h.asking hvalid hfires
    refine ⟨⟨hsteady, fun hdone => absurd hdone hmesh, fun hdone => ?_, fun _ hdue => ?_⟩,
      ⟨rfl, rfl, rfl, hfires.profile, hfires.partner, hfires.hears, hfires.tells, hfires.links⟩⟩
    · rw [Expected.allDone, Bool.and_eq_true] at hdone
      exact absurd hdone.1 hmesh
    · exact (hfires.ran _).2 (.inr (hfires.due_iff.1 hdue))

/-- Sending messages changes nothing that a node at rest has to keep. -/
theorem Rested.sending {node : Node} {forwarding : Forwarding}
    (h : b.Rested near ⟨node, forwarding⟩) (outbox : Outbox) :
    b.Rested near ⟨node.sending outbox, forwarding⟩ := by
  have hrequests := Node.requests_sending node outbox
  have hlocks := Node.locks_sending node outbox
  refine ⟨{ h.toSteady with
    nodup := ?_
    asked := ?_
    locks := ?_ }, h.complete, h.signalled, h.due⟩
  · dsimp only
    rw [hrequests]
    exact h.nodup
  · dsimp only
    rw [hrequests]
    exact h.asked
  · dsimp only
    rw [hlocks]
    exact h.locks

end Blueprint

end MeshFormation
