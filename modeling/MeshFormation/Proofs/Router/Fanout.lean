import MeshFormation.Proofs.Router.Forwards
import MeshFormation.Proofs.Router.Proceed

/-!
# When a hypercube node relays its partner

A hypercube node has one rule: it relays its partner to its three chassis mates. The rule is tried
after each completed connection and each forward, as long as the mesh is not complete. Nothing that
makes it due is ever taken back while the node works, so it runs in the first such moment in which
the node exchanges data directly with the partner and with all mates, and no moment is missed.
-/

namespace MeshFormation

namespace Ledger

variable {ledger next : Ledger} {peer : Rank}

theorem Grows.reaches (h : ledger.Grows next) (hreaches : ledger.reaches peer = true) :
    next.reaches peer = true := by
  obtain ⟨route, hroute, hlink⟩ := reaches_iff.1 hreaches
  exact reaches_iff.2 ⟨route, h.route hroute, hlink⟩

theorem Grows.exchangesDirectly (h : ledger.Grows next)
    (hdirect : ledger.exchangesDirectly peer = true) : next.exchangesDirectly peer = true := by
  rw [exchangesDirectly_iff] at hdirect ⊢
  obtain ⟨channel, hchannel⟩ := Option.isSome_iff_exists.1 hdirect.1
  exact ⟨by rw [h.input hchannel]; rfl, h.reaches hdirect.2⟩

end Ledger

/-- Whether an event completes a connection or brings a forward. A router that goes on to work then
locks its backend or tries its rules. -/
def Event.isArrival : Event → Bool
  | .connection _ => true
  | .forward _ _ => true
  | _ => false

namespace Router

variable {router middle next start : Router} {backend : Backend} {event : Event} {outbox : Outbox}
  {result : Except RouterError Outbox} {profile : Profile} {topology : Topology}

/-! ## The moment in which the rule is due -/

/-- A router exchanges data directly with its partner and with all its chassis mates. -/
def Meets (router : Router) : Prop :=
  ∃ partner, router.forwarding.crossPartner? = some partner ∧
    router.node.ledger.exchangesDirectly partner = true ∧
      ∀ mate ∈ router.mates, router.node.ledger.exchangesDirectly mate = true

theorem Meets.mono (h : router.Meets) (htopology : next.node.topology = router.node.topology)
    (hpartner : ∀ {partner}, router.forwarding.crossPartner? = some partner →
      next.forwarding.crossPartner? = some partner)
    (hledger : router.node.ledger.Grows next.node.ledger) : next.Meets := by
  obtain ⟨partner, hknown, hdirect, hmates⟩ := h
  refine ⟨partner, hpartner hknown, hledger.exchangesDirectly hdirect, fun mate hmate => ?_⟩
  rw [mates_congr htopology] at hmate
  exact hledger.exchangesDirectly (hmates mate hmate)

theorem Step.meets_mono (h : router.Step backend event next result) (hmeets : router.Meets) :
    next.Meets := by
  obtain ⟨node, hwrites, hadvances⟩ := h.writes
  exact hmeets.mono h.topology_eq h.partner_mono (hadvances.ledger ▸ hwrites.grows)

/-- The first rule is due as long as it has not run and the router meets its peers. -/
theorem isSome_fanout_iff (router : Router) :
    (router.forwarding.relays? router.node .fanout).isSome = true ↔
      router.forwarding.ran .fanout = false ∧ router.Meets := by
  have hfanout : ∀ partner, (router.node.partnerFanout? partner).isSome = true ↔
      router.node.ledger.exchangesDirectly partner = true ∧
        ∀ mate ∈ router.mates, router.node.ledger.exchangesDirectly mate = true := by
    intro partner
    rw [← List.all_eq_true, ← Bool.and_eq_true, Node.partnerFanout?]
    split
    · rename_i hall
      exact iff_of_true rfl hall
    · rename_i hall
      exact iff_of_false (by simp) hall
  have hmeets : router.Meets ↔
      (router.forwarding.crossPartner?.bind router.node.partnerFanout?).isSome = true := by
    simp only [Meets, ← hfanout]
    cases router.forwarding.crossPartner? <;> simp
  rw [hmeets]
  cases hforwarding : router.forwarding with
  | pair => simp [Forwarding.relays?, Forwarding.crossPartner?]
  | hypercube rules =>
    simp only [Forwarding.relays?, HypercubeForwarding.relays?, HypercubeForwarding.partnerRelays?,
      Forwarding.ran, Forwarding.crossPartner?]
    cases rules.partnerRelayed <;> simp
  | cube rules =>
    simp only [Forwarding.relays?, CubeForwarding.relays?, Forwarding.ran, Forwarding.crossPartner?]
    cases rules.role.partner? <;> cases hran : rules.partnerRelayed <;>
      simp [CubeForwarding.partnerRelays?, hran]

/-- Going on with the rules marks the first one where the router meets its peers. -/
theorem ran_proceed_iff (hworking : router.node.isFailed = false)
    (hopen : router.expected.meshDone = false)
    (hnext : (router.proceed backend).node.isFailed = false) :
    (router.proceed backend).forwarding.ran .fanout = true ↔
      router.forwarding.ran .fanout = true ∨ router.Meets := by
  obtain ⟨made, hmade⟩ := proceed_of_open_of_working hworking hopen hnext
  rw [hmade, Forwarding.ran_fired, Bool.or_eq_true, isSome_fanout_iff]
  cases router.forwarding.ran .fanout <;> simp

theorem meets_proceed_iff (router : Router) (backend : Backend) :
    (router.proceed backend).Meets ↔ router.Meets := by
  have hadvances := advances_proceed router backend
  rw [Meets, Meets, crossPartner?_proceed, hadvances.ledger, mates_congr hadvances.topology]

theorem Step.absorbs_of_arrival (h : router.Step backend event next result)
    (harrival : event.isArrival = true) (hnext : next.node.isFailed = false) :
    ∃ middle outbox, router.Absorbs event middle outbox ∧ next = middle.proceed backend := by
  cases h with
  | unheard | unlinked | repeated | free | live | rejected | unestablished | lost | linked
  | surplusLink | bound => exact absurd harrival (by simp [Event.isArrival])
  | broken | violated | surplus =>
    exact absurd ((Node.isFailed_fail _ _).symm.trans hnext) (by simp)
  | absorbed absorbs => exact ⟨_, _, absorbs, rfl⟩

/-- The rule runs only where the router meets its peers. -/
theorem Step.ran_or_meets (h : router.Step backend event next result)
    (hworking : router.node.isFailed = false) (hnext : next.node.isFailed = false)
    (hran : next.forwarding.ran .fanout = true) :
    router.forwarding.ran .fanout = true ∨ next.Meets := by
  cases h with
  | unheard | unlinked | repeated | free | live | rejected | unestablished | lost | broken
  | violated | surplus => exact .inl hran
  | surplusLink hypercube | linked hypercube =>
    rw [hypercube]
    exact .inl hran
  | bound admits accepted =>
    left
    rw [← (admits.joins accepted).ran]
    exact hran
  | @absorbed _ middle _ absorbs =>
    rw [meets_proceed_iff, ← (absorbs.ran .fanout).1]
    have hmiddle := absorbs.isFailed.trans hworking
    cases hopen : middle.expected.meshDone with
    | true =>
      rw [proceed_of_done hmiddle hopen] at hran
      exact .inl hran
    | false => exact (ran_proceed_iff hmiddle hopen hnext).1 hran

theorem meets_of_ran (h : (create profile topology).2 = .ok start) (events : List Event)
    (hworking : (start.run backend events).node.isFailed = false)
    (hran : (start.run backend events).forwarding.ran .fanout = true) :
    (start.run backend events).Meets := by
  have hinv : (start.run backend events).forwarding.ran .fanout = true →
      (start.run backend events).Meets := by
    apply run_history_of_working
      (fun _ router => router.forwarding.ran .fanout = true → router.Meets) _ _ events hworking
    · intro hstart
      rw [(fresh_create h).ran] at hstart
      exact absurd hstart (by simp)
    · intro before router event hrouter hbefore hnext hran
      have hstep := step_handle backend event hbefore
      exact (hstep.ran_or_meets hbefore hnext hran).elim
        (fun hran => hstep.meets_mono (hrouter hran)) id
  exact hinv hran

/-! ## A moment of the past -/

/-- Some state of the run up to here met its peers. -/
def HasMet (start : Router) (backend : Backend) (events : List Event) : Prop :=
  ∃ past, past <+: events ∧ (start.run backend past).Meets

theorem hasMet_iff (events : List Event) :
    start.HasMet backend events ↔ (start.run backend events).Meets := by
  constructor
  · rintro ⟨past, ⟨rest, rfl⟩, hmeets⟩
    rw [run_append]
    exact run_invariant hmeets (fun hrouter _ hstep => hstep.meets_mono hrouter) rest
  · exact fun hmeets => ⟨events, List.prefix_rfl, hmeets⟩

/-- After a completed connection or a forward that leaves the mesh incomplete, the rule has run if
and only if the router met its peers at some point. -/
theorem ran_iff_hasMet (h : (create profile topology).2 = .ok start) (backend : Backend)
    (events : List Event) (harrival : event.isArrival = true)
    (hnext : (start.run backend (events ++ [event])).node.isFailed = false)
    (hopen : (start.run backend (events ++ [event])).expected.meshDone = false) :
    (start.run backend (events ++ [event])).forwarding.ran .fanout = true ↔
      start.HasMet backend (events ++ [event]) := by
  rw [hasMet_iff]
  constructor
  · exact meets_of_ran h _ hnext
  · intro hmeets
    rw [run_concat] at hnext hopen hmeets ⊢
    have hworking : (start.run backend events).node.isFailed = false := working_of_run [event] hnext
    obtain ⟨middle, outbox, habsorbs, hproceed⟩ :=
      (step_handle backend event hworking).absorbs_of_arrival harrival hnext
    rw [hproceed] at hnext hopen hmeets ⊢
    rw [expected_proceed] at hopen
    rw [meets_proceed_iff] at hmeets
    exact (ran_proceed_iff (habsorbs.isFailed.trans hworking) hopen hnext).2 (.inr hmeets)

/-! ## What is asked for in all -/

/-- A router of a hypercube that has asked for seven transmits at most. -/
structure Modest (router : Router) : Prop extends Frugal router where
  hypercube : router.forwarding.profile = .hypercube
  seven : router.node.journal.transmits.length ≤ 7

/-- The transmits of a hypercube router that works are those of its own data, and those of the
partner if the rule has run. -/
structure Fans (router : Router) : Prop where
  resting : router.forwarding.ran .fanout = false → router.node.journal.transmits.Perm
    (router.node.bindings.keys.map fun channel => (router.rank, channel))
  relaying : router.forwarding.ran .fanout = true → ∃ partner relays,
    router.forwarding.crossPartner? = some partner ∧
      router.mates.mapM (router.node.ledger.relay? partner) = some relays ∧
        router.node.journal.transmits.Perm
          (router.node.bindings.keys.map (fun channel => (router.rank, channel)) ++ relays)

theorem Relays.fans (h : router.Relays) (hprofile : router.forwarding.profile = .hypercube) :
    router.Fans := by
  obtain ⟨partner, fellow, far, asked, h⟩ := h
  have hnever : ∀ rule, rule ≠ .fanout → asked rule = [] := by
    intro rule hrule
    apply h.idle
    obtain ⟨rules, hrules⟩ := Forwarding.exists_eq_hypercube hprofile
    rw [hrules]
    cases rule with
    | fanout => exact absurd rfl hrule
    | uplink | cross => rfl
  have htransmits := h.transmits
  rw [hnever .uplink (by simp), hnever .cross (by simp), List.append_nil,
    List.append_nil] at htransmits
  constructor
  case resting =>
    intro hran
    rwa [h.idle hran, List.append_nil] at htransmits
  case relaying =>
    intro hran
    exact ⟨partner, asked .fanout, h.chosen hran, h.fanout hran, htransmits⟩

theorem Fans.length_eq (h : router.Fans) (hmates : router.mates.length = 3) :
    router.node.journal.transmits.length =
      router.node.bindings.size + if router.forwarding.ran .fanout then 3 else 0 := by
  cases hran : router.forwarding.ran .fanout with
  | false => simpa using (h.resting hran).length_eq
  | true =>
    obtain ⟨partner, relays, -, hrelays, htransmits⟩ := h.relaying hran
    have hlength := length_of_mapM hrelays
    have htotal := htransmits.length_eq
    simp only [List.length_append, List.length_map, Table.length_keys] at htotal
    rw [if_pos rfl]
    omega

theorem length_transmits_proceed (router : Router) (backend : Backend) :
    (router.proceed backend).node.journal.transmits.length ≤
      router.node.journal.transmits.length + (router.forwarding.due router.node).length := by
  unfold proceed
  split
  · exact Nat.le_add_right _ _
  split
  · have hasks : router.node.Asks (·.isEstablish = false) (router.node.lockWhenComplete backend) :=
      (router.node.locks_lockWhenComplete backend).asks rfl
    dsimp only
    rw [hasks.transmits]
    exact Nat.le_add_right _ _
  · obtain ⟨tried, hprefix, htried, -⟩ :=
      router.node.exists_transmits_establishAll backend (router.forwarding.due router.node)
    have hlength := hprefix.length_le
    dsimp only
    rw [(router.forwarding.makes_runRules router.node backend).last, htried, List.length_append]
    omega

/-- A new channel makes a router ask for one transmit. -/
theorem Admits.length_transmits {known : ChannelEvent} {node : Node} {accepted : Bool}
    (h : router.Admits known)
    (hestablish : (router.node.bind known.channel known.peer).establish backend router.node.rank
      known.channel = (node, accepted)) :
    node.journal.transmits.length = router.node.journal.transmits.length + 1 ∧
      node.bindings.size = router.node.bindings.size + 1 := by
  have hadvances := Node.advances_of_establish hestablish
  have htransmits := Node.transmits_of_establish hestablish
  constructor
  · rw [htransmits, List.length_append]
    rfl
  · rw [hadvances.bindings, ← Table.length_keys, ← Table.length_keys]
    exact (Table.perm_keys_insert (Node.of_screening_fresh h.fresh).2.1 known.peer).length_eq

/-- An event makes a router ask for no transmit, for that of its own data on a channel that it
binds, or for some of those that are due. -/
theorem Step.length_transmits (h : router.Step backend event next result) :
    next.node.journal.transmits.length = router.node.journal.transmits.length ∨
      (next.node.journal.transmits.length = router.node.journal.transmits.length + 1 ∧
        next.node.bindings.size = router.node.bindings.size + 1) ∨
      ∃ middle outbox, router.Absorbs event middle outbox ∧
        next.node.journal.transmits.length ≤
          middle.node.journal.transmits.length + (middle.forwarding.due middle.node).length := by
  cases h with
  | unheard | unlinked | repeated | free | live => exact .inl rfl
  | rejected => exact .inl (congrArg List.length (Node.transmits_refuseChannel _ _ _))
  | unestablished admits refused => exact .inr (.inl (admits.length_transmits refused))
  | @bound known node admits accepted =>
    have hjoins := admits.joins accepted
    obtain ⟨htransmits, hsize⟩ := admits.length_transmits accepted
    refine .inr (.inl ⟨?_, ?_⟩)
    · rw [hjoins.transmits, htransmits]
    · rw [hjoins.advances.bindings, hsize]
  | lost | broken | violated | surplus | surplusLink =>
    exact .inl (congrArg List.length (Node.transmits_fail _ _))
  | @linked changed rules progress =>
    have hasks : Node.Asks (·.isEstablish = false) { router.node with progress } _ :=
      (Node.signals_signalReadiness { router.node with progress }).asks
    exact .inl (congrArg List.length hasks.transmits)
  | @absorbed event middle outbox absorbs =>
    exact .inr (.inr ⟨middle, outbox, absorbs, length_transmits_proceed middle backend⟩)

/-- The first rule of a router with three chassis mates asks for three transmits, once. -/
theorem length_due_le (hprofile : router.forwarding.profile = .hypercube)
    (hmates : router.mates.length = 3) :
    (router.forwarding.due router.node).length ≤
      if router.forwarding.ran .fanout then 0 else 3 := by
  have hdue : router.forwarding.due router.node =
      (router.forwarding.relays? router.node .fanout).getD [] := by
    obtain ⟨rules, hrules⟩ := Forwarding.exists_eq_hypercube hprofile
    simp [hrules, Forwarding.due, Forwarding.relays?, HypercubeForwarding.relays?]
  rw [hdue]
  cases hfanout : router.forwarding.relays? router.node .fanout with
  | none => exact Nat.zero_le _
  | some requests =>
    obtain ⟨hran, partner, -, hrequests⟩ := Forwarding.of_fanout_due hfanout
    rw [hran, Option.getD_some, length_of_mapM hrequests]
    exact hmates.le

theorem Step.modest (hrouter : router.Modest) (hworking : router.node.isFailed = false)
    (h : router.Step backend event next result) : next.Modest := by
  have hnext := h.frugal hrouter.toFrugal hworking
  have hsize := hrouter.attached.apart.size_le hrouter.profile hrouter.mates
  have hnextSize := hnext.attached.apart.size_le hnext.profile hnext.mates
  have hlength := ((hrouter.relays hworking).fans hrouter.hypercube).length_eq hrouter.mates
  have hseven := hrouter.seven
  refine ⟨hnext, h.profile_eq.trans hrouter.hypercube, ?_⟩
  rcases h.length_transmits with hsame | ⟨hmore, hbound⟩ | ⟨middle, outbox, habsorbs, hmore⟩
  · omega
  · split at hlength <;> omega
  · -- Either the rule has run, or only the transmits of the own data have been asked for.
    have hdue := length_due_le (habsorbs.keepsLinks.profile.trans hrouter.hypercube)
      ((mates_congr habsorbs.topology).symm ▸ hrouter.mates)
    rw [(habsorbs.ran .fanout).1] at hdue
    rw [habsorbs.journal] at hmore
    cases hran : router.forwarding.ran .fanout with
    | true =>
      rw [hran, if_pos rfl] at hdue
      omega
    | false =>
      rw [hran, if_neg (by simp)] at hdue hlength
      omega

theorem modest_run {members : List Member} {localRank : Rank} {request : ProfileRequest}
    (htopology : Topology.ofMembers members localRank request = .ok topology)
    (h : (create .hypercube topology).2 = .ok start) (backend : Backend) (events : List Event) :
    (start.run backend events).Modest := by
  apply run_invariant _ fun hrouter hworking hstep => hstep.modest hrouter hworking
  constructor
  case toFrugal => exact frugal_run htopology h (by simp) backend []
  case hypercube => exact profile_run h backend []
  case seven =>
    obtain ⟨-, hosts, hnode⟩ := create_eq_ok h
    rw [hnode]
    exact Nat.zero_le _

/-- What a hypercube router asks its backend to transmit in a run, and when the rule that relays its
partner has run. -/
structure RelaysPartner (start : Router) (backend : Backend) (topology : Topology)
    (events : List Event) : Prop where
  fans : (start.run backend events).phase ≠ .failed → (start.run backend events).Fans
  mates : (start.run backend events).mates.length = 3
  most : (start.run backend events).node.journal.transmits.length ≤ topology.transmitCount
  seven : topology.transmitCount = 7
  prompt : ∀ event, event.isArrival = true →
    (start.run backend (events ++ [event])).phase ≠ .failed →
      (start.run backend (events ++ [event])).expected.meshDone = false →
        ((start.run backend (events ++ [event])).forwarding.ran .fanout = true ↔
          start.HasMet backend (events ++ [event]))

/-- Every run of a hypercube router asks for the transmits of its own data and of its partner, and
for the latter at the first moment at which it may. -/
theorem relaysPartner_run {members : List Member} {localRank : Rank} {request : ProfileRequest}
    (htopology : Topology.ofMembers members localRank request = .ok topology)
    (h : (create .hypercube topology).2 = .ok start) (backend : Backend) (events : List Event) :
    start.RelaysPartner backend topology events := by
  have hmodest := modest_run htopology h backend events
  have hseven : topology.transmitCount = 7 := by
    rw [Topology.transmitCount, profile_of_create h]
    rfl
  constructor
  case fans =>
    intro hphase
    exact (hmodest.relays (working_of_phase hphase)).fans hmodest.hypercube
  case mates => exact hmodest.mates
  case most =>
    rw [hseven]
    exact hmodest.seven
  case seven => exact hseven
  case prompt =>
    intro event harrival hphase
    exact ran_iff_hasMet h backend events harrival (working_of_phase hphase)

/-- The node that has exchanged data with its partner and with all its mates asks for seven
transmits. -/
theorem relaysPartner_run_eight : ∃ topology start,
    Topology.ofMembers (Layout.members 8) 0 (.exact .hypercube) = .ok topology ∧
      (create .hypercube topology).2 = .ok start ∧
        (start.run .accepting outerOpening).node.journal.transmits =
          [(0, 1), (0, 2), (0, 3), (0, 9)] ∧
        (start.run .accepting outerExchange).node.journal.transmits =
          [(0, 1), (0, 2), (0, 3), (0, 9), (4, 1), (4, 2), (4, 3)] ∧
        start.RelaysPartner .accepting topology outerExchange ∧
        start.HasMet .accepting (outerExchange ++ [.connection ⟨.rx, 1, 5, true⟩]) := by
  obtain ⟨topology, start, hvalid, hcreate, hopening, hexchange, hworking, hopen, hran⟩ :
      ∃ topology start,
        Topology.ofMembers (Layout.members 8) 0 (.exact .hypercube) = .ok topology ∧
          (create .hypercube topology).2 = .ok start ∧
            (start.run .accepting outerOpening).node.journal.transmits =
              [(0, 1), (0, 2), (0, 3), (0, 9)] ∧
            (start.run .accepting outerExchange).node.journal.transmits =
              [(0, 1), (0, 2), (0, 3), (0, 9), (4, 1), (4, 2), (4, 3)] ∧
            (start.run .accepting (outerExchange ++ [.connection ⟨.rx, 1, 5, true⟩])).phase ≠
              .failed ∧
            (start.run .accepting
              (outerExchange ++ [.connection ⟨.rx, 1, 5, true⟩])).expected.meshDone = false ∧
            (start.run .accepting (outerExchange ++ [.connection ⟨.rx, 1, 5, true⟩])).forwarding.ran
              .fanout = true := exists_created (by decide +kernel)
  have hrelays := relaysPartner_run hvalid hcreate .accepting outerExchange
  exact ⟨topology, start, hvalid, hcreate, hopening, hexchange, hrelays,
    (hrelays.prompt _ rfl hworking hopen).1 hran⟩

end Router

end MeshFormation
