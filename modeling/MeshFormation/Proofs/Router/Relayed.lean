import MeshFormation.Layout
import MeshFormation.Proofs.Forwarding.Due
import MeshFormation.Proofs.Node.Transmits
import MeshFormation.Proofs.Router.Attachment
import MeshFormation.Proofs.Router.Readiness

/-!
# What a router asks for in all

A working router has asked to transmit its own data on each bound channel once, and the data of
others as its rules say, each rule at most once. The requests of a rule stay what they were when it
ran, because the inputs that they are made of stay, and the fellow by which inner mates are told
from outer ones stays as well: a rule runs only while a single mate has announced itself.
-/

namespace MeshFormation

namespace Table

variable {α : Type} {table : Table α} {key : UInt32}

theorem perm_keys_insert (h : table.get? key = none) (value : α) :
    (table.insert key value).keys.Perm (key :: table.keys) := by
  have hnot : key ∉ table.keys := by
    rw [mem_keys_iff, contains_eq_isSome, h]
    exact Bool.false_ne_true
  have hnodup : ∀ table : Table α, table.keys.Nodup :=
    fun table => (pairwise_keys table).imp UInt32.ne_of_lt
  rw [List.perm_ext_iff_of_nodup (hnodup _) (List.nodup_cons.2 ⟨hnot, hnodup _⟩)]
  intro other
  rw [List.mem_cons, mem_keys_iff, mem_keys_iff, contains_eq_isSome,
    contains_eq_isSome, get?_insert]
  by_cases hother : other = key <;> simp [hother]

end Table

theorem Forwarding.Joins.transmits {forwarding after : Forwarding} {node last : Node}
    {known : ChannelEvent} (h : forwarding.Joins node known after last) :
    last.journal.transmits = node.journal.transmits := by
  cases h <;> rfl

theorem Forwarding.Fresh.ran {forwarding : Forwarding} {topology : Topology}
    (h : forwarding.Fresh topology) (rule : RelayRule) : forwarding.ran rule = false := by
  cases h <;> cases rule <;> rfl

namespace Router

variable {router middle next start : Router} {backend : Backend} {event : Event} {outbox : Outbox}
  {result : Except RouterError Outbox} {profile : Profile} {topology : Topology}
  {partner fellow far : Rank} {asked : RelayRule → List RelayRequest}

/-- The chassis mates of a router. -/
def mates (router : Router) : List Rank := router.node.topology.chassisMates router.rank

theorem rank_congr (h : next.node.topology = router.node.topology) : next.rank = router.rank :=
  congrArg Topology.localRank h

theorem mates_congr (h : next.node.topology = router.node.topology) :
    next.mates = router.mates := by
  rw [mates, mates, h, rank_congr h]

/-- The transmits of a router are those of its own data, one for each bound channel, and those that
its rules asked for. The first rule sends the data of the partner to all mates, the second one the
data of the inner mates to the partner, and the third one the data of a node behind the partner to
the inner mates. -/
structure Relayed (router : Router) (partner fellow far : Rank)
    (asked : RelayRule → List RelayRequest) : Prop where
  transmits : router.node.journal.transmits.Perm
    (router.node.bindings.keys.map (fun channel => (router.rank, channel)) ++
      (asked .fanout ++ asked .uplink ++ asked .cross))
  idle : ∀ {rule}, router.forwarding.ran rule = false → asked rule = []
  chosen : ∀ {rule}, router.forwarding.ran rule = true →
    router.forwarding.crossPartner? = some partner
  fanout : router.forwarding.ran .fanout = true →
    router.mates.mapM (router.node.ledger.relay? partner) = some (asked .fanout)
  announced : router.forwarding.ran .uplink = true →
    fellow ∈ router.mates ∧ router.forwarding.hears fellow = true
  uplink : router.forwarding.ran .uplink = true →
    (innerNodes router.mates fellow).mapM (fun peer => router.node.ledger.relay? peer partner) =
      some (asked .uplink)
  cross : router.forwarding.ran .cross = true →
    (innerNodes router.mates fellow).mapM (router.node.ledger.relay? far) = some (asked .cross)
  behind : router.forwarding.ran .cross = true → router.forwarding.ran .uplink = true ∧
    far ≠ partner ∧ ∃ uplink, router.node.ledger.input? partner = some uplink ∧
      router.node.ledger.input? far = some uplink

def Relays (router : Router) : Prop :=
  ∃ partner fellow far asked, router.Relayed partner fellow far asked

/-- What was asked for stays so while the rules rest, and each channel that is bound adds a
transmit. -/
theorem Relayed.grow (h : router.Relayed partner fellow far asked) (fresh : List Channel)
    (htransmits : next.node.journal.transmits =
      router.node.journal.transmits ++ fresh.map fun channel => (router.rank, channel))
    (hbindings : next.node.bindings.keys.Perm (fresh ++ router.node.bindings.keys))
    (htopology : next.node.topology = router.node.topology)
    (hledger : router.node.ledger.Grows next.node.ledger)
    (hpartner : router.forwarding.crossPartner? = some partner →
      next.forwarding.crossPartner? = some partner)
    (hran : ∀ rule, next.forwarding.ran rule = router.forwarding.ran rule)
    (hhears : ∀ {rank}, router.forwarding.hears rank = true → next.forwarding.hears rank = true) :
    next.Relayed partner fellow far asked := by
  have hrank := rank_congr htopology
  have hmates := mates_congr htopology
  have hrelay : ∀ {source peer request}, router.node.ledger.relay? source peer = some request →
      next.node.ledger.relay? source peer = some request :=
    Ledger.relay?_mono hledger.input
  constructor
  case transmits =>
    rw [List.perm_iff_count]
    intro request
    have hold := List.perm_iff_count.1 h.transmits request
    have hown : (next.node.bindings.keys.map fun channel => (router.rank, channel)).count request =
        (fresh.map fun channel => (router.rank, channel)).count request +
          (router.node.bindings.keys.map fun channel => (router.rank, channel)).count request := by
      rw [← List.count_append, ← List.map_append]
      exact List.perm_iff_count.1 (hbindings.map _) request
    rw [htransmits, hrank]
    simp only [List.count_append] at hold ⊢
    omega
  case idle =>
    intro rule hrule
    exact h.idle ((hran rule).symm.trans hrule)
  case chosen =>
    intro rule hrule
    exact hpartner (h.chosen ((hran rule).symm.trans hrule))
  case fanout =>
    intro hrule
    rw [hmates]
    exact mapM_mono (fun _ => hrelay) (h.fanout ((hran _).symm.trans hrule))
  case announced =>
    intro hrule
    obtain ⟨hmate, hheard⟩ := h.announced ((hran _).symm.trans hrule)
    exact ⟨hmates ▸ hmate, hhears hheard⟩
  case uplink =>
    intro hrule
    rw [hmates]
    exact mapM_mono (fun _ => hrelay) (h.uplink ((hran _).symm.trans hrule))
  case cross =>
    intro hrule
    rw [hmates]
    exact mapM_mono (fun _ => hrelay) (h.cross ((hran _).symm.trans hrule))
  case behind =>
    intro hrule
    obtain ⟨huplink, hne, channel, hpeer, hfar⟩ := h.behind ((hran _).symm.trans hrule)
    exact ⟨(hran _).trans huplink, hne, channel, hledger.input hpeer, hledger.input hfar⟩

/-- The fellow by which the second rule went is the one by which a rule would go now. -/
theorem Relayed.exists_fellow (h : router.Relayed partner fellow far asked) :
    ∃ fellow', (router.forwarding.ran .uplink = true → fellow' = fellow) ∧
      ∀ known, router.forwarding.fellow? router.node = some known → known = fellow' := by
  cases hran : router.forwarding.ran .uplink with
  | true =>
    refine ⟨fellow, fun _ => rfl, fun known hknown => ?_⟩
    obtain ⟨hmate, hheard⟩ := h.announced hran
    exact ((Forwarding.of_fellow?_eq_some hknown).2 fellow hmate hheard).symm
  | false =>
    cases hfellow : router.forwarding.fellow? router.node with
    | none => exact ⟨fellow, by simp, by simp⟩
    | some known => exact ⟨known, by simp, by simp⟩

/-- The partner whose data was relayed is the one that the rules know now. -/
theorem Relayed.exists_partner (h : router.Relayed partner fellow far asked) :
    ∃ partner', (∀ rule, router.forwarding.ran rule = true → partner' = partner) ∧
      ∀ known, router.forwarding.crossPartner? = some known → known = partner' := by
  cases hknown : router.forwarding.crossPartner? with
  | none => exact ⟨partner, fun _ _ => rfl, by simp⟩
  | some known =>
    refine ⟨known, fun rule hrule => ?_, by simp⟩
    exact Option.some.inj (hknown.symm.trans (h.chosen hrule))

/-- The third rule goes by one source, whether it has run or is due. -/
theorem exists_far (router : Router) (far : Rank) :
    ∃ far', (router.forwarding.ran .cross = true → far' = far) ∧
      ∀ requests, router.forwarding.relays? router.node .cross = some requests →
        ∃ partner fellow, router.forwarding.crossPartner? = some partner ∧
          router.forwarding.fellow? router.node = some fellow ∧
            (innerNodes router.mates fellow).mapM (router.node.ledger.relay? far') = some requests ∧
              far' ≠ partner ∧ ∃ uplink, router.node.ledger.input? partner = some uplink ∧
                router.node.ledger.input? far' = some uplink := by
  cases hdue : router.forwarding.relays? router.node .cross with
  | none => exact ⟨far, fun _ => rfl, by simp⟩
  | some requests =>
    obtain ⟨hran, -, partner, fellow, far', hpartner, hfellow, hrequests, hfar⟩ :=
      Forwarding.of_cross_due hdue
    refine ⟨far', fun hcross => absurd (hran.symm.trans hcross) (by simp), ?_⟩
    rintro _ ⟨⟩
    exact ⟨partner, fellow, hpartner, hfellow, hrequests, hfar⟩

/-- What the rules have asked for once those that are due have run as well. -/
def accrued (router : Router) (asked : RelayRule → List RelayRequest) (rule : RelayRule) :
    List RelayRequest :=
  asked rule ++ (router.forwarding.relays? router.node rule).getD []

/-- A rule that ran before asks for nothing more. -/
theorem accrued_of_ran {rule : RelayRule} (h : router.forwarding.ran rule = true) :
    router.accrued asked rule = asked rule := by
  cases hdue : router.forwarding.relays? router.node rule with
  | none => simp [accrued, hdue]
  | some requests => exact absurd ((Forwarding.of_due hdue).1.symm.trans h) (by simp)

/-- A rule that is due has asked for nothing yet. -/
theorem Relayed.accrued_of_due {rule : RelayRule} {requests : List RelayRequest}
    (h : router.Relayed partner fellow far asked)
    (hdue : router.forwarding.relays? router.node rule = some requests) :
    router.accrued asked rule = requests := by
  rw [accrued, h.idle (Forwarding.of_due hdue).1, hdue]
  rfl

/-- A rule that has run once the due ones are marked ran before or is due. -/
theorem ran_or_due {rule : RelayRule}
    (hforwarding : next.forwarding = router.forwarding.fired router.node)
    (hrule : next.forwarding.ran rule = true) : router.forwarding.ran rule = true ∨
      ∃ requests, router.forwarding.relays? router.node rule = some requests := by
  rw [hforwarding, Forwarding.ran_fired, Bool.or_eq_true] at hrule
  exact hrule.imp_right Option.isSome_iff_exists.1

/-- The rules that are due ask for what they are to ask for. -/
theorem Relays.fire (h : router.Relays)
    (htransmits : next.node.journal.transmits =
      router.node.journal.transmits ++ router.forwarding.due router.node)
    (hadvances : router.node.Advances next.node)
    (hforwarding : next.forwarding = router.forwarding.fired router.node) : next.Relays := by
  obtain ⟨partner, fellow, far, asked, h⟩ := h
  have hrank := rank_congr hadvances.topology
  have hmates := mates_congr hadvances.topology
  have hpartner : next.forwarding.crossPartner? = router.forwarding.crossPartner? := by
    rw [hforwarding, Forwarding.fired, Forwarding.crossPartner?_marked]
  have hhears : next.forwarding.hears = router.forwarding.hears := by
    rw [hforwarding, Forwarding.fired, Forwarding.hears_marked]
  have hran : ∀ rule, next.forwarding.ran rule =
      (router.forwarding.ran rule || (router.forwarding.relays? router.node rule).isSome) := by
    intro rule
    rw [hforwarding, Forwarding.ran_fired]
  obtain ⟨partner', hsame, hchosen⟩ := h.exists_partner
  obtain ⟨fellow', hkept, hfellow⟩ := h.exists_fellow
  obtain ⟨far', hfar, hcross⟩ := router.exists_far far
  refine ⟨partner', fellow', far', router.accrued asked, ?_⟩
  constructor
  case transmits =>
    rw [List.perm_iff_count]
    intro request
    have hold := List.perm_iff_count.1 h.transmits request
    rw [htransmits, hrank, hadvances.bindings, Forwarding.due]
    simp only [accrued, List.count_append] at hold ⊢
    omega
  case idle =>
    intro rule hrule
    rw [hran, Bool.or_eq_false_iff] at hrule
    rw [accrued, h.idle hrule.1, Option.not_isSome_iff_eq_none.1 (Bool.eq_false_iff.1 hrule.2)]
    rfl
  case chosen =>
    intro rule hrule
    rw [hpartner]
    rcases ran_or_due hforwarding hrule with hold | ⟨requests, hdue⟩
    · rw [hsame rule hold, h.chosen hold]
    · obtain ⟨known, hknown⟩ := Option.isSome_iff_exists.1 (Forwarding.of_due hdue).2
      rw [hknown, hchosen known hknown]
  case fanout =>
    intro hrule
    rw [hmates, hadvances.ledger]
    rcases ran_or_due hforwarding hrule with hold | ⟨requests, hdue⟩
    · rw [accrued_of_ran hold, hsame _ hold]
      exact h.fanout hold
    · obtain ⟨-, known, hknown, hrequests⟩ := Forwarding.of_fanout_due hdue
      rw [h.accrued_of_due hdue, ← hchosen known hknown]
      exact hrequests
  case announced =>
    intro hrule
    rw [hmates, hhears]
    rcases ran_or_due hforwarding hrule with hold | ⟨requests, hdue⟩
    · rw [hkept hold]
      exact h.announced hold
    · obtain ⟨-, -, known, -, hknown, -⟩ := Forwarding.of_uplink_due hdue
      rw [← hfellow known hknown]
      exact (Forwarding.of_fellow?_eq_some hknown).1
  case uplink =>
    intro hrule
    rw [hmates, hadvances.ledger]
    rcases ran_or_due hforwarding hrule with hold | ⟨requests, hdue⟩
    · rw [accrued_of_ran hold, hsame _ hold, hkept hold]
      exact h.uplink hold
    · obtain ⟨-, chosen, known, hpeer, hknown, hrequests⟩ := Forwarding.of_uplink_due hdue
      rw [h.accrued_of_due hdue, ← hchosen chosen hpeer, ← hfellow known hknown]
      exact hrequests
  case cross =>
    intro hrule
    rw [hmates, hadvances.ledger]
    rcases ran_or_due hforwarding hrule with hold | ⟨requests, hdue⟩
    · rw [accrued_of_ran hold, hfar hold, hkept (h.behind hold).1]
      exact h.cross hold
    · obtain ⟨chosen, known, hpeer, hknown, hrequests, -⟩ := hcross requests hdue
      rw [h.accrued_of_due hdue, ← hfellow known hknown]
      exact hrequests
  case behind =>
    intro hrule
    rw [hran, hadvances.ledger, Bool.or_eq_true]
    rcases ran_or_due hforwarding hrule with hold | ⟨requests, hdue⟩
    · obtain ⟨huplink, hrest⟩ := h.behind hold
      rw [hfar hold, hsame _ hold]
      exact ⟨.inl huplink, hrest⟩
    · obtain ⟨chosen, known, hpeer, hknown, -, hrest⟩ := hcross requests hdue
      rw [← hchosen chosen hpeer]
      exact ⟨(Forwarding.of_cross_due hdue).2.1, hrest⟩

/-! ## One event -/

theorem Relays.rest (h : router.Relays)
    (htransmits : next.node.journal.transmits = router.node.journal.transmits)
    (hbindings : next.node.bindings = router.node.bindings)
    (htopology : next.node.topology = router.node.topology)
    (hledger : router.node.ledger.Grows next.node.ledger)
    (hpartner : ∀ {partner}, router.forwarding.crossPartner? = some partner →
      next.forwarding.crossPartner? = some partner)
    (hran : ∀ rule, next.forwarding.ran rule = router.forwarding.ran rule)
    (hhears : ∀ {rank}, router.forwarding.hears rank = true → next.forwarding.hears rank = true) :
    next.Relays := by
  obtain ⟨partner, fellow, far, asked, h⟩ := h
  refine ⟨partner, fellow, far, asked, h.grow [] ?_ ?_ htopology hledger hpartner hran hhears⟩
  · rw [htransmits]
    exact (List.append_nil _).symm
  · rw [hbindings]
    exact .refl _

/-- Calls that are no transmits leave the requests as they are. -/
theorem Relays.advance {node : Node} (h : router.Relays) (hadvances : router.node.Advances node)
    (htransmits : node.journal.transmits = router.node.journal.transmits) :
    Relays ⟨node, router.forwarding⟩ := by
  refine h.rest htransmits hadvances.bindings hadvances.topology ?_ id (fun _ => rfl) id
  rw [hadvances.ledger]
  exact .refl _

/-- A channel that is bound adds the transmit of the router's own data, accepted or not. -/
theorem Relays.bind {known : ChannelEvent} {node : Node} (h : router.Relays)
    (hfresh : router.node.screening known = .fresh) {accepted : Bool}
    (hestablish : (router.node.bind known.channel known.peer).establish backend router.node.rank
      known.channel = (node, accepted)) : Relays ⟨node, router.forwarding⟩ := by
  obtain ⟨partner, fellow, far, asked, h⟩ := h
  have hadvances := Node.advances_of_establish hestablish
  have htransmits := Node.transmits_of_establish hestablish
  have hunused := (Node.of_screening_fresh hfresh).2.1
  refine ⟨partner, fellow, far, asked, h.grow [known.channel] htransmits ?_ hadvances.topology ?_ id
    (fun _ => rfl) id⟩
  · rw [hadvances.bindings]
    exact Table.perm_keys_insert hunused known.peer
  · rw [hadvances.ledger]
    exact Ledger.grows_track _ _

/-- What a channel makes of the rules leaves them as they are, but for the partner. -/
theorem Relays.join {forwarding after : Forwarding} {node last : Node} {known : ChannelEvent}
    (h : Relays ⟨node, forwarding⟩) (hjoins : forwarding.Joins node known after last) :
    Relays ⟨last, after⟩ := by
  have hadvances := hjoins.advances
  refine h.rest hjoins.transmits hadvances.bindings hadvances.topology ?_ ?_ hjoins.ran ?_
  · rw [hadvances.ledger]
    exact .refl _
  · intro partner hpartner
    rcases hjoins.partner with ⟨hsame, -⟩ | ⟨hunset, -⟩
    · exact hsame.trans hpartner
    · exact absurd (hunset.symm.trans hpartner) (by simp)
  · intro rank hheard
    exact (congrFun hjoins.hears rank).trans hheard

theorem Absorbs.relays (h : router.Absorbs event middle outbox) (hrouter : router.Relays) :
    middle.Relays := by
  apply hrouter.rest
  · exact congrArg Journal.transmits h.journal
  · exact h.bindings
  · exact h.topology
  · exact h.writes.grows
  · exact h.keepsLinks.partner.trans
  · exact fun rule => (h.ran rule).1
  · exact (h.ran .fanout).2

/-- Routers that know the same of their channels, of their connections and of the partner. -/
structure Alike (router next : Router) : Prop where
  topology : next.node.topology = router.node.topology
  ledger : next.node.ledger = router.node.ledger
  bindings : next.node.bindings = router.node.bindings
  partner : next.forwarding.crossPartner? = router.forwarding.crossPartner?

theorem Alike.refl (router : Router) : router.Alike router := ⟨rfl, rfl, rfl, rfl⟩

/-- A router that has asked for the first ones of the transmits of a full router, which relays by
its rules. While the router works, it relays by its rules itself. -/
structure AsksWithin (next full : Router) : Prop where
  relays : full.Relays
  transmits : next.node.journal.transmits <+: full.node.journal.transmits
  working : next.node.isFailed = false → next.Relays

theorem AsksWithin.of_relays (h : next.Relays) : next.AsksWithin next :=
  ⟨h, List.prefix_rfl, fun _ => h⟩

/-- An event that fails a router and makes it ask for nothing. -/
theorem AsksWithin.of_failed (h : router.Relays)
    (htransmits : next.node.journal.transmits = router.node.journal.transmits)
    (hfailed : next.node.isFailed = true) : next.AsksWithin router := by
  constructor
  case relays => exact h
  case transmits => exact htransmits ▸ List.prefix_rfl
  case working => exact fun hworking => absurd (hfailed.symm.trans hworking) (by simp)

/-- A router that runs its rules gets to the first ones of the requests that are due. -/
theorem Relays.exists_within_runRules (h : router.Relays) (backend : Backend)
    (hnext : next = ⟨(router.forwarding.runRules router.node backend).2,
      (router.forwarding.runRules router.node backend).1⟩) :
    ∃ full, next.AsksWithin full ∧ next.Alike full := by
  subst hnext
  obtain ⟨hlast, hfinal⟩ := router.forwarding.makes_runRules router.node backend
  obtain ⟨tried, hprefix, htried, hall⟩ :=
    router.node.exists_transmits_establishAll backend (router.forwarding.due router.node)
  have hadvances := router.node.advances_establishAll backend (router.forwarding.due router.node)
  have hcalls := router.node.calls_establishAll backend (router.forwarding.due router.node)
  rw [← hlast] at htried hadvances
  refine ⟨⟨router.node.asking (router.forwarding.due router.node),
    router.forwarding.fired router.node⟩, ?_,
    hadvances.topology.symm, hadvances.ledger.symm, hadvances.bindings.symm, ?_⟩
  · constructor
    case relays => exact h.fire (Node.transmits_asking _ _) (Node.advances_asking _ _) rfl
    case transmits =>
      rw [htried, Node.transmits_asking]
      exact (List.prefix_append_right_inj _).2 hprefix
    case working =>
      intro hworking
      rw [hlast] at hworking
      have haccepted := Node.Calls.accepted_of_working hcalls hworking
      apply h.fire
      · rw [htried, hall haccepted]
      · exact hadvances
      · exact hfinal haccepted
  · rw [Forwarding.fired, Forwarding.crossPartner?_marked, Forwarding.runRules_eq_marked,
      Forwarding.crossPartner?_marked]

theorem Relays.exists_within_proceed (h : router.Relays) (backend : Backend)
    (hworking : router.node.isFailed = false) :
    ∃ full, (router.proceed backend).AsksWithin full ∧ (router.proceed backend).Alike full := by
  unfold proceed
  rw [if_neg (by simp [hworking])]
  split
  · have hadvances := router.node.advances_lockWhenComplete backend
    have hasks : router.node.Asks (·.isEstablish = false) (router.node.lockWhenComplete backend) :=
      (router.node.locks_lockWhenComplete backend).asks rfl
    exact ⟨_, .of_relays (h.advance hadvances hasks.transmits), .refl _⟩
  · exact h.exists_within_runRules backend rfl

theorem Absorbs.isFailed (h : router.Absorbs event middle outbox) :
    middle.node.isFailed = router.node.isFailed := by
  rw [Node.isFailed, Node.isFailed, Progress.isFailed, Progress.isFailed]
  exact congrArg (· == Phase.failed) h.phase

/-- The full router knows what this one knows now, or what it knew before an event that failed
it. -/
theorem Step.exists_within (h : router.Step backend event next result) (hrouter : router.Relays)
    (hworking : router.node.isFailed = false) :
    ∃ full, next.AsksWithin full ∧ (router.Alike full ∨ next.Alike full) := by
  cases h with
  | unheard | unlinked | repeated | free | live => exact ⟨_, .of_relays hrouter, .inl (.refl _)⟩
  | @rejected known =>
    have htransmits := router.node.transmits_refuseChannel backend known.channel
    have hadvances : router.node.Advances (router.node.refuseChannel backend known.channel) :=
      router.node.advances_request backend rfl
    exact ⟨_, .of_relays (hrouter.advance hadvances htransmits), .inr (.refl _)⟩
  | unestablished admits refused =>
    exact ⟨_, .of_relays (hrouter.bind admits.fresh refused), .inr (.refl _)⟩
  | bound admits accepted =>
    exact ⟨_, .of_relays ((hrouter.bind admits.fresh accepted).join (admits.joins accepted)),
      .inr (.refl _)⟩
  | lost | broken | violated | surplus | surplusLink =>
    exact ⟨_, .of_failed hrouter (Node.transmits_fail _ _) (Node.isFailed_fail _ _), .inl (.refl _)⟩
  | @linked changed rules progress hypercube =>
    have hadvances := Node.advances_signalReadiness { router.node with progress }
    have hasks : Node.Asks (·.isEstablish = false) { router.node with progress } _ :=
      (Node.signals_signalReadiness { router.node with progress }).asks
    refine ⟨_, .of_relays (hrouter.rest hasks.transmits hadvances.bindings hadvances.topology
      ?_ ?_ ?_ ?_), .inr (.refl _)⟩
    · rw [hadvances.ledger]
      exact .refl _
    · rw [hypercube]
      exact id
    · intro rule
      rw [hypercube]
      cases rule <;> rfl
    · intro rank
      rw [hypercube]
      exact id
  | @absorbed event middle outbox absorbs =>
    obtain ⟨full, hwithin, hagrees⟩ := (absorbs.relays hrouter).exists_within_proceed backend
      (absorbs.isFailed.trans hworking)
    exact ⟨full, hwithin, .inr hagrees⟩

/-! ## Runs -/

theorem relays_create (h : (create profile topology).2 = .ok start) : start.Relays := by
  obtain ⟨-, hosts, hnode⟩ := create_eq_ok h
  have htransmits : start.node.journal.transmits = [] := by
    rw [hnode]
    rfl
  have hbindings : start.node.bindings = ∅ := by
    rw [hnode]
    rfl
  have hran : ∀ {rule}, start.forwarding.ran rule ≠ true := by
    simp [(fresh_create h).ran]
  refine ⟨0, 0, 0, fun _ => [], ?_⟩
  constructor
  case transmits =>
    rw [htransmits, hbindings]
    exact .refl _
  case idle => exact fun _ => rfl
  case chosen | fanout | announced | uplink | cross | behind => exact fun hrule => absurd hrule hran

theorem nodup_mates (router : Router) : router.mates.Nodup :=
  router.node.topology.nodup_chassisMates router.rank

theorem length_innerNodes {fellow : Rank} (hmates : router.mates.length = 3)
    (hfellow : fellow ∈ router.mates) : (innerNodes router.mates fellow).length = 2 := by
  have hlength := Topology.Balanced.length_filter_ne router.nodup_mates hfellow
  rw [innerNodes]
  omega

/-- A node with three chassis mates makes three requests at most by its first rule, and two by each
of the others. -/
theorem Relays.length_le (h : router.Relays) (hmates : router.mates.length = 3) :
    router.node.journal.transmits.length ≤ router.node.bindings.size + 7 := by
  obtain ⟨partner, fellow, far, asked, h⟩ := h
  have hinners := fun hran => length_innerNodes hmates (h.announced hran).1
  have hrule : ∀ rule bound, (router.forwarding.ran rule = true → (asked rule).length = bound) →
      (asked rule).length ≤ bound := by
    intro rule bound hbound
    cases hran : router.forwarding.ran rule with
    | false => simp [h.idle hran]
    | true => exact (hbound hran).le
  have hfanout := hrule .fanout 3 fun hran => (length_of_mapM (h.fanout hran)).trans hmates
  have huplink := hrule .uplink 2 fun hran => (length_of_mapM (h.uplink hran)).trans (hinners hran)
  have hcross := hrule .cross 2 fun hran =>
    (length_of_mapM (h.cross hran)).trans (hinners (h.behind hran).1)
  have hlength := h.transmits.length_eq
  simp only [List.length_append, List.length_map, Table.length_keys] at hlength
  omega

/-- A router of a cube relays by its rules while it works, and asks for no more than an outer node
is to complete. -/
structure Frugal (router : Router) : Prop where
  attached : router.Attached
  profile : router.forwarding.profile ≠ .pair
  mates : router.mates.length = 3
  relays : router.node.isFailed = false → router.Relays
  most : router.node.journal.transmits.length ≤ 11

theorem Step.frugal (hrouter : router.Frugal) (hworking : router.node.isFailed = false)
    (h : router.Step backend event next result) : next.Frugal := by
  obtain ⟨full, hwithin, hagrees⟩ := h.exists_within (hrouter.relays hworking) hworking
  have hattached := h.attached hrouter.attached hworking
  have hprofile : next.forwarding.profile ≠ .pair := by
    rw [h.profile_eq]
    exact hrouter.profile
  have hsame : ∀ {other : Router}, other.node.topology = router.node.topology →
      other.mates.length = 3 := by
    intro other htopology
    rw [mates_congr htopology]
    exact hrouter.mates
  have hnext := hsame h.topology_eq
  have hfull : full.mates.length = 3 ∧ full.node.bindings.size ≤ 4 := by
    rcases hagrees with hagrees | hagrees
    · rw [hagrees.bindings]
      exact ⟨hsame hagrees.topology, hrouter.attached.apart.size_le hrouter.profile hrouter.mates⟩
    · rw [hagrees.bindings]
      exact ⟨hsame (hagrees.topology.trans h.topology_eq), hattached.apart.size_le hprofile hnext⟩
  constructor
  case attached => exact hattached
  case profile => exact hprofile
  case mates => exact hnext
  case relays => exact hwithin.working
  case most =>
    have hlength := hwithin.relays.length_le hfull.1
    have hprefix := hwithin.transmits.length_le
    omega

theorem frugal_run {members : List Member} {localRank : Rank} {request : ProfileRequest}
    (htopology : Topology.ofMembers members localRank request = .ok topology)
    (h : (create profile topology).2 = .ok start) (hprofile : profile ≠ .pair) (backend : Backend)
    (events : List Event) : (start.run backend events).Frugal := by
  apply run_invariant _ fun hrouter hworking hstep => hstep.frugal hrouter hworking
  obtain rfl := profile_of_create h
  have hmember := Topology.hasMember_localRank htopology
  have hstart : start.node.topology = topology := topology_run h backend []
  have hrelays := relays_create h
  constructor
  case attached => exact attached_create h
  case profile =>
    rw [(fresh_create h).profile_eq]
    exact hprofile
  case mates =>
    rw [mates, rank, Node.rank, hstart]
    exact (Topology.balanced_of_ofMembers htopology hprofile hmember).length_chassisMates hmember
  case relays => exact fun _ => hrelays
  case most =>
    obtain ⟨-, hosts, hnode⟩ := create_eq_ok h
    rw [hnode]
    exact Nat.zero_le _

/-- What a cube router has asked its backend to transmit. The transmits of a router that works are
its own and those of its rules, for three mates and two inner ones; and no router ever asks for more
of them than an outer node is to complete. -/
structure RelaysByRule (router : Router) (topology : Topology) : Prop where
  relays : router.phase ≠ .failed → router.Relays
  mates : router.mates.length = 3
  inners : ∀ fellow ∈ router.mates, (innerNodes router.mates fellow).length = 2
  most : router.node.journal.transmits.length ≤ topology.transmitCount + outerExtraTx
  eleven : topology.transmitCount + outerExtraTx = 11

theorem relaysByRule_run {members : List Member} {localRank : Rank} {request : ProfileRequest}
    (htopology : Topology.ofMembers members localRank request = .ok topology)
    (h : (create .cube topology).2 = .ok start) (backend : Backend) (events : List Event) :
    (start.run backend events).RelaysByRule topology := by
  have hfrugal := frugal_run htopology h (by decide) backend events
  have height : topology.transmitCount + outerExtraTx = 11 := by
    rw [Topology.transmitCount, profile_of_create h]
    rfl
  constructor
  case relays => exact fun hphase => hfrugal.relays (working_of_phase hphase)
  case mates => exact hfrugal.mates
  case inners => exact fun fellow => length_innerNodes hfrugal.mates
  case most =>
    rw [height]
    exact hfrugal.most
  case eleven => exact height

/-- Rank 0 of eight nodes gets channels to its mates and to rank 4, and sends its own data on all of
them. -/
def outerOpening : List Event :=
  [.channel ⟨1, 1, "p0-a", true⟩, .channel ⟨2, 2, "p0-a", true⟩, .channel ⟨3, 3, "p0-a", true⟩,
    .channel ⟨9, 4, "p0-b", true⟩, .connection ⟨.tx, 1, 0, true⟩, .connection ⟨.tx, 2, 0, true⟩,
    .connection ⟨.tx, 3, 0, true⟩, .connection ⟨.tx, 9, 0, true⟩]

/-- It then hears all of them, each on its own channel. -/
def outerExchange : List Event :=
  outerOpening ++ [.connection ⟨.rx, 1, 1, true⟩, .connection ⟨.rx, 2, 2, true⟩,
    .connection ⟨.rx, 3, 3, true⟩, .connection ⟨.rx, 9, 4, true⟩]

/-- At last it learns of the other outer node of its chassis, and hears two nodes behind rank 4. -/
def outerRelaying : List Event :=
  outerExchange ++ [.outerAnnounce 1 "p0-a", .connection ⟨.rx, 9, 6, true⟩,
    .connection ⟨.rx, 9, 7, true⟩]

/-- An outer node of a cube that got to run all three rules. -/
theorem relaysByRule_run_eight : ∃ topology start,
    Topology.ofMembers (Layout.members 8) 0 .auto = .ok topology ∧
      (create .cube topology).2 = .ok start ∧
        (start.run .accepting outerRelaying).node.journal.transmits =
          [(0, 1), (0, 2), (0, 3), (0, 9), (4, 1), (4, 2), (4, 3), (2, 9), (3, 9), (7, 2), (7, 3)] ∧
        (start.run .accepting outerRelaying).phase ≠ .failed ∧
        (start.run .accepting outerRelaying).RelaysByRule topology := by
  obtain ⟨topology, start, hvalid, hcreate, htransmits, hphase⟩ : ∃ topology start,
      Topology.ofMembers (Layout.members 8) 0 .auto = .ok topology ∧
        (create .cube topology).2 = .ok start ∧
          (start.run .accepting outerRelaying).node.journal.transmits =
            [(0, 1), (0, 2), (0, 3), (0, 9), (4, 1), (4, 2), (4, 3),
              (2, 9), (3, 9), (7, 2), (7, 3)] ∧
          (start.run .accepting outerRelaying).phase ≠ .failed :=
    exists_created (by decide +kernel)
  exact ⟨topology, start, hvalid, hcreate, htransmits, hphase, relaysByRule_run hvalid hcreate _ _⟩

end Router

end MeshFormation
