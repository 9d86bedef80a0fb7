import MeshFormation.Proofs.Formation.Blueprint
import MeshFormation.Proofs.Formation.Requests
import MeshFormation.Proofs.Forwarding.Relays
import MeshFormation.Proofs.Ledger.Lookup

/-!
# The forwarding rules at work

A node that has learned nothing but the truth about its chassis asks, by each rule that is due, for
exactly the transmits that the blueprint assigns to it by this rule, and it asks for them once.
-/

namespace MeshFormation

namespace CubeForwarding

variable {cube : CubeForwarding} {node : Node} {wiring : Wiring}

theorem runRules_backend (h : ∀ rule, ∀ request ∈ (cube.relays? node rule).getD [],
    wiring.contains request.2 = true) :
    cube.runRules node wiring.backend = (cube.fired node, node.asking
      ((cube.relays? node .fanout).getD [] ++ (cube.relays? node .uplink).getD [] ++
        (cube.relays? node .cross).getD [])) := by
  obtain ⟨hlast, hfinal⟩ := Forwarding.makes_cube_runRules cube node wiring.backend
  have hdue : ∀ request ∈ (Forwarding.cube cube).due node, wiring.contains request.2 = true := by
    intro request hmem
    rcases List.mem_append.1 hmem with hmem | hmem
    · rcases List.mem_append.1 hmem with hmem | hmem
      · exact h .fanout request hmem
      · exact h .uplink request hmem
    · exact h .cross request hmem
  rw [Node.establishAll_backend hdue] at hlast hfinal
  exact Prod.ext (hfinal rfl) hlast

end CubeForwarding

namespace HypercubeForwarding

variable {rules : HypercubeForwarding} {node : Node} {wiring : Wiring}

theorem runRules_backend (h : ∀ request ∈ (rules.partnerRelays? node).getD [],
    wiring.contains request.2 = true) :
    rules.runRules node wiring.backend =
      ({ rules with
          partnerRelayed := rules.partnerRelayed || (rules.partnerRelays? node).isSome },
        node.asking ((rules.partnerRelays? node).getD [])) := by
  rw [runRules, Node.establishAll_backend h]

end HypercubeForwarding

namespace Blueprint

variable {b : Blueprint} {near far source other partner : Rank} {node : Node}
  {forwarding next : Forwarding} {rule : RelayRule} {channel : Channel}

/-- By a rule, a node sends the data of a source to a receiver. -/
def Assigned (b : Blueprint) (near : Rank) : RelayRule → Rank → Rank → Prop
  | .fanout, source, far => b.partner? near = some source ∧ far ∈ b.mates near
  | .uplink, source, far => b.partner? near = some far ∧ source ∈ b.inners near
  | .cross, source, far => b.chosen? near = some source ∧ far ∈ b.inners near

theorem Assigned.feeds (h : b.Assigned near rule source far) : b.Feeds source near far := by
  cases rule with
  | fanout => exact .fanout h.1 h.2
  | uplink => exact .uplink h.1 h.2
  | cross => exact .cross h.1 h.2

/-- What a node knows of its surroundings is true and fits the blueprint. -/
structure Consistent (b : Blueprint) (near : Rank) (node : Node) (forwarding : Forwarding) :
    Prop where
  topology : node.topology = b.topology.seenFrom near
  profile : forwarding.profile = b.topology.profile
  joined : ∀ {channel far}, node.boundPeer? channel = some far → b.Joined near far
  once : ∀ {channel other far}, node.boundPeer? channel = some far →
    node.boundPeer? other = some far → channel = other
  input : ∀ {source channel}, node.ledger.input? source = some channel →
    ∃ peer, node.boundPeer? channel = some peer ∧ b.Feeds source peer near
  reached : ∀ {far}, node.ledger.reaches far = true → ∃ channel, node.boundPeer? channel = some far
  partner : ∀ {partner}, forwarding.crossPartner? = some partner ↔
    b.partner? near = some partner ∧ ∃ channel, node.boundPeer? channel = some partner
  heard : ∀ {other}, forwarding.hears other = true → (b.partner? other).isSome = true

/-- The second and the third rule wait for the fellow, and for the data of the partner and of the
inner nodes. -/
def Primed (b : Blueprint) (near : Rank) (ledger : Ledger) (forwarding : Forwarding) : Prop :=
  (∃ fellow, b.fellow? near = some fellow ∧ forwarding.hears fellow = true) ∧
    (∃ partner, forwarding.crossPartner? = some partner ∧
      (ledger.input? partner).isSome = true) ∧
    ∀ inner ∈ b.inners near, (ledger.input? inner).isSome = true

/-- What a node knows makes a rule due. -/
def Due (b : Blueprint) (near : Rank) (ledger : Ledger) (forwarding : Forwarding) :
    RelayRule → Prop
  | .fanout => ∃ partner, forwarding.crossPartner? = some partner ∧
    ledger.exchangesDirectly partner = true ∧
      ∀ mate ∈ b.mates near, ledger.exchangesDirectly mate = true
  | .uplink => b.Primed near ledger forwarding
  | .cross => b.Primed near ledger forwarding ∧
    ∃ partner, forwarding.crossPartner? = some partner ∧
      ∀ inner ∈ b.inners partner, (ledger.input? inner).isSome = true

/-- The requests that a rule makes, if any, are due and are those that the blueprint assigns. -/
structure Granted (b : Blueprint) (near : Rank) (node : Node) (forwarding : Forwarding)
    (rule : RelayRule) (relays : Option (List RelayRequest)) : Prop where
  isSome : relays.isSome = true ↔
    forwarding.ran rule = false ∧ b.Due near node.ledger forwarding rule
  nodup : (relays.getD []).Nodup
  mem : relays.isSome = true → ∀ {source channel}, (source, channel) ∈ relays.getD [] ↔
    ∃ far, b.Assigned near rule source far ∧ node.boundPeer? channel = some far

/-- The rules that were due have run, and nothing else has changed. -/
structure Fires (b : Blueprint) (near : Rank) (node : Node) (forwarding next : Forwarding)
    (due : List RelayRequest) : Prop where
  profile : next.profile = forwarding.profile
  partner : next.crossPartner? = forwarding.crossPartner?
  hears : next.hears = forwarding.hears
  tells : next.tells = forwarding.tells
  requestedLinks : next.requestedLinks = forwarding.requestedLinks
  links : next.links = forwarding.links
  ran : ∀ rule, next.ran rule = true ↔
    forwarding.ran rule = true ∨ b.Due near node.ledger forwarding rule
  nodup : due.Nodup
  mem : ∀ {source channel}, (source, channel) ∈ due ↔ ∃ rule far, forwarding.ran rule = false ∧
    b.Due near node.ledger forwarding rule ∧ b.Assigned near rule source far ∧
      node.boundPeer? channel = some far

namespace Valid

variable (h : b.Valid)
include h

/-- No two rules make a node send the same data to the same receiver. -/
theorem rule_eq {rule' : RelayRule} (hassigned : b.Assigned near rule source far)
    (hassigned' : b.Assigned near rule' source far) : rule = rule' := by
  have hchosen : ∀ {partner}, b.partner? near = some partner → b.chosen? near = some source →
      source ∈ b.mates partner := by
    intro partner hpartner hchosen
    obtain ⟨partner', fellow, hpartner', -, hchoice⟩ := chosen?_eq_some_iff.1 hchosen
    obtain rfl := Option.some.inj (hpartner.symm.trans hpartner')
    exact mem_mates_of_mem_inners (crossChoice_eq_some hchoice).1
  have hfanoutUplink : b.partner? near = some source → source ∉ b.inners near :=
    fun hpartner hinner => h.partner?_notMem_mates hpartner (mem_mates_of_mem_inners hinner)
  have hfanoutCross : b.partner? near = some source → b.chosen? near ≠ some source :=
    fun hpartner hcross => absurd (hchosen hpartner hcross) (by simp [mem_mates_iff])
  have huplinkCross : source ∈ b.inners near → b.chosen? near ≠ some source := by
    intro hinner hcross
    obtain ⟨partner, -, hpartner, -⟩ := chosen?_eq_some_iff.1 hcross
    have hsame := (mem_mates_iff.1 (hchosen hpartner hcross)).2
    have hmate := (mem_mates_iff.1 (mem_mates_of_mem_inners hinner)).2
    rw [h.shareChassis_eq_false_of_partner hpartner hmate] at hsame
    exact absurd hsame (by simp)
  cases rule <;> cases rule'
  · rfl
  · exact absurd hassigned'.2 (hfanoutUplink hassigned.1)
  · exact absurd hassigned'.1 (hfanoutCross hassigned.1)
  · exact absurd hassigned.2 (hfanoutUplink hassigned'.1)
  · rfl
  · exact absurd hassigned'.1 (huplinkCross hassigned.2)
  · exact absurd hassigned.1 (hfanoutCross hassigned'.1)
  · exact absurd hassigned.1 (huplinkCross hassigned'.2)
  · rfl

/-- By a rule, a node sends the data of others only. -/
theorem ne_of_assigned (hassigned : b.Assigned near rule source far) : source ≠ near := by
  cases rule with
  | fanout => exact (h.of_joined (h.partner?_eq_some_iff.1 hassigned.1).1).1.symm
  | uplink => exact (mem_mates_iff.1 (mem_mates_of_mem_inners hassigned.2)).1
  | cross =>
    obtain ⟨partner, fellow, hpartner, -, hchoice⟩ := chosen?_eq_some_iff.1 hassigned.1
    rintro rfl
    have hmate := mem_mates_of_mem_inners (crossChoice_eq_some hchoice).1
    exact h.partner?_notMem_mates (h.partner?_comm hpartner) hmate

/-- Three rules that each ask for what is due ask for all that is due, once. -/
theorem fires_of_granted {relays : RelayRule → Option (List RelayRequest)}
    (hgranted : ∀ rule, b.Granted near node forwarding rule (relays rule)) :
    ((relays .fanout).getD [] ++ (relays .uplink).getD [] ++ (relays .cross).getD []).Nodup ∧
      ∀ {source channel}, (source, channel) ∈
        (relays .fanout).getD [] ++ (relays .uplink).getD [] ++ (relays .cross).getD [] ↔
          ∃ rule far, forwarding.ran rule = false ∧ b.Due near node.ledger forwarding rule ∧
            b.Assigned near rule source far ∧ node.boundPeer? channel = some far := by
  have hmem : ∀ rule {source channel}, (source, channel) ∈ (relays rule).getD [] ↔
      (forwarding.ran rule = false ∧ b.Due near node.ledger forwarding rule) ∧
        ∃ far, b.Assigned near rule source far ∧ node.boundPeer? channel = some far := by
    intro rule source channel
    rw [← (hgranted rule).isSome]
    constructor
    · intro hmem
      have hsome : (relays rule).isSome = true := by
        cases hrelays : relays rule with
        | none =>
          rw [hrelays] at hmem
          exact absurd hmem (by simp)
        | some list => rfl
      exact ⟨hsome, ((hgranted rule).mem hsome).1 hmem⟩
    · rintro ⟨hsome, hfar⟩
      exact ((hgranted rule).mem hsome).2 hfar
  have hdisjoint : ∀ {first second : RelayRule}, first ≠ second →
      ∀ request ∈ (relays first).getD [], ∀ other ∈ (relays second).getD [], request ≠ other := by
    rintro first second hne ⟨source, channel⟩ hfirst other hsecond rfl
    obtain ⟨-, far, hassigned, hbound⟩ := (hmem first).1 hfirst
    obtain ⟨-, far', hassigned', hbound'⟩ := (hmem second).1 hsecond
    obtain rfl := Option.some.inj (hbound.symm.trans hbound')
    exact hne (h.rule_eq hassigned hassigned')
  constructor
  · rw [List.nodup_append, List.nodup_append]
    refine ⟨⟨(hgranted _).nodup, (hgranted _).nodup, hdisjoint (by simp)⟩, (hgranted _).nodup, ?_⟩
    intro request hfirst
    rcases List.mem_append.1 hfirst with hfirst | hfirst
    · exact hdisjoint (by simp) request hfirst
    · exact hdisjoint (by simp) request hfirst
  · intro source channel
    rw [List.mem_append, List.mem_append, hmem, hmem, hmem]
    constructor
    · rintro ((⟨⟨hran, hdue⟩, far, hfar⟩ | ⟨⟨hran, hdue⟩, far, hfar⟩) | ⟨⟨hran, hdue⟩, far, hfar⟩)
      · exact ⟨_, far, hran, hdue, hfar⟩
      · exact ⟨_, far, hran, hdue, hfar⟩
      · exact ⟨_, far, hran, hdue, hfar⟩
    · rintro ⟨rule, far, hran, hdue, hfar⟩
      cases rule with
      | fanout => exact .inl (.inl ⟨⟨hran, hdue⟩, far, hfar⟩)
      | uplink => exact .inl (.inr ⟨⟨hran, hdue⟩, far, hfar⟩)
      | cross => exact .inr ⟨⟨hran, hdue⟩, far, hfar⟩

/-! ## The requests of each rule -/

section Granted

variable (hc : b.Consistent near node forwarding)
include hc

omit h in
theorem partner_of_crossPartner? (hpartner : forwarding.crossPartner? = some partner) :
    b.partner? near = some partner :=
  (hc.partner.1 hpartner).1

theorem bound_of_mate (hmate : other ∈ b.mates near)
    (hinput : node.ledger.input? other = some channel) :
    node.boundPeer? channel = some other := by
  obtain ⟨peer, hbound, hfeeds⟩ := hc.input hinput
  have hshare := (mem_mates_iff.1 hmate).2
  rw [Topology.shareChassis_comm] at hshare
  rw [hbound, h.eq_of_feeds_of_shareChassis hfeeds hshare]

theorem bound_of_partner (hpartner : b.partner? near = some partner)
    (hinput : node.ledger.input? partner = some channel) :
    node.boundPeer? channel = some partner := by
  obtain ⟨peer, hbound, hfeeds⟩ := hc.input hinput
  rw [hbound, h.eq_of_feeds_of_partner hfeeds hpartner]

/-- The data of the partner's inner mates comes on the channel to the partner. -/
theorem bound_of_inner (hpartner : b.partner? near = some partner)
    (hinner : other ∈ b.inners partner) (hinput : node.ledger.input? other = some channel) :
    node.boundPeer? channel = some partner := by
  obtain ⟨peer, hbound, hfeeds⟩ := hc.input hinput
  rw [hbound, h.eq_of_feeds hfeeds (.uplink (h.partner?_comm hpartner) hinner)]

omit h in
theorem mates_eq : node.topology.chassisMates node.rank = b.mates near := by
  rw [Node.rank, hc.topology]
  rfl

omit h hc in
theorem granted_none (hdue : ¬ b.Due near node.ledger forwarding rule) :
    b.Granted near node forwarding rule none where
  isSome := by
    constructor
    · intro hsome
      exact absurd hsome (by simp)
    · rintro ⟨-, hdue'⟩
      exact absurd hdue' hdue
  nodup := .nil
  mem hsome := absurd hsome (by simp)

omit h hc in
theorem granted_of_ran (hran : forwarding.ran rule = true) :
    b.Granted near node forwarding rule none where
  isSome := by
    constructor
    · intro hsome
      exact absurd hsome (by simp)
    · rintro ⟨hfalse, -⟩
      rw [hran] at hfalse
      exact absurd hfalse (by simp)
  nodup := .nil
  mem hsome := absurd hsome (by simp)

omit h hc in
theorem pairwise_inners (b : Blueprint) (node : Rank) : (b.inners node).Pairwise (· < ·) := by
  unfold inners
  split
  · exact ((Table.pairwise_keys b.topology.members).filter _).filter _
  · exact .nil

omit h hc in
theorem nodup_inners (b : Blueprint) (node : Rank) : (b.inners node).Nodup :=
  (pairwise_inners b node).imp UInt32.ne_of_lt

/-- The data of every mate comes on a channel of its own, the one to the mate. -/
theorem nodup_inputs {list : List Rank} (hlist : list.Nodup)
    (hmates : ∀ mate ∈ list, mate ∈ b.mates near) : (list.filterMap node.ledger.input?).Nodup := by
  rw [List.Nodup, List.pairwise_filterMap]
  apply hlist.imp_of_mem
  rintro first second hfirst hsecond hne channel hinput channel' hinput' rfl
  have hbound := h.bound_of_mate hc (hmates first hfirst) hinput
  have hbound' := h.bound_of_mate hc (hmates second hsecond) hinput'
  exact hne (Option.some.inj (hbound.symm.trans hbound'))

theorem mem_relays_iff {list : List Rank} {candidate : Rank}
    (hmates : ∀ mate ∈ list, mate ∈ b.mates near)
    (hheard : ∀ mate ∈ list, (node.ledger.input? mate).isSome = true) :
    (source, channel) ∈ (list.filterMap node.ledger.input?).map
        (fun channel => (candidate, channel)) ↔
      ∃ far, (candidate = source ∧ far ∈ list) ∧ node.boundPeer? channel = some far := by
  rw [List.mem_map]
  constructor
  · rintro ⟨channel', hmem, heq⟩
    obtain ⟨rfl, rfl⟩ := Prod.mk.inj heq
    obtain ⟨mate, hmate, hinput⟩ := List.mem_filterMap.1 hmem
    exact ⟨mate, ⟨rfl, hmate⟩, h.bound_of_mate hc (hmates mate hmate) hinput⟩
  · rintro ⟨far, ⟨rfl, hfar⟩, hbound⟩
    obtain ⟨channel', hinput⟩ := Option.isSome_iff_exists.1 (hheard far hfar)
    obtain rfl := hc.once hbound (h.bound_of_mate hc (hmates far hfar) hinput)
    exact ⟨channel, List.mem_filterMap.2 ⟨far, hfar, hinput⟩, rfl⟩

theorem granted_fanout (hpartner : forwarding.crossPartner? = some partner)
    (hran : forwarding.ran .fanout = false) :
    b.Granted near node forwarding .fanout (node.partnerFanout? partner) := by
  have hpartner' := partner_of_crossPartner? hc hpartner
  have hdue : b.Due near node.ledger forwarding .fanout ↔
      (node.ledger.exchangesDirectly partner &&
        (b.mates near).all node.ledger.exchangesDirectly) = true := by
    rw [Bool.and_eq_true, List.all_eq_true]
    constructor
    · rintro ⟨known, hknown, hexchange, hall⟩
      obtain rfl := Option.some.inj (hpartner.symm.trans hknown)
      exact ⟨hexchange, hall⟩
    · rintro ⟨hexchange, hall⟩
      exact ⟨partner, hpartner, hexchange, hall⟩
  rw [Node.partnerFanout?, mates_eq hc]
  split
  · rename_i hexchange
    have hall := (Bool.and_eq_true _ _ ▸ hexchange).2
    rw [List.all_eq_true] at hall
    constructor
    · simp [hran, hdue, hexchange]
    · refine List.Nodup.map (fun _ _ heq => (Prod.mk.inj heq).2) ?_
      exact h.nodup_inputs hc (b.topology.nodup_chassisMates near) fun _ => id
    · intro _ source channel
      have hheard : ∀ mate ∈ b.mates near, (node.ledger.input? mate).isSome = true :=
        fun mate hmate => (Ledger.exchangesDirectly_iff.1 (hall mate hmate)).1
      rw [Option.getD_some, h.mem_relays_iff hc (fun _ => id) hheard]
      simp only [Assigned, hpartner', Option.some.injEq]
  · rename_i hexchange
    exact granted_none (hdue.not.2 hexchange)

variable {fellow : Rank} {uplink : Channel}

omit h hc in
theorem primed_iff (hpartner : forwarding.crossPartner? = some partner)
    (hfellow : b.fellow? near = some fellow) (hheard : forwarding.hears fellow = true)
    (huplink : node.ledger.input? partner = some uplink) :
    b.Primed near node.ledger forwarding ↔
      ∀ inner ∈ b.inners near, (node.ledger.input? inner).isSome = true := by
  constructor
  · rintro ⟨-, -, hinners⟩
    exact hinners
  · intro hinners
    exact ⟨⟨fellow, hfellow, hheard⟩, ⟨partner, hpartner, by rw [huplink]; rfl⟩, hinners⟩

theorem granted_uplink (hpartner : forwarding.crossPartner? = some partner)
    (hfellow : b.fellow? near = some fellow) (hheard : forwarding.hears fellow = true)
    (huplink : node.ledger.input? partner = some uplink) (hran : forwarding.ran .uplink = false) :
    b.Granted near node forwarding .uplink
      (if (b.inners near).all fun inner => (node.ledger.input? inner).isSome then
        some ((b.inners near).map fun inner => (inner, uplink))
      else none) := by
  have hpartner' := partner_of_crossPartner? hc hpartner
  have hbound := h.bound_of_partner hc hpartner' huplink
  have hdue := primed_iff hpartner hfellow hheard huplink
  split
  · rename_i hall
    rw [List.all_eq_true] at hall
    constructor
    · simp only [Option.isSome_some, hran, true_and, true_iff]
      exact hdue.2 hall
    · exact (nodup_inners b near).map fun _ _ heq => (Prod.mk.inj heq).1
    · intro _ source channel
      simp only [Option.getD_some, List.mem_map]
      constructor
      · rintro ⟨inner, hinner, heq⟩
        obtain ⟨rfl, rfl⟩ := Prod.mk.inj heq
        exact ⟨partner, ⟨hpartner', hinner⟩, hbound⟩
      · rintro ⟨far, ⟨hfar, hinner⟩, hchannel⟩
        obtain rfl := Option.some.inj (hpartner'.symm.trans hfar)
        obtain rfl := hc.once hchannel hbound
        exact ⟨source, hinner, rfl⟩
  · rename_i hall
    apply granted_none
    intro hprimed
    exact hall (List.all_eq_true.2 (hdue.1 hprimed))

omit hc in
theorem length_inners (hfellow : b.fellow? near = some fellow) : (b.inners near).length = 2 := by
  obtain ⟨-, -, hmate, -⟩ := h.fellow?_eq_some_iff.1 hfellow
  have hmember := (Topology.hasMember_of_shareChassis (mem_mates_iff.1 hmate).2).1
  have hmates := (h.balanced hmember).length_chassisMates hmember
  have hlength := Topology.Balanced.length_filter_ne (b.topology.nodup_chassisMates near) hmate
  rw [inners, hfellow]
  simp only [innerNodes, mates]
  omega

omit hc in
theorem exists_fellow?_partner (hpartner : b.partner? near = some partner)
    (hfellow : b.fellow? near = some fellow) : ∃ other, b.fellow? partner = some other := by
  obtain ⟨-, -, -, houter⟩ := h.fellow?_eq_some_iff.1 hfellow
  obtain ⟨other, hother⟩ := Option.isSome_iff_exists.1 houter
  exact ⟨other, h.fellow?_partner? hfellow hpartner hother⟩

/-- Besides the partner itself, only its inner mates are heard on the channel to the partner. -/
theorem mem_inners_of_heardOn (hpartner : b.partner? near = some partner)
    (hbound : node.boundPeer? channel = some partner) (hother : other ∈ node.ledger.heardOn channel)
    (hne : other ≠ partner) : other ∈ b.inners partner := by
  obtain ⟨peer, hpeer, hfeeds⟩ := hc.input (Ledger.mem_heardOn_iff.1 hother)
  obtain rfl := Option.some.inj (hbound.symm.trans hpeer)
  have hback := h.partner?_comm hpartner
  cases hfeeds with
  | direct joined => exact absurd rfl hne
  | fanout _ hmate => exact absurd hmate (h.partner?_notMem_mates hback)
  | uplink _ hinner => exact hinner
  | cross _ hinner =>
    exact absurd (mem_mates_of_mem_inners hinner) (h.partner?_notMem_mates hback)

/-- The candidates of the third rule are complete exactly if both inner nodes of the other chassis
are heard, and then the choice is the one of the blueprint. -/
theorem candidates_eq (hpartner : b.partner? near = some partner)
    (huplink : node.ledger.input? partner = some uplink)
    (hheard : ∀ inner ∈ b.inners partner, (node.ledger.input? inner).isSome = true) :
    (node.ledger.heardOn uplink).filter (· != partner) = b.inners partner := by
  have hbound := h.bound_of_partner hc hpartner huplink
  have hsorted := (node.ledger.pairwise_heardOn uplink).filter (· != partner)
  have hinners := pairwise_inners b partner
  refine Topology.eq_of_ascending hsorted hinners fun other => ?_
  rw [List.mem_filter, bne_iff_ne]
  constructor
  · rintro ⟨hother, hne⟩
    exact h.mem_inners_of_heardOn hc hpartner hbound hother hne
  · intro hinner
    obtain ⟨channel, hchannel⟩ := Option.isSome_iff_exists.1 (hheard other hinner)
    obtain rfl := hc.once hbound (h.bound_of_inner hc hpartner hinner hchannel)
    refine ⟨Ledger.mem_heardOn_iff.2 hchannel, ?_⟩
    rintro rfl
    exact absurd (mem_mates_of_mem_inners hinner) (by simp [mem_mates_iff])

theorem heard_of_crossChoice {candidate : Rank} (hpartner : b.partner? near = some partner)
    (hfellow : b.fellow? near = some fellow)
    (huplink : node.ledger.input? partner = some uplink)
    (hchoice : crossChoice near fellow ((node.ledger.heardOn uplink).filter (· != partner)) =
      some candidate) :
    ∀ inner ∈ b.inners partner, (node.ledger.input? inner).isSome = true := by
  have hbound := h.bound_of_partner hc hpartner huplink
  obtain ⟨-, first, second, hlist, hne⟩ := crossChoice_eq_some hchoice
  obtain ⟨other, hother⟩ := h.exists_fellow?_partner hpartner hfellow
  have hmem : ∀ {rank}, rank = first ∨ rank = second →
      rank ∈ node.ledger.heardOn uplink ∧ rank ∈ b.inners partner := by
    intro rank hrank
    have hfilter : rank ∈ (node.ledger.heardOn uplink).filter (· != partner) := by
      rw [hlist]
      simpa using hrank
    obtain ⟨hheard, hpartner'⟩ := List.mem_filter.1 hfilter
    exact ⟨hheard, h.mem_inners_of_heardOn hc hpartner hbound hheard (by simpa using hpartner')⟩
  have hsubperm : [first, second].Subperm (b.inners partner) := by
    apply List.subperm_of_subset (by simpa using hne)
    intro rank hrank
    exact (hmem (by simpa using hrank)).2
  have hperm := hsubperm.perm_of_length_le (by simp [h.length_inners hother])
  intro inner hinner
  have hpair : inner = first ∨ inner = second := by simpa using hperm.mem_iff.2 hinner
  rw [Ledger.mem_heardOn_iff.1 (hmem hpair).1]
  rfl

theorem granted_cross (hpartner : forwarding.crossPartner? = some partner)
    (hfellow : b.fellow? near = some fellow) (hheard : forwarding.hears fellow = true)
    (huplink : node.ledger.input? partner = some uplink) (hran : forwarding.ran .cross = false) :
    b.Granted near node forwarding .cross
      (match crossChoice near fellow ((node.ledger.heardOn uplink).filter (· != partner)) with
        | none => none
        | some candidate => ((b.inners near).mapM node.ledger.input?).map fun channels =>
          channels.map fun channel => (candidate, channel)) := by
  have hpartner' := partner_of_crossPartner? hc hpartner
  have hprimed := primed_iff hpartner hfellow hheard huplink
  have hdue : b.Due near node.ledger forwarding .cross ↔
      (∀ inner ∈ b.inners near, (node.ledger.input? inner).isSome = true) ∧
        ∀ inner ∈ b.inners partner, (node.ledger.input? inner).isSome = true := by
    rw [Due, hprimed]
    apply and_congr_right
    intro _
    constructor
    · rintro ⟨known, hknown, hall⟩
      obtain rfl := Option.some.inj (hpartner.symm.trans hknown)
      exact hall
    · intro hall
      exact ⟨partner, hpartner, hall⟩
  cases hchoice : crossChoice near fellow ((node.ledger.heardOn uplink).filter (· != partner)) with
  | none =>
    apply granted_none
    intro hcross
    obtain ⟨other, hother⟩ := h.exists_fellow?_partner hpartner' hfellow
    have hlength := h.length_inners hother
    rw [h.candidates_eq hc hpartner' huplink (hdue.1 hcross).2] at hchoice
    obtain ⟨first, second, hlist⟩ := List.length_eq_two.1 hlength
    have hsorted := pairwise_inners b partner
    rw [hlist] at hchoice hsorted
    have hne : first ≠ second := UInt32.ne_of_lt (by simpa using hsorted)
    simp only [crossChoice, if_neg hne] at hchoice
    split at hchoice <;> exact absurd hchoice (by simp)
  | some candidate =>
    have hinners := h.heard_of_crossChoice hc hpartner' hfellow huplink hchoice
    have hchosen : b.chosen? near = some candidate := by
      rw [h.candidates_eq hc hpartner' huplink hinners] at hchoice
      exact chosen?_eq_some_iff.2 ⟨partner, fellow, hpartner', hfellow, hchoice⟩
    have hmates : ∀ inner ∈ b.inners near, inner ∈ b.mates near := fun _ => mem_mates_of_mem_inners
    dsimp only
    rw [mapM_eq]
    split
    · rename_i hall
      rw [List.all_eq_true] at hall
      constructor
      · simp only [Option.map_some, Option.isSome_some, hran, true_and, true_iff]
        exact hdue.2 ⟨hall, hinners⟩
      · refine List.Nodup.map (fun _ _ heq => (Prod.mk.inj heq).2) ?_
        exact h.nodup_inputs hc (nodup_inners b near) hmates
      · intro _ source channel
        rw [Option.map_some, Option.getD_some, h.mem_relays_iff hc hmates hall]
        simp only [Assigned, hchosen, Option.some.injEq]
    · rename_i hall
      apply granted_none
      intro hcross
      exact hall (List.all_eq_true.2 (hdue.1 hcross).1)

end Granted

/-! ## One round of rules -/

variable {wiring : Wiring}

theorem fires (next : Forwarding) (relays : RelayRule → Option (List RelayRequest))
    (hgranted : ∀ rule, b.Granted near node forwarding rule (relays rule))
    (hprofile : next.profile = forwarding.profile)
    (hpartner : next.crossPartner? = forwarding.crossPartner?)
    (hhears : next.hears = forwarding.hears) (htells : next.tells = forwarding.tells)
    (hrequested : next.requestedLinks = forwarding.requestedLinks)
    (hlinks : next.links = forwarding.links)
    (hran : ∀ rule, next.ran rule = (forwarding.ran rule || (relays rule).isSome)) :
    b.Fires near node forwarding next
      ((relays .fanout).getD [] ++ (relays .uplink).getD [] ++ (relays .cross).getD []) where
  profile := hprofile
  partner := hpartner
  hears := hhears
  tells := htells
  requestedLinks := hrequested
  links := hlinks
  ran rule := by
    rw [hran, Bool.or_eq_true, (hgranted rule).isSome]
    by_cases hrule : forwarding.ran rule = true
    · simp [hrule]
    · simp [hrule]
  nodup := (h.fires_of_granted hgranted).1
  mem := (h.fires_of_granted hgranted).2

omit h in
theorem wired_of_granted {list : Option (List RelayRequest)}
    (hwired : ∀ {channel far}, node.boundPeer? channel = some far → wiring.contains channel = true)
    (hgranted : b.Granted near node forwarding rule list) :
    ∀ request ∈ list.getD [], wiring.contains request.2 = true := by
  rintro ⟨source, channel⟩ hmem
  cases list with
  | none => exact absurd hmem (by simp)
  | some requests =>
    obtain ⟨far, -, hbound⟩ := (hgranted.mem rfl).1 hmem
    exact hwired hbound

omit h in
/-- A node with a partner hears its fellow exactly if the fellow announced itself. -/
theorem fellow?_eq (h : b.Valid) {rules : CubeForwarding}
    (hc : b.Consistent near node (.cube rules)) (houter : (b.partner? near).isSome = true)
    {fellow : Rank} : rules.fellow? node = some fellow ↔
      b.fellow? near = some fellow ∧ (Forwarding.cube rules).hears fellow = true := by
  have hcube : b.topology.profile = .cube := hc.profile.symm
  have hmem : ∀ {rank}, rank ∈ rules.announcers.keys.filter (b.mates near).contains ↔
      (Forwarding.cube rules).hears rank = true ∧ rank ∈ b.mates near := by
    intro rank
    rw [List.mem_filter, Table.mem_keys_iff, List.contains_iff_mem]
    rfl
  have hfellow : ∀ {rank}, rank ∈ rules.announcers.keys.filter (b.mates near).contains →
      b.fellow? near = some rank := by
    intro rank hrank
    obtain ⟨hheard, hmate⟩ := hmem.1 hrank
    exact h.fellow?_eq_some_iff.2 ⟨hcube, houter, hmate, hc.heard hheard⟩
  have hnodup : (rules.announcers.keys.filter (b.mates near).contains).Nodup :=
    ((Table.pairwise_keys rules.announcers).imp UInt32.ne_of_lt).filter _
  rw [CubeForwarding.fellow?, mates_eq hc]
  constructor
  · intro hknown
    split at hknown
    · rename_i rank hlist
      obtain rfl := Option.some.inj hknown
      have hrank : rank ∈ rules.announcers.keys.filter (b.mates near).contains := by
        rw [hlist]
        exact List.mem_singleton_self rank
      exact ⟨hfellow hrank, (hmem.1 hrank).1⟩
    · exact absurd hknown (by simp)
  · rintro ⟨hknown, hheard⟩
    have hmate := (h.fellow?_eq_some_iff.1 hknown).2.2.1
    have hfilter := hmem.2 ⟨hheard, hmate⟩
    have hall : ∀ rank ∈ rules.announcers.keys.filter (b.mates near).contains, rank = fellow :=
      fun rank hrank => Option.some.inj ((hfellow hrank).symm.trans hknown)
    have hlist : rules.announcers.keys.filter (b.mates near).contains = [fellow] := by
      cases hkeys : rules.announcers.keys.filter (b.mates near).contains with
      | nil =>
        rw [hkeys] at hfilter
        exact absurd hfilter (by simp)
      | cons first rest =>
        rw [hkeys] at hall hnodup
        have hfirst := hall first List.mem_cons_self
        cases rest with
        | nil => rw [hfirst]
        | cons second others =>
          have hsecond := hall second (by simp)
          rw [hfirst, hsecond] at hnodup
          exact absurd hnodup (by simp)
    rw [hlist]

omit h in
theorem not_due_of_crossPartner? (forwarding : Forwarding)
    (hpartner : forwarding.crossPartner? = none) (rule : RelayRule) :
    ¬ b.Due near node.ledger forwarding rule := by
  have hnone : ∀ {partner}, forwarding.crossPartner? ≠ some partner := by
    intro partner hsome
    exact absurd (hpartner.symm.trans hsome) (by simp)
  intro hdue
  cases rule with
  | fanout =>
    obtain ⟨partner, hsome, -⟩ := hdue
    exact hnone hsome
  | uplink =>
    obtain ⟨-, ⟨partner, hsome, -⟩, -⟩ := hdue
    exact hnone hsome
  | cross =>
    obtain ⟨-, partner, hsome, -⟩ := hdue
    exact hnone hsome

section Cube

variable {rules : CubeForwarding} (hc : b.Consistent near node (.cube rules))
include hc

theorem granted_partnerRelays? (hpartner : rules.role.partner? = some partner) :
    b.Granted near node (.cube rules) .fanout (rules.partnerRelays? node partner) := by
  rw [CubeForwarding.partnerRelays?]
  cases hran : rules.partnerRelayed with
  | true => exact granted_of_ran hran
  | false => exact h.granted_fanout hc hpartner hran

theorem granted_uplinkRelays? {fellow : Rank} {uplink : Channel}
    (hpartner : rules.role.partner? = some partner) (hfellow : b.fellow? near = some fellow)
    (hheard : (Forwarding.cube rules).hears fellow = true)
    (huplink : node.ledger.input? partner = some uplink) :
    b.Granted near node (.cube rules) .uplink
      (rules.uplinkRelays? node (b.inners near) uplink) := by
  rw [CubeForwarding.uplinkRelays?]
  cases hran : rules.uplinkRelayed with
  | true => exact granted_of_ran hran
  | false =>
    have hgranted := h.granted_uplink hc hpartner hfellow hheard huplink hran
    rw [Bool.false_or]
    by_cases hall : ((b.inners near).all fun inner => (node.ledger.input? inner).isSome) = true
    · rw [if_pos hall] at hgranted
      rw [hall]
      exact hgranted
    · rw [if_neg hall] at hgranted
      rw [Bool.not_eq_true] at hall
      rw [hall]
      exact hgranted

theorem granted_crossRelays? {fellow : Rank} {uplink : Channel}
    (hpartner : rules.role.partner? = some partner) (hfellow : b.fellow? near = some fellow)
    (hheard : (Forwarding.cube rules).hears fellow = true)
    (huplink : node.ledger.input? partner = some uplink) :
    b.Granted near node (.cube rules) .cross
      (rules.crossRelays? node partner fellow (b.inners near) uplink) := by
  have hrank : node.rank = near := by
    rw [Node.rank, hc.topology]
    rfl
  rw [CubeForwarding.crossRelays?, hrank]
  cases hran : rules.crossRelayed with
  | true => exact granted_of_ran hran
  | false => exact h.granted_cross hc hpartner hfellow hheard huplink hran

theorem not_primed_of_gate? (hgate : rules.gate? node = none) :
    ¬ b.Primed near node.ledger (.cube rules) := by
  rintro ⟨⟨fellow, hfellow, hheard⟩, ⟨partner, hpartner, hinput⟩, -⟩
  obtain ⟨uplink, huplink⟩ := Option.isSome_iff_exists.1 hinput
  have houter : (b.partner? near).isSome = true := by
    rw [partner_of_crossPartner? hc hpartner]
    rfl
  have hknown := (h.fellow?_eq hc houter).2 ⟨hfellow, hheard⟩
  have hrole : rules.role.partner? = some partner := hpartner
  simp [CubeForwarding.gate?, hrole, hknown, huplink] at hgate

theorem granted_relays? (rule : RelayRule) :
    b.Granted near node (.cube rules) rule (rules.relays? node rule) := by
  cases hgate : rules.gate? node with
  | none =>
    have hprimed := h.not_primed_of_gate? hc hgate
    cases rule with
    | fanout =>
      rw [CubeForwarding.relays?]
      cases hpartner : rules.role.partner? with
      | none => exact granted_none (not_due_of_crossPartner? (.cube rules) hpartner .fanout)
      | some partner => exact h.granted_partnerRelays? hc hpartner
    | uplink =>
      rw [CubeForwarding.relays?, hgate]
      exact granted_none hprimed
    | cross =>
      rw [CubeForwarding.relays?, hgate]
      exact granted_none fun hdue => hprimed hdue.1
  | some gate =>
    obtain ⟨partner, fellow, uplink⟩ := gate
    obtain ⟨hpartner, hknown, huplink⟩ := Forwarding.of_gate?_eq_some hgate
    have houter : (b.partner? near).isSome = true := by
      rw [hc.partner.1 hpartner |>.1]
      rfl
    obtain ⟨hfellow, hheard⟩ := (h.fellow?_eq hc houter).1 hknown
    have hinners : innerNodes (node.topology.chassisMates node.rank) fellow = b.inners near := by
      rw [mates_eq hc, inners, hfellow]
    cases rule with
    | fanout =>
      rw [CubeForwarding.relays?, hpartner]
      exact h.granted_partnerRelays? hc hpartner
    | uplink =>
      rw [CubeForwarding.relays?, hgate]
      have hgranted := h.granted_uplinkRelays? hc hpartner hfellow hheard huplink
      rw [← hinners] at hgranted
      exact hgranted
    | cross =>
      rw [CubeForwarding.relays?, hgate]
      have hgranted := h.granted_crossRelays? hc hpartner hfellow hheard huplink
      rw [← hinners] at hgranted
      exact hgranted

theorem cube_runRules
    (hwired : ∀ {channel far}, node.boundPeer? channel = some far →
      wiring.contains channel = true) :
    ∃ next due, (Forwarding.cube rules).runRules node wiring.backend = (next, node.asking due) ∧
      b.Fires near node (.cube rules) next due := by
  have hgranted := h.granted_relays? hc
  refine ⟨.cube (rules.fired node), _, ?_,
    h.fires (.cube (rules.fired node)) (rules.relays? node) hgranted rfl rfl rfl rfl rfl rfl ?_⟩
  · rw [Forwarding.runRules, CubeForwarding.runRules_backend]
    intro rule request hmem
    exact wired_of_granted hwired (hgranted rule) request hmem
  · intro rule
    cases rule <;> rfl

end Cube

theorem hypercube_runRules {rules : HypercubeForwarding}
    (hc : b.Consistent near node (.hypercube rules))
    (hwired : ∀ {channel far}, node.boundPeer? channel = some far →
      wiring.contains channel = true) :
    ∃ next due, (Forwarding.hypercube rules).runRules node wiring.backend =
      (next, node.asking due) ∧
      b.Fires near node (.hypercube rules) next due := by
  have hprofile : b.topology.profile = .hypercube := hc.profile.symm
  have hprimed : ¬ b.Primed near node.ledger (.hypercube rules) := by
    rintro ⟨⟨fellow, hfellow, -⟩, -⟩
    have hcube := (h.fellow?_eq_some_iff.1 hfellow).1
    rw [hprofile] at hcube
    exact absurd hcube (by simp)
  have hgranted : ∀ rule, b.Granted near node (.hypercube rules) rule
      (rules.relays? node rule) := by
    intro rule
    cases rule with
    | fanout =>
      rw [HypercubeForwarding.relays?, HypercubeForwarding.partnerRelays?]
      cases hran : rules.partnerRelayed with
      | true => exact granted_of_ran hran
      | false =>
        cases hpartner : rules.partner.value with
        | none => exact granted_none (not_due_of_crossPartner? (.hypercube rules) hpartner .fanout)
        | some partner => exact h.granted_fanout hc hpartner hran
    | uplink => exact granted_none hprimed
    | cross => exact granted_none fun hdue => hprimed hdue.1
  have hfires := h.fires (.hypercube { rules with
      partnerRelayed := rules.partnerRelayed || (rules.partnerRelays? node).isSome })
    (rules.relays? node) hgranted rfl rfl rfl rfl rfl rfl (fun rule => by cases rule <;> rfl)
  refine ⟨_, _, ?_, hfires⟩
  rw [Forwarding.runRules, HypercubeForwarding.runRules_backend]
  · simp [HypercubeForwarding.relays?]
  · intro request hmem
    exact wired_of_granted hwired (hgranted .fanout) request hmem

/-- A node asks, whenever its rules run, for all that is due and for nothing else. -/
theorem runRules (hc : b.Consistent near node forwarding)
    (hwired : ∀ {channel far}, node.boundPeer? channel = some far →
      wiring.contains channel = true) :
    ∃ next due, forwarding.runRules node wiring.backend = (next, node.asking due) ∧
      b.Fires near node forwarding next due := by
  cases forwarding with
  | pair => exact absurd hc.profile.symm h.profile
  | cube rules => exact h.cube_runRules hc hwired
  | hypercube rules => exact h.hypercube_runRules hc hwired

end Valid

end Blueprint

end MeshFormation
