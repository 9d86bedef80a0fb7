import MeshFormation.Proofs.Forwarding.Relays
import MeshFormation.Proofs.Ledger.Lookup
import Mathlib.Data.List.Nodup

/-!
# What a rule asks for when it is due

Each rule asks for one transmit for each of several peers, in terms of the channels on which peers
are heard: the partner's data to every chassis mate, the data of every inner mate to the partner,
and the data of one node behind the partner to every inner mate. A rule is due only once these
channels are known.
-/

namespace MeshFormation

/-! ## The choice between two inner nodes -/

section Choice

variable {node fellow first second candidate : Rank} {candidates : List Rank}

theorem crossChoice_eq_some (h : crossChoice node fellow candidates = some candidate) :
    candidate ∈ candidates ∧ ∃ first second, candidates = [first, second] ∧ first ≠ second := by
  unfold crossChoice at h
  split at h
  · rename_i first second
    split at h
    · exact absurd h (by simp)
    · rename_i hne
      refine ⟨?_, first, second, rfl, hne⟩
      split at h <;> obtain rfl := Option.some.inj h <;> split <;> simp
  · exact absurd h (by simp)

/-- Two nodes that choose from the same candidates choose differently. -/
theorem crossChoice_ne (hne : node ≠ fellow) (h : crossChoice node fellow candidates = some first)
    (h' : crossChoice fellow node candidates = some second) : first ≠ second := by
  obtain ⟨-, one, other, rfl, hdiff⟩ := crossChoice_eq_some h
  simp only [crossChoice, if_neg hdiff] at h h'
  rcases UInt32.lt_or_lt_of_ne hne with hlt | hlt
  · rw [if_neg (UInt32.not_lt.2 (UInt32.le_of_lt hlt))] at h
    rw [if_pos hlt] at h'
    rw [← Option.some.inj h, ← Option.some.inj h']
    split
    · exact hdiff.symm
    · exact hdiff
  · rw [if_pos hlt] at h
    rw [if_neg (UInt32.not_lt.2 (UInt32.le_of_lt hlt))] at h'
    rw [← Option.some.inj h, ← Option.some.inj h']
    split
    · exact hdiff
    · exact hdiff.symm

/-- Of two candidates each is chosen by one of the two nodes. -/
theorem crossChoice_or (hne : node ≠ fellow) (hdiff : first ≠ second)
    (hmem : candidate = first ∨ candidate = second) :
    crossChoice node fellow [first, second] = some candidate ∨
      crossChoice fellow node [first, second] = some candidate := by
  simp only [crossChoice, if_neg hdiff]
  rcases UInt32.lt_or_lt_of_ne hne with hlt | hlt
  · rw [if_neg (UInt32.not_lt.2 (UInt32.le_of_lt hlt)), if_pos hlt]
    rcases hmem with rfl | rfl <;> split <;> simp
  · rw [if_pos hlt, if_neg (UInt32.not_lt.2 (UInt32.le_of_lt hlt))]
    rcases hmem with rfl | rfl <;> split <;> simp

end Choice

/-! ## Lookups in a row -/

theorem mapM_eq {α β : Type} (f : α → Option β) (list : List α) :
    list.mapM f =
      if list.all fun item => (f item).isSome then some (list.filterMap f) else none := by
  induction list with
  | nil => rfl
  | cons item rest ih =>
    rw [List.mapM_cons, ih]
    cases hitem : f item with
    | none => simp [hitem]
    | some value =>
      by_cases hall : (rest.all fun item => (f item).isSome) = true
      · simp [hitem, hall]
      · simp [hitem, hall]

/-- Lookups in a row succeed where each of them does. -/
theorem mapM_eq_some_iff {α β : Type} {lookup : α → Option β} {list : List α} {values : List β} :
    list.mapM lookup = some values ↔ list.map lookup = values.map some := by
  induction list generalizing values with
  | nil => cases values <;> simp
  | cons item rest ih =>
    rw [List.mapM_cons]
    cases hitem : lookup item with
    | none => cases values <;> simp [hitem]
    | some value =>
      cases values with
      | nil => cases rest.mapM lookup <;> simp
      | cons first others =>
        cases hrest : rest.mapM lookup with
        | none =>
          have hno : rest.map lookup ≠ others.map some := fun hsame => by
            rw [ih.2 hsame] at hrest
            exact absurd hrest (by simp)
          simp [hitem, hno]
        | some found =>
          have hfound := ih.1 hrest
          simp [hitem, hfound, List.map_inj_right]

theorem length_of_mapM {α β : Type} {lookup : α → Option β} {list : List α} {values : List β}
    (h : list.mapM lookup = some values) : values.length = list.length := by
  have hlength := congrArg List.length (mapM_eq_some_iff.1 h)
  rwa [List.length_map, List.length_map, eq_comm] at hlength

theorem exists_of_mem_mapM {α β : Type} {lookup : α → Option β} {list : List α} {values : List β}
    (h : list.mapM lookup = some values) {value : β} (hvalue : value ∈ values) :
    ∃ item ∈ list, lookup item = some value := by
  have hmem : some value ∈ list.map lookup := mapM_eq_some_iff.1 h ▸ List.mem_map_of_mem hvalue
  exact List.mem_map.1 hmem

/-- What is found in a row is found once if no two items lead to it. -/
theorem nodup_of_mapM {α β : Type} {lookup : α → Option β} {list : List α} {values : List β}
    (h : list.mapM lookup = some values) (hnodup : list.Nodup)
    (hapart : ∀ {first second value}, first ∈ list → second ∈ list → lookup first = some value →
      lookup second = some value → first = second) : values.Nodup := by
  have hmap := mapM_eq_some_iff.1 h
  have hlist : (list.map lookup).Nodup := by
    apply hnodup.map_on
    intro first hfirst second hsecond hsame
    have hfound : lookup first ∈ values.map some := hmap ▸ List.mem_map_of_mem hfirst
    obtain ⟨value, -, hvalue⟩ := List.mem_map.1 hfound
    exact hapart hfirst hsecond hvalue.symm (hsame.symm.trans hvalue.symm)
  rw [hmap] at hlist
  exact hlist.of_map _

theorem mapM_mono {α β : Type} {lookup other : α → Option β} {list : List α} {values : List β}
    (hother : ∀ {item value}, item ∈ list → lookup item = some value → other item = some value)
    (h : list.mapM lookup = some values) : list.mapM other = some values := by
  rw [mapM_eq_some_iff] at h ⊢
  rw [← h]
  apply List.map_congr_left
  intro item hitem
  have hmem : lookup item ∈ values.map some := h ▸ List.mem_map_of_mem hitem
  obtain ⟨value, -, hvalue⟩ := List.mem_map.1 hmem
  rw [← hvalue]
  exact hother hitem hvalue.symm

namespace Ledger

variable {ledger next : Ledger} {source peer : Rank} {peers : List Rank}
  {requests : List RelayRequest}

/-- The request for the data of a source on the channel on which a peer is heard. -/
def relay? (ledger : Ledger) (source peer : Rank) : Option RelayRequest :=
  (ledger.input? peer).map fun channel => (source, channel)

theorem relay?_eq_some_iff {request : RelayRequest} : ledger.relay? source peer = some request ↔
    source = request.1 ∧ ledger.input? peer = some request.2 := by
  obtain ⟨first, channel⟩ := request
  rw [relay?, Option.map_eq_some_iff]
  constructor
  · rintro ⟨found, hfound, hsame⟩
    obtain ⟨rfl, rfl⟩ := Prod.mk.inj hsame
    exact ⟨rfl, hfound⟩
  · rintro ⟨rfl, hchannel⟩
    exact ⟨channel, hchannel, rfl⟩

theorem mapM_relay? (ledger : Ledger) (source : Rank) (peers : List Rank) :
    peers.mapM (ledger.relay? source) =
      (peers.mapM ledger.input?).map fun channels => channels.map fun channel =>
        (source, channel) := by
  induction peers with
  | nil => rfl
  | cons peer rest ih =>
    rw [List.mapM_cons, List.mapM_cons, ih, relay?]
    cases ledger.input? peer with
    | none => rfl
    | some channel => cases rest.mapM ledger.input? <;> rfl

/-- Where inputs stay, requests stay. -/
theorem relay?_mono (hinput : ∀ {peer channel}, ledger.input? peer = some channel →
    next.input? peer = some channel) {request : RelayRequest}
    (h : ledger.relay? source peer = some request) : next.relay? source peer = some request := by
  rw [relay?_eq_some_iff] at h ⊢
  exact ⟨h.1, hinput h.2⟩

end Ledger

namespace Forwarding

variable {forwarding : Forwarding} {node : Node} {partner fellow other : Rank}
  {requests : List RelayRequest}

/-- The other outer node of the local chassis, once exactly one announced itself. -/
def fellow? : Forwarding → Node → Option Rank
  | cube rules, node => rules.fellow? node
  | _, _ => none

/-- The fellow is a chassis mate that announced itself, and the only one. -/
theorem of_fellow?_eq_some (h : forwarding.fellow? node = some fellow) :
    (fellow ∈ node.topology.chassisMates node.rank ∧ forwarding.hears fellow = true) ∧
      ∀ other ∈ node.topology.chassisMates node.rank, forwarding.hears other = true →
        other = fellow := by
  cases forwarding with
  | pair => exact absurd h (by simp [fellow?])
  | hypercube rules => exact absurd h (by simp [fellow?])
  | cube rules =>
    simp only [fellow?, CubeForwarding.fellow?] at h
    have hmem : ∀ {rank}, rank ∈ rules.announcers.keys.filter
        (node.topology.chassisMates node.rank).contains ↔
          rules.announcers.contains rank = true ∧ rank ∈ node.topology.chassisMates node.rank := by
      intro rank
      rw [List.mem_filter, Table.mem_keys_iff, List.contains_iff_mem]
    split at h
    · rename_i rank hlist
      obtain rfl := Option.some.inj h
      simp only [hlist, List.mem_singleton] at hmem
      refine ⟨(hmem.1 rfl).symm, fun other hmate hheard => hmem.2 ⟨hheard, hmate⟩⟩
    · exact absurd h (by simp)

theorem mapM_of_partnerFanout? (h : node.partnerFanout? partner = some requests) :
    (node.topology.chassisMates node.rank).mapM (node.ledger.relay? partner) = some requests := by
  unfold Node.partnerFanout? at h
  dsimp only at h
  split at h
  · rename_i hdirect
    rw [Bool.and_eq_true, List.all_eq_true] at hdirect
    have hheard : ((node.topology.chassisMates node.rank).all fun mate =>
        (node.ledger.input? mate).isSome) = true := by
      rw [List.all_eq_true]
      exact fun mate hmate => (Ledger.exchangesDirectly_iff.1 (hdirect.2 mate hmate)).1
    rw [Ledger.mapM_relay?, mapM_eq, if_pos hheard, ← Option.some.inj h]
    rfl
  · exact absurd h (by simp)

/-- The first rule asks for the partner's data on the channel of every chassis mate. -/
theorem of_fanout_due (h : forwarding.relays? node .fanout = some requests) :
    forwarding.ran .fanout = false ∧ ∃ partner, forwarding.crossPartner? = some partner ∧
      (node.topology.chassisMates node.rank).mapM (node.ledger.relay? partner) = some requests := by
  cases forwarding with
  | pair => exact absurd h (by simp [relays?])
  | cube rules =>
    simp only [relays?, CubeForwarding.relays?, Option.bind_eq_some_iff,
      CubeForwarding.partnerRelays?] at h
    obtain ⟨partner, hpartner, hfanout⟩ := h
    split at hfanout
    · exact absurd hfanout (by simp)
    · rename_i hran
      exact ⟨Bool.eq_false_iff.2 hran, partner, hpartner, mapM_of_partnerFanout? hfanout⟩
  | hypercube rules =>
    simp only [relays?, HypercubeForwarding.relays?, HypercubeForwarding.partnerRelays?] at h
    split at h
    · exact absurd h (by simp)
    · rename_i hran
      obtain ⟨partner, hpartner, hfanout⟩ := Option.bind_eq_some_iff.1 h
      exact ⟨Bool.eq_false_iff.2 hran, partner, hpartner, mapM_of_partnerFanout? hfanout⟩

theorem of_gate?_eq_some {rules : CubeForwarding} {uplink : Channel}
    (h : rules.gate? node = some (partner, fellow, uplink)) :
    rules.role.partner? = some partner ∧ rules.fellow? node = some fellow ∧
      node.ledger.input? partner = some uplink := by
  simp only [CubeForwarding.gate?, Option.bind_eq_some_iff, Option.map_eq_some_iff] at h
  obtain ⟨partner, hpartner, fellow, hfellow, uplink, huplink, hsame⟩ := h
  obtain ⟨rfl, rfl, rfl⟩ : partner = _ ∧ fellow = _ ∧ uplink = _ := by simpa using hsame
  exact ⟨hpartner, hfellow, huplink⟩

/-- The second rule asks for the data of every inner mate on the channel of the partner. -/
theorem of_uplink_due (h : forwarding.relays? node .uplink = some requests) :
    forwarding.ran .uplink = false ∧ ∃ partner fellow, forwarding.crossPartner? = some partner ∧
      forwarding.fellow? node = some fellow ∧
        (innerNodes (node.topology.chassisMates node.rank) fellow).mapM
          (fun peer => node.ledger.relay? peer partner) = some requests := by
  cases forwarding with
  | pair => exact absurd h (by simp [relays?])
  | hypercube rules => exact absurd h (by simp [relays?, HypercubeForwarding.relays?])
  | cube rules =>
    simp only [relays?, CubeForwarding.relays?, Option.bind_eq_some_iff] at h
    obtain ⟨⟨partner, fellow, uplink⟩, hgate, hrelays⟩ := h
    obtain ⟨hpartner, hfellow, huplink⟩ := of_gate?_eq_some hgate
    rw [CubeForwarding.uplinkRelays?] at hrelays
    split at hrelays
    · exact absurd hrelays (by simp)
    · rename_i hdue
      have hran : rules.uplinkRelayed = false := by
        rw [Bool.or_eq_true, not_or] at hdue
        exact Bool.eq_false_iff.2 hdue.1
      refine ⟨hran, partner, fellow, hpartner, hfellow, ?_⟩
      rw [mapM_eq_some_iff, ← Option.some.inj hrelays, List.map_map]
      apply List.map_congr_left
      intro peer _
      rw [Ledger.relay?, huplink]
      rfl

/-- The third rule asks for the data of a source that is heard where the partner is heard, on the
channel of every inner mate. By then the second rule has run or is due. -/
theorem of_cross_due (h : forwarding.relays? node .cross = some requests) :
    forwarding.ran .cross = false ∧
      (forwarding.ran .uplink = true ∨ (forwarding.relays? node .uplink).isSome = true) ∧
        ∃ partner fellow far, forwarding.crossPartner? = some partner ∧
          forwarding.fellow? node = some fellow ∧
            (innerNodes (node.topology.chassisMates node.rank) fellow).mapM
              (node.ledger.relay? far) = some requests ∧
                far ≠ partner ∧ ∃ uplink, node.ledger.input? partner = some uplink ∧
                  node.ledger.input? far = some uplink := by
  cases forwarding with
  | pair => exact absurd h (by simp [relays?])
  | hypercube rules => exact absurd h (by simp [relays?, HypercubeForwarding.relays?])
  | cube rules =>
    simp only [relays?, CubeForwarding.relays?, Option.bind_eq_some_iff] at h
    obtain ⟨⟨partner, fellow, uplink⟩, hgate, hrelays⟩ := h
    obtain ⟨hpartner, hfellow, huplink⟩ := of_gate?_eq_some hgate
    rw [CubeForwarding.crossRelays?] at hrelays
    split at hrelays
    · exact absurd hrelays (by simp)
    rename_i hran
    split at hrelays
    · exact absurd hrelays (by simp)
    rename_i far hchoice
    obtain ⟨hheard, hother⟩ := List.mem_filter.1 (crossChoice_eq_some hchoice).1
    have hknown : ((innerNodes (node.topology.chassisMates node.rank) fellow).all fun peer =>
        (node.ledger.input? peer).isSome) = true := by
      rw [mapM_eq] at hrelays
      split at hrelays
      · assumption
      · exact absurd hrelays (by simp)
    refine ⟨Bool.eq_false_iff.2 hran, ?_, partner, fellow, far, hpartner, hfellow, ?_,
      bne_iff_ne.1 hother, uplink, huplink, Ledger.mem_heardOn_iff.1 hheard⟩
    · cases hran' : rules.uplinkRelayed with
      | true => exact .inl hran'
      | false =>
        right
        rw [relays?, CubeForwarding.relays?, hgate, Option.bind_some]
        dsimp only
        rw [CubeForwarding.uplinkRelays?, hran', hknown]
        rfl
    · rw [Ledger.mapM_relay?]
      exact hrelays

/-- A rule is due only if it has not run, and only at a node that knows its partner. -/
theorem of_due {rule : RelayRule} (h : forwarding.relays? node rule = some requests) :
    forwarding.ran rule = false ∧ forwarding.crossPartner?.isSome = true := by
  cases rule with
  | fanout =>
    obtain ⟨hran, partner, hpartner, -⟩ := of_fanout_due h
    exact ⟨hran, hpartner ▸ rfl⟩
  | uplink =>
    obtain ⟨hran, partner, fellow, hpartner, -⟩ := of_uplink_due h
    exact ⟨hran, hpartner ▸ rfl⟩
  | cross =>
    obtain ⟨hran, -, partner, fellow, far, hpartner, -⟩ := of_cross_due h
    exact ⟨hran, hpartner ▸ rfl⟩

end Forwarding

end MeshFormation
