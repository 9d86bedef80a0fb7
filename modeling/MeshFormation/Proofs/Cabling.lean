import MeshFormation.Cabling
import Mathlib.Algebra.Group.Nat.Defs

/-!
# The wiring of a list of links

Links are wired one after the other. As long as no node has more cables than there are channel
numbers, every cable gets a number of its own at each end, the two ends name each other, and the
ends listed by `Cabling.ends` are exactly the wired channels.
-/

namespace MeshFormation.Cabling

def farEnd? (cabling : Cabling) (node : Rank) (channel : Channel) : Option (Rank × Channel) :=
  (cabling.wiringOf node).get? channel

def touches (node : Rank) (link : Link) : Bool := link.1 == node || link.2 == node

/-- No node has more cables than there are channel numbers. -/
def Fits (links : List Link) : Prop := ∀ node, links.countP (touches node) ≤ 2 ^ 32

theorem fits_of_length {links : List Link} (h : links.length ≤ 2 ^ 32) : Fits links :=
  fun _ => Nat.le_trans List.countP_le_length h

/-- The channels of every node are numbered without gaps, and the ends of a cable name each
other. -/
structure Sound (cabling : Cabling) : Prop where
  dense : ∀ node channel,
    (cabling.farEnd? node channel).isSome ↔ channel.toNat < (cabling.wiringOf node).size
  symmetric : ∀ {node channel peer farChannel},
    cabling.farEnd? node channel = some (peer, farChannel) →
      cabling.farEnd? peer farChannel = some (node, channel)

def Room (cabling : Cabling) (links : List Link) : Prop :=
  ∀ node, (cabling.wiringOf node).size + links.countP (touches node) ≤ 2 ^ 32

theorem wiringOf_wire (cabling : Cabling) (node other : Rank) (channel : Channel)
    (far : Rank × Channel) :
    (cabling.wire node channel far).wiringOf other =
      if other = node then (cabling.wiringOf node).insert channel far
      else cabling.wiringOf other := by
  simp only [wiringOf, wire, Table.get?_insert]
  split <;> rfl

theorem farEnd?_wire (cabling : Cabling) (node other : Rank) (channel c : Channel)
    (far : Rank × Channel) :
    (cabling.wire node channel far).farEnd? other c =
      if other = node ∧ c = channel then some far else cabling.farEnd? other c := by
  rw [farEnd?, wiringOf_wire]
  by_cases hnode : other = node
  · subst hnode
    simp [farEnd?]
  · simp [hnode, farEnd?]

theorem farEnd?_add (cabling : Cabling) (link : Link) (node : Rank) (channel : Channel) :
    (cabling.add link).farEnd? node channel =
      if node = link.2 ∧ channel = cabling.nextChannel link.2 then
        some (link.1, cabling.nextChannel link.1)
      else if node = link.1 ∧ channel = cabling.nextChannel link.1 then
        some (link.2, cabling.nextChannel link.2)
      else cabling.farEnd? node channel := by
  simp only [add, farEnd?_wire]

theorem toNat_nextChannel {cabling : Cabling} {node : Rank}
    (h : (cabling.wiringOf node).size < 2 ^ 32) :
    (cabling.nextChannel node).toNat = (cabling.wiringOf node).size := by
  rw [nextChannel, UInt32.toNat_ofNat']
  exact Nat.mod_eq_of_lt h

theorem Sound.farEnd?_nextChannel {cabling : Cabling} (hsound : cabling.Sound) {node : Rank}
    (h : (cabling.wiringOf node).size < 2 ^ 32) :
    cabling.farEnd? node (cabling.nextChannel node) = none := by
  have hdense := hsound.dense node (cabling.nextChannel node)
  rw [toNat_nextChannel h] at hdense
  exact Option.not_isSome_iff_eq_none.1 fun hsome => Nat.lt_irrefl _ (hdense.1 hsome)

theorem Room.lt {cabling : Cabling} {link : Link} {rest : List Link}
    (h : cabling.Room (link :: rest)) {node : Rank} (htouch : touches node link = true) :
    (cabling.wiringOf node).size < 2 ^ 32 := by
  have hroom := h node
  rw [List.countP_cons_of_pos htouch] at hroom
  omega

theorem touches_left (link : Link) : touches link.1 link = true := by simp [touches]

theorem touches_right (link : Link) : touches link.2 link = true := by simp [touches]

theorem Room.nextChannels_free {cabling : Cabling} (hsound : cabling.Sound) {link : Link}
    {rest : List Link} (h : cabling.Room (link :: rest)) :
    cabling.farEnd? link.1 (cabling.nextChannel link.1) = none ∧
      cabling.farEnd? link.2 (cabling.nextChannel link.2) = none :=
  ⟨hsound.farEnd?_nextChannel (h.lt (touches_left link)),
    hsound.farEnd?_nextChannel (h.lt (touches_right link))⟩

/-- A wired channel keeps its far end when further links are added. -/
theorem farEnd?_add_of_some {cabling : Cabling} (hsound : cabling.Sound) {link : Link}
    {rest : List Link} (hroom : cabling.Room (link :: rest)) {node : Rank} {channel : Channel}
    {far : Rank × Channel} (h : cabling.farEnd? node channel = some far) :
    (cabling.add link).farEnd? node channel = some far := by
  obtain ⟨hfirst, hsecond⟩ := hroom.nextChannels_free hsound
  rw [farEnd?_add, if_neg, if_neg, h]
  · rintro ⟨rfl, rfl⟩
    rw [hfirst] at h
    exact absurd h (by simp)
  · rintro ⟨rfl, rfl⟩
    rw [hsecond] at h
    exact absurd h (by simp)

theorem size_wiringOf_add {cabling : Cabling} (hsound : cabling.Sound) {link : Link}
    {rest : List Link} (hroom : cabling.Room (link :: rest)) (node : Rank) :
    ((cabling.add link).wiringOf node).size =
      (cabling.wiringOf node).size + if touches node link then 1 else 0 := by
  obtain ⟨hfirst, hsecond⟩ := hroom.nextChannels_free hsound
  obtain ⟨a, b⟩ := link
  have hfree : ∀ n, cabling.farEnd? n (cabling.nextChannel n) = none →
      (cabling.wiringOf n).contains (cabling.nextChannel n) = false := fun n hn => by
    rw [Table.contains_eq_isSome]
    simpa [farEnd?] using hn
  have hfirst := hfree _ hfirst
  have hsecond := hfree _ hsecond
  simp only [add, wiringOf_wire, touches]
  by_cases hb : node = b
  · subst hb
    by_cases ha : node = a
    · subst ha
      simp only [if_true, Table.size_insert]
      simp [hfirst, Table.contains_eq_isSome]
    · simp [ha, Table.size_insert, hsecond]
  · by_cases ha : node = a
    · subst ha
      simp [hb, Table.size_insert, hfirst]
    · simp [hb, ha, Ne.symm hb, Ne.symm ha]

theorem Room.add {cabling : Cabling} (hsound : cabling.Sound) {link : Link} {rest : List Link}
    (hroom : cabling.Room (link :: rest)) : (cabling.add link).Room rest := by
  intro node
  have h := hroom node
  rw [size_wiringOf_add hsound hroom]
  rw [List.countP_cons] at h
  omega

theorem Sound.add {cabling : Cabling} (hsound : cabling.Sound) {link : Link} {rest : List Link}
    (hroom : cabling.Room (link :: rest)) : (cabling.add link).Sound where
  dense node channel := by
    have hold := hsound.dense node channel
    rw [size_wiringOf_add hsound hroom, farEnd?_add]
    by_cases htouch : touches node link
    · have hnext := toNat_nextChannel (hroom.lt htouch)
      rw [if_pos htouch]
      by_cases hchannel : channel = cabling.nextChannel node
      · subst hchannel
        have : node = link.2 ∨ node = link.1 := by
          simp only [touches, Bool.or_eq_true, beq_iff_eq] at htouch
          exact htouch.symm.imp Eq.symm Eq.symm
        rcases this with rfl | rfl
        · simp [hnext]
        · split <;> simp [hnext]
      · have hne : channel.toNat ≠ (cabling.wiringOf node).size := by
          rw [← hnext]
          exact fun h => hchannel (UInt32.toNat_inj.1 h)
        rw [if_neg, if_neg, hold]
        · omega
        · rintro ⟨rfl, h⟩
          exact hchannel h
        · rintro ⟨rfl, h⟩
          exact hchannel h
    · rw [if_neg htouch, if_neg, if_neg, hold, Nat.add_zero]
      · rintro ⟨rfl, -⟩
        exact htouch (touches_left link)
      · rintro ⟨rfl, -⟩
        exact htouch (touches_right link)
  symmetric := by
    intro node channel peer farChannel h
    rw [farEnd?_add] at h
    split at h
    · rename_i heq
      obtain ⟨rfl, rfl⟩ := heq
      obtain ⟨rfl, rfl⟩ := Prod.mk.inj (Option.some.inj h)
      rw [farEnd?_add]
      split
      · rename_i heq
        rw [← heq.1]
      · simp
    · split at h
      · rename_i heq
        obtain ⟨rfl, rfl⟩ := heq
        obtain ⟨rfl, rfl⟩ := Prod.mk.inj (Option.some.inj h)
        rw [farEnd?_add]
        simp
      · exact farEnd?_add_of_some hsound hroom (hsound.symmetric h)

/-- Adding links keeps a cabling sound and keeps what was wired before. -/
theorem Sound.foldl_add {cabling : Cabling} (hsound : cabling.Sound) {links : List Link}
    (hroom : cabling.Room links) :
    (links.foldl Cabling.add cabling).Sound ∧ ∀ node channel far,
      cabling.farEnd? node channel = some far →
        (links.foldl Cabling.add cabling).farEnd? node channel = some far := by
  induction links generalizing cabling with
  | nil => exact ⟨hsound, fun _ _ _ h => h⟩
  | cons link rest ih =>
    obtain ⟨hnext, hkeep⟩ := ih (hsound.add hroom) (hroom.add hsound)
    exact ⟨hnext, fun _ _ _ h => hkeep _ _ _ (farEnd?_add_of_some hsound hroom h)⟩

theorem farEnd?_empty (node : Rank) (channel : Channel) : empty.farEnd? node channel = none := rfl

theorem size_wiringOf_empty (node : Rank) : (empty.wiringOf node).size = 0 := Table.size_empty

theorem sound_empty : empty.Sound where
  dense node channel := by
    rw [farEnd?_empty, size_wiringOf_empty]
    simp
  symmetric h := by simp [farEnd?_empty] at h

theorem Fits.room {links : List Link} (h : Fits links) : empty.Room links := fun node => by
  rw [size_wiringOf_empty, Nat.zero_add]
  exact h node

theorem sound_ofLinks {links : List Link} (h : Fits links) : (ofLinks links).Sound :=
  (sound_empty.foldl_add h.room).1

/-- The listed ends are the channels that the links wire. -/
theorem mem_endsFrom_iff {cabling : Cabling} (hsound : cabling.Sound) {links : List Link}
    (hroom : cabling.Room links) {cableEnd : CableEnd} :
    cableEnd ∈ cabling.endsFrom links ↔
      cabling.farEnd? cableEnd.node cableEnd.channel = none ∧
        ∃ far, (links.foldl add cabling).farEnd? cableEnd.node cableEnd.channel =
          some (cableEnd.peer, far) := by
  induction links generalizing cabling with
  | nil =>
    simp only [endsFrom, List.not_mem_nil, List.foldl_nil, false_iff, not_and, not_exists]
    intro h far
    simp [h]
  | cons link rest ih =>
    obtain ⟨hfirst, hsecond⟩ := hroom.nextChannels_free hsound
    have hkeep := ((hsound.add hroom).foldl_add (hroom.add hsound)).2
    rw [endsFrom, List.mem_append, ih (hsound.add hroom) (hroom.add hsound), List.foldl_cons]
    constructor
    · rintro (hmem | ⟨hnone, hfar⟩)
      · simp only [nextEnds, List.mem_cons, List.not_mem_nil, or_false] at hmem
        rcases hmem with rfl | rfl
        · refine ⟨hfirst, cabling.nextChannel link.2, hkeep _ _ _ ?_⟩
          rw [farEnd?_add]
          split
          · rename_i heq
            simp only at heq
            rw [heq.1]
          · simp
        · refine ⟨hsecond, cabling.nextChannel link.1, hkeep _ _ _ ?_⟩
          rw [farEnd?_add]
          simp
      · refine ⟨?_, hfar⟩
        cases hold : cabling.farEnd? cableEnd.node cableEnd.channel with
        | none => rfl
        | some far =>
          rw [farEnd?_add_of_some hsound hroom hold] at hnone
          exact absurd hnone (by simp)
    · rintro ⟨hnone, far, hfar⟩
      cases hadd : (cabling.add link).farEnd? cableEnd.node cableEnd.channel with
      | none => exact .inr ⟨rfl, far, hfar⟩
      | some end' =>
        left
        have heq : end' = (cableEnd.peer, far) :=
          Option.some.inj ((hkeep _ _ _ hadd).symm.trans hfar)
        rw [heq, farEnd?_add] at hadd
        obtain ⟨node, channel, peer⟩ := cableEnd
        simp only [nextEnds, List.mem_cons, List.not_mem_nil, or_false, CableEnd.mk.injEq]
        split at hadd
        · rename_i hend
          exact .inr ⟨hend.1, hend.2, (Prod.mk.inj (Option.some.inj hadd)).1.symm⟩
        · split at hadd
          · rename_i hend
            exact .inl ⟨hend.1, hend.2, (Prod.mk.inj (Option.some.inj hadd)).1.symm⟩
          · rw [hnone] at hadd
            exact absurd hadd (by simp)

/-- A cable end is listed exactly if the channel is wired to the peer. -/
theorem mem_ends_iff {links : List Link} (h : Fits links) {cableEnd : CableEnd} :
    cableEnd ∈ ends links ↔
      ∃ far, (ofLinks links).farEnd? cableEnd.node cableEnd.channel =
        some (cableEnd.peer, far) := by
  rw [ends, mem_endsFrom_iff sound_empty h.room]
  simp [farEnd?_empty, ofLinks]

theorem length_ends (links : List Link) : (ends links).length = 2 * links.length := by
  have hfrom : ∀ cabling : Cabling, (cabling.endsFrom links).length = 2 * links.length := by
    induction links with
    | nil => exact fun _ => rfl
    | cons link rest ih =>
      intro cabling
      rw [endsFrom, List.length_append, ih, List.length_cons, nextEnds, List.length_cons,
        List.length_cons, List.length_nil]
      omega
  exact hfrom empty

end MeshFormation.Cabling
