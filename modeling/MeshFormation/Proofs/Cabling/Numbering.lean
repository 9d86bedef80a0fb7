import MeshFormation.Proofs.Fabric.Start

/-!
# How the channels of a node are numbered

The links of a node take its channels 0, 1, 2 and so on, in the order of the list. A link from a
node to itself is one link of the node and takes one channel, and each of several links between two
nodes takes a channel of its own at both. As channels have 32 bits, this ends after 2 ^ 32 links of
one node: the links fit exactly if they can be numbered at all.
-/

namespace MeshFormation

namespace Cabling

variable {cabling : Cabling} {links : List Link} {link : Link} {node : Rank}
  {index other number : Nat}

/-! ## Places among the links of a node -/

/-- How many links of a node come before an index of the list. -/
def earlier (links : List Link) (node : Rank) (index : Nat) : Nat :=
  (links.take index).countP (touches node)

theorem earlier_cons_succ (link : Link) (links : List Link) (node : Rank) (index : Nat) :
    earlier (link :: links) node (index + 1) =
      earlier links node index + if touches node link then 1 else 0 := by
  rw [earlier, List.take_succ_cons, List.countP_cons, earlier]

theorem earlier_lt_countP (hlink : links[index]? = some link) (htouch : touches node link = true) :
    earlier links node index < links.countP (touches node) := by
  obtain ⟨hlt, rfl⟩ := List.getElem?_eq_some_iff.1 hlink
  have hsplit : links.countP (touches node) =
      earlier links node index + (links.drop index).countP (touches node) := by
    rw [earlier, ← List.countP_append, List.take_append_drop]
  have hpos : 0 < (links.drop index).countP (touches node) :=
    List.countP_pos_iff.2 ⟨_, List.mem_drop_iff_getElem.2 ⟨0, by omega, rfl⟩, htouch⟩
  omega

theorem earlier_lt_earlier (hlt : index < other) (hlink : links[index]? = some link)
    (htouch : touches node link = true) : earlier links node index < earlier links node other := by
  have htaken : (links.take other)[index]? = some link := by
    rw [List.getElem?_take_of_lt hlt, hlink]
  have h := earlier_lt_countP htaken htouch
  rwa [earlier, List.take_take, Nat.min_eq_left hlt.le] at h

/-- Two links of a node have different places among its links. -/
theorem eq_of_earlier_eq {otherLink : Link} (hlink : links[index]? = some link)
    (hother : links[other]? = some otherLink) (htouch : touches node link = true)
    (htouch' : touches node otherLink = true)
    (heq : earlier links node index = earlier links node other) : index = other := by
  rcases Nat.lt_trichotomy index other with hlt | rfl | hlt
  · exact absurd heq (Nat.ne_of_lt (earlier_lt_earlier hlt hlink htouch))
  · rfl
  · exact absurd heq.symm (Nat.ne_of_lt (earlier_lt_earlier hlt hother htouch'))

/-- Every place among the links of a node is that of one of them. -/
theorem exists_earlier_eq (h : number < links.countP (touches node)) :
    ∃ index link, links[index]? = some link ∧ touches node link = true ∧
      earlier links node index = number := by
  induction links generalizing number with
  | nil => exact absurd h (Nat.not_lt_zero _)
  | cons first rest ih =>
    rw [List.countP_cons] at h
    by_cases htouch : touches node first = true
    · cases number with
      | zero => exact ⟨0, first, rfl, htouch, rfl⟩
      | succ number =>
        rw [if_pos htouch] at h
        obtain ⟨index, link, hlink, hlinkTouch, rfl⟩ := ih (Nat.lt_of_succ_lt_succ h)
        exact ⟨index + 1, link, hlink, hlinkTouch, by rw [earlier_cons_succ, if_pos htouch]⟩
    · rw [if_neg htouch] at h
      obtain ⟨index, link, hlink, hlinkTouch, rfl⟩ := ih h
      exact ⟨index + 1, link, hlink, hlinkTouch, by rw [earlier_cons_succ, if_neg htouch]; rfl⟩

/-! ## The channels of the links -/

/-- The channel of a node on which the link at an index ends. -/
def channelAt (links : List Link) (node : Rank) (index : Nat) : Channel :=
  UInt32.ofNat (earlier links node index)

/-- The channels of every node are numbered in the order of its links. -/
structure NumberedBy (cabling : Cabling) (links : List Link) : Prop where
  /-- The number of a channel is how many links of the node come before its own. -/
  inOrder : ∀ {node index link}, links[index]? = some link → touches node link = true →
    (channelAt links node index).toNat = earlier links node index
  /-- Both ends of a link are wired, each to the other. -/
  wired : ∀ {index link}, links[index]? = some link →
    cabling.farEnd? link.1 (channelAt links link.1 index) =
        some (link.2, channelAt links link.2 index) ∧
      cabling.farEnd? link.2 (channelAt links link.2 index) =
        some (link.1, channelAt links link.1 index)
  /-- There are no gaps, and no more channels than links. -/
  dense : ∀ node channel, (cabling.farEnd? node channel).isSome = true ↔
    channel.toNat < links.countP (touches node)
  /-- No two links end on one channel. -/
  own : ∀ {node index other link otherLink}, links[index]? = some link →
    links[other]? = some otherLink → touches node link = true → touches node otherLink = true →
      channelAt links node index = channelAt links node other → index = other
  /-- The two ends of a cable name each other. -/
  involutive : ∀ {node channel peer farChannel},
    cabling.farEnd? node channel = some (peer, farChannel) →
      cabling.farEnd? peer farChannel = some (node, channel)

/-- Links that do not fit cannot be numbered, as there are no more channels. -/
theorem NumberedBy.fits (h : cabling.NumberedBy links) : Fits links := by
  intro node
  refine Nat.le_of_not_lt fun hlt => ?_
  obtain ⟨index, link, hlink, htouch, hnumber⟩ := exists_earlier_eq hlt
  have hword := (channelAt links node index).toNat_lt
  rw [h.inOrder hlink htouch, hnumber] at hword
  exact absurd hword (Nat.lt_irrefl _)

theorem toNat_channelAt (hfits : Fits links) (hlink : links[index]? = some link)
    (htouch : touches node link = true) :
    (channelAt links node index).toNat = earlier links node index := by
  rw [channelAt, UInt32.toNat_ofNat']
  exact Nat.mod_eq_of_lt (Nat.lt_of_lt_of_le (earlier_lt_countP hlink htouch) (hfits node))

/-! ## Wiring one link after the other -/

theorem size_wiringOf_foldl_add (hsound : cabling.Sound) (hroom : cabling.Room links)
    (node : Rank) :
    ((links.foldl add cabling).wiringOf node).size =
      (cabling.wiringOf node).size + links.countP (touches node) := by
  induction links generalizing cabling with
  | nil => rfl
  | cons link rest ih =>
    rw [List.foldl_cons, ih (hsound.add hroom) (hroom.add hsound), size_wiringOf_add hsound hroom,
      List.countP_cons, Nat.add_assoc, Nat.add_comm (List.countP _ _)]

/-- A link takes the channels that come after those of the links before it. -/
theorem farEnd?_foldl_add (hsound : cabling.Sound) (hroom : cabling.Room links)
    (hlink : links[index]? = some link) :
    (links.foldl add cabling).farEnd? link.2
        (UInt32.ofNat ((cabling.wiringOf link.2).size + earlier links link.2 index)) =
      some (link.1,
        UInt32.ofNat ((cabling.wiringOf link.1).size + earlier links link.1 index)) := by
  induction links generalizing cabling index with
  | nil => exact absurd hlink (by simp)
  | cons first rest ih =>
    cases index with
    | zero =>
      obtain rfl : first = link := Option.some.inj hlink
      have hkeep := ((hsound.add hroom).foldl_add (hroom.add hsound)).2
      apply hkeep
      rw [farEnd?_add]
      exact if_pos ⟨rfl, rfl⟩
    | succ index =>
      have hrest := ih (hsound.add hroom) (hroom.add hsound) hlink
      simp only [size_wiringOf_add hsound hroom] at hrest
      simp only [earlier_cons_succ, List.foldl_cons]
      rwa [Nat.add_comm (earlier rest link.2 index), Nat.add_comm (earlier rest link.1 index),
        ← Nat.add_assoc, ← Nat.add_assoc]

theorem size_wiringOf_ofLinks (hfits : Fits links) (node : Rank) :
    ((ofLinks links).wiringOf node).size = links.countP (touches node) := by
  rw [ofLinks, size_wiringOf_foldl_add sound_empty hfits.room]
  exact Nat.zero_add _

theorem farEnd?_channelAt (hfits : Fits links) (hlink : links[index]? = some link) :
    (ofLinks links).farEnd? link.2 (channelAt links link.2 index) =
      some (link.1, channelAt links link.1 index) := by
  have hwired := farEnd?_foldl_add sound_empty hfits.room hlink
  simp only [size_wiringOf_empty, Nat.zero_add] at hwired
  exact hwired

/-- Links that fit are numbered, however often they join the same nodes. -/
theorem numberedBy_ofLinks (hfits : Fits links) : (ofLinks links).NumberedBy links where
  inOrder := toNat_channelAt hfits
  wired hlink :=
    have hsecond := farEnd?_channelAt hfits hlink
    ⟨(sound_ofLinks hfits).symmetric hsecond, hsecond⟩
  dense node channel := by
    rw [(sound_ofLinks hfits).dense, size_wiringOf_ofLinks hfits]
  own hlink hother htouch htouch' heq := by
    have hnumber := congrArg UInt32.toNat heq
    rw [toNat_channelAt hfits hlink htouch, toNat_channelAt hfits hother htouch'] at hnumber
    exact eq_of_earlier_eq hlink hother htouch htouch' hnumber
  involutive := (sound_ofLinks hfits).symmetric

end Cabling

namespace Fabric

variable {members : List Member} {request : ProfileRequest} {links : List Link} {fabric : Fabric}

theorem Created.wiring_eq (h : Created members request links fabric) {rank : Rank} {site : Site}
    (hsite : fabric.sites.get? rank = some site) :
    site.wiring = (Cabling.ofLinks links).wiringOf rank := by
  obtain ⟨_, _, _, -, -, rfl⟩ := startSite_eq_ok (h.startSite hsite)
  rfl

/-- The links of a fabric number the channels of every rank that they name, exactly if no rank has
more links than there are channels, and a node of the fabric has the channels of its rank. The links
may be of a node to itself, parallel, or to ranks that are no members. -/
theorem channels_numbered (links : List Link) :
    ((Cabling.ofLinks links).NumberedBy links ↔ Cabling.Fits links) ∧
      ∀ {members request fabric}, create members request links = .ok fabric →
        ∀ {rank site}, fabric.sites.get? rank = some site →
          site.wiring = (Cabling.ofLinks links).wiringOf rank := by
  constructor
  · exact ⟨fun hnumbered => hnumbered.fits, fun hfits => Cabling.numberedBy_ofLinks hfits⟩
  · intro members request fabric hcreate rank site hsite
    exact (created_of_create hcreate).wiring_eq hsite

/-- Three cables between two nodes, one of a node to itself, and one that leads nowhere. -/
def knot : List Link := [(0, 1), (1, 0), (1, 1), (0, 1), (0, 7)]

/-- The cable of node 1 to itself is its third and takes its channel 2, so that the last cable
between the nodes ends on channel 3 there. -/
theorem channels_numbered_knot : Cabling.Fits knot ∧ (Cabling.ofLinks knot).NumberedBy knot ∧
    ∃ fabric site, create (Layout.members 2) .auto knot = .ok fabric ∧
      fabric.sites.get? 1 = some site ∧ site.wiring = (Cabling.ofLinks knot).wiringOf 1 ∧
        site.wiring.rows = [(0, 0, 0), (1, 0, 1), (2, 1, 2), (3, 0, 2)] := by
  have hfits : Cabling.Fits knot := Cabling.fits_of_length (by decide)
  have hstart : ((create (Layout.members 2) .auto knot).toOption.bind fun fabric =>
      (fabric.sites.get? 1).map (·.wiring.rows)) =
        some [(0, 0, 0), (1, 0, 1), (2, 1, 2), (3, 0, 2)] := by decide +kernel
  obtain ⟨fabric, hcreate, hsite⟩ := Option.bind_eq_some_iff.1 hstart
  obtain ⟨site, hsite, hrows⟩ := Option.map_eq_some_iff.1 hsite
  obtain ⟨hnumbered, hwiring⟩ := channels_numbered knot
  have hcreate := eq_ok_of_toOption hcreate
  exact ⟨hfits, hnumbered.2 hfits, fabric, site, hcreate, hsite, hwiring hcreate hsite, hrows⟩

end Fabric

end MeshFormation
