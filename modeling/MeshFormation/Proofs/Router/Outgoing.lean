import MeshFormation.Proofs.Router.Cables

/-!
# How many messages a router sends

A router answers a completed transmit with one message at most: it tells the source of relayed data,
or it announces itself to a peer that it now reaches. Only one event calls for more. A cube router
that finds its partner announces itself to every peer that it reached by then, and for each of them
a transmit of its own data was complete without a message. So these announcements are held back, and
each was earned before.
-/

namespace MeshFormation

namespace Ledger

variable {ledger next : Ledger} {peer : Rank}

theorem length_directlyReached_le
    (h : ∀ {peer}, next.reaches peer = true → ledger.reaches peer = true) :
    next.directlyReached.length ≤ ledger.directlyReached.length := by
  apply (List.subperm_of_subset next.nodup_directlyReached _).length_le
  intro peer hpeer
  exact mem_directlyReached_iff.2 (h (mem_directlyReached_iff.1 hpeer))

theorem length_directlyReached_le_add_one
    (h : ∀ {other}, next.reaches other = true → ledger.reaches other = true ∨ other = peer) :
    next.directlyReached.length ≤ ledger.directlyReached.length + 1 := by
  rw [Nat.add_comm, Nat.add_comm, ← List.length_cons (a := peer)]
  apply (List.subperm_of_subset next.nodup_directlyReached _).length_le
  intro other hother
  rcases h (mem_directlyReached_iff.1 hother) with hold | rfl
  · exact List.mem_cons_of_mem _ (mem_directlyReached_iff.2 hold)
  · exact List.mem_cons_self

end Ledger

namespace CubeForwarding

theorem length_announce_le (cube : CubeForwarding) (node : Node) (peer : Rank) :
    (cube.announce node peer).2.length ≤ 1 := by
  unfold announce
  split
  · exact Nat.zero_le 1
  · exact Nat.le_refl 1

theorem length_announceAll_le (cube : CubeForwarding) (node : Node) (peers : List Rank) :
    (cube.announceAll node peers).2.length ≤ peers.length := by
  induction peers generalizing cube with
  | nil => exact Nat.le_refl 0
  | cons peer rest ih =>
    have hfirst := cube.length_announce_le node peer
    have hrest := ih (cube.announce node peer).1
    rw [announceAll, List.length_append, List.length_cons]
    omega

end CubeForwarding

namespace Forwarding

/-- A complete transmit of the own data calls for one announcement at most, and for none as long as
the rules know no partner. -/
theorem length_transmitDone_le (forwarding : Forwarding) (node : Node) (receiver : Rank) :
    (forwarding.transmitDone node receiver).2.length ≤ 1 ∧
      (forwarding.crossPartner? = none → (forwarding.transmitDone node receiver).2 = []) := by
  cases forwarding with
  | pair => exact ⟨Nat.zero_le 1, fun _ => rfl⟩
  | hypercube rules => exact ⟨Nat.zero_le 1, fun _ => rfl⟩
  | cube rules =>
    obtain ⟨role, announcers, informed, partnerRelayed, uplinkRelayed, crossRelayed⟩ := rules
    cases role with
    | undetermined => exact ⟨Nat.zero_le 1, fun _ => rfl⟩
    | outer partner =>
      exact ⟨CubeForwarding.length_announce_le _ node receiver, fun hunset => absurd hunset (by
        simp [crossPartner?, Role.partner?])⟩

/-- A bound channel calls for announcements only where it brings the partner. -/
theorem channelBound_silent_or_joins (forwarding : Forwarding) (node : Node)
    (event : ChannelEvent) :
    (forwarding.channelBound node event).2.2 = [] ∨
      forwarding.crossPartner? = none ∧
        (forwarding.channelBound node event).1.crossPartner?.isSome = true ∧
          (forwarding.channelBound node event).2.2.length ≤ node.ledger.directlyReached.length := by
  cases forwarding with
  | pair => exact .inl rfl
  | hypercube rules => exact .inl rfl
  | cube rules =>
    obtain ⟨role, announcers, informed, partnerRelayed, uplinkRelayed, crossRelayed⟩ := rules
    simp only [channelBound, CubeForwarding.channelBound]
    split
    · exact .inl rfl
    · cases role with
      | outer partner => exact .inl rfl
      | undetermined =>
        simp only [Role.becomeOuter, crossPartner?, role_announceAll]
        exact .inr ⟨rfl, rfl, CubeForwarding.length_announceAll_le _ _ _⟩

end Forwarding

/-- The number of messages with which a router may answer an event, apart from those that it held
back. -/
def Event.replies : Event → Nat
  | .connection ⟨.tx, _, _, _⟩ => 1
  | _ => 0

namespace Router

variable {router middle next : Router} {backend : Backend} {event : Event} {outbox : Outbox}
  {result : Except RouterError Outbox} {count : Nat}

/-- The announcements that a router holds back until it finds its partner. -/
def heldBack (router : Router) : Nat :=
  if router.forwarding.crossPartner?.isSome then 0 else router.node.ledger.directlyReached.length

theorem heldBack_of_isSome (h : router.forwarding.crossPartner?.isSome = true) :
    router.heldBack = 0 :=
  if_pos h

theorem heldBack_of_none (h : router.forwarding.crossPartner? = none) :
    router.heldBack = router.node.ledger.directlyReached.length :=
  if_neg (by simp [h])

/-- Only a transmit of the own data reaches a peer, and it reaches a single one. -/
theorem Writes.length_directlyReached_le {node : Node} (h : router.Writes event node)
    (hcount : ∀ {channel}, event = .connection ⟨.tx, channel, router.rank, true⟩ → 1 ≤ count) :
    node.ledger.directlyReached.length ≤ router.node.ledger.directlyReached.length + count := by
  by_cases hown : ∃ channel, event = .connection ⟨.tx, channel, router.rank, true⟩
  · obtain ⟨channel, rfl⟩ := hown
    have hone := hcount rfl
    suffices node.ledger.directlyReached.length ≤ router.node.ledger.directlyReached.length + 1 by
      omega
    cases hbound : router.node.boundPeer? channel with
    | none =>
      apply (Ledger.length_directlyReached_le _).trans (Nat.le_succ _)
      intro peer hreaches
      rcases h.of_reaches hreaches with hold | ⟨other, heq, hpeer⟩
      · exact hold
      · obtain rfl : channel = other := by simpa using heq
        exact absurd (hbound.symm.trans hpeer) (by simp)
    | some bound =>
      have hpeers : ∀ {peer}, node.ledger.reaches peer = true →
          router.node.ledger.reaches peer = true ∨ peer = bound := by
        intro peer hreaches
        rcases h.of_reaches hreaches with hold | ⟨other, heq, hpeer⟩
        · exact .inl hold
        · obtain rfl : channel = other := by simpa using heq
          exact .inr (Option.some.inj (hpeer.symm.trans hbound))
      exact Ledger.length_directlyReached_le_add_one hpeers
  · apply (Ledger.length_directlyReached_le _).trans (Nat.le_add_right _ _)
    intro peer hreaches
    rcases h.of_reaches hreaches with hold | ⟨channel, heq, -⟩
    · exact hold
    · exact absurd ⟨channel, heq⟩ hown

/-- An event adds to what is held back only where it completes a transmit of the own data. -/
theorem Step.heldBack_le (h : router.Step backend event next result)
    (hcount : ∀ {channel}, event = .connection ⟨.tx, channel, router.rank, true⟩ → 1 ≤ count) :
    next.heldBack ≤ router.heldBack + count := by
  cases hnext : next.forwarding.crossPartner? with
  | some partner =>
    rw [heldBack_of_isSome (by simp [hnext])]
    exact Nat.zero_le _
  | none =>
    have hunset : router.forwarding.crossPartner? = none := by
      rw [Option.eq_none_iff_forall_ne_some]
      intro partner hpartner
      exact absurd ((h.partner_mono hpartner).symm.trans hnext) (by simp)
    obtain ⟨node, hwrites, hadvances⟩ := h.writes
    rw [heldBack_of_none hnext, heldBack_of_none hunset, hadvances.ledger]
    exact hwrites.length_directlyReached_le hcount

theorem Event.replies_pos {channel : Channel} {rank : Rank}
    (h : event = .connection ⟨.tx, channel, rank, true⟩) : 1 ≤ event.replies := by
  subst h
  exact Nat.le_refl 1

theorem length_transmitCompleted_le (router : Router) (source bound : Rank) :
    (router.transmitCompleted source bound).2.length ≤ 1 ∧
      (source = router.rank → router.forwarding.crossPartner? = none →
        (router.transmitCompleted source bound).2 = []) := by
  unfold transmitCompleted
  split
  · obtain ⟨hlength, hsilent⟩ := router.forwarding.length_transmitDone_le router.node bound
    exact ⟨hlength, fun _ => hsilent⟩
  · rename_i hother
    exact ⟨Nat.le_refl 1, fun hown => absurd hown hother⟩

/-- A completed transmit is answered by one message at most, and by none if it adds to what is held
back. -/
theorem Absorbs.length_outbox_add_heldBack_le (h : router.Absorbs event middle outbox)
    (hstep : router.Step backend event next (.ok outbox))
    (hpartner : next.forwarding.crossPartner? = router.forwarding.crossPartner?) :
    outbox.length + next.heldBack ≤ router.heldBack + event.replies := by
  have hheld := hstep.heldBack_le Event.replies_pos
  cases h with
  | receive | forward | announce => simpa using hheld
  | @transmit channel source bound ledger progress _ _ recorded counted informed =>
    have hreplies : Event.replies (.connection ⟨.tx, channel, source, true⟩) = 1 := rfl
    obtain ⟨hlength, hsilent⟩ := length_transmitCompleted_le
      { router with node := { router.node with ledger, progress } } source bound
    rw [informed] at hlength hsilent
    dsimp only at hlength hsilent
    by_cases hown : source = router.rank
    · cases hknown : router.forwarding.crossPartner? with
      | none =>
        rw [hsilent hown hknown, List.length_nil]
        omega
      | some partner =>
        rw [heldBack_of_isSome (by simp [hpartner, hknown])]
        omega
    · have hsame : next.heldBack ≤ router.heldBack + 0 := by
        apply hstep.heldBack_le
        rintro channel ⟨⟩
        exact absurd rfl hown
      omega

/-- The messages of an event were held back, apart from the reply to a completed transmit. -/
theorem Step.length_outbox_add_heldBack_le (h : router.Step backend event next result) :
    (outboxOf result).length + next.heldBack ≤ router.heldBack + event.replies := by
  have hheld := h.heldBack_le Event.replies_pos
  cases h with
  | unheard | unlinked | repeated | free | live => simp [outboxOf]
  | rejected | unestablished | lost | broken | violated | surplus | surplusLink | linked =>
    simpa [outboxOf] using hheld
  | @bound known node admits accepted =>
    rcases router.forwarding.channelBound_silent_or_joins node known with
      hsilent | ⟨hunset, hpartner, hlength⟩
    · simpa [outboxOf, hsilent] using hheld
    · have hadvances := Node.advances_of_establish accepted
      have hreached : node.ledger.directlyReached.length ≤
          router.node.ledger.directlyReached.length := by
        rw [hadvances.ledger]
        exact Ledger.length_directlyReached_le fun hreaches =>
          (Ledger.reaches_congr (Ledger.route?_track _ _ _)).symm.trans hreaches
      rw [heldBack_of_isSome hpartner, heldBack_of_none hunset]
      exact (hlength.trans hreached).trans (Nat.le_add_right _ _)
  | @absorbed event middle outbox absorbs =>
    have hkeeps := absorbs.keepsLinks.trans (keepsLinks_proceed middle backend)
    exact absorbs.length_outbox_add_heldBack_le (.absorbed absorbs) hkeeps.partner

theorem length_outbox_add_heldBack_le (router : Router) (backend : Backend) (event : Event) :
    (outboxOf (router.handle backend event).2).length + (router.handle backend event).1.heldBack ≤
      router.heldBack + event.replies := by
  cases hfailed : router.node.isFailed with
  | true =>
    rw [handle_of_isFailed hfailed]
    simp [outboxOf]
  | false => exact (step_handle backend event hfailed).length_outbox_add_heldBack_le

end Router

end MeshFormation
