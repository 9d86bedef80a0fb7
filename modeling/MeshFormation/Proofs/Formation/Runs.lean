import MeshFormation.Proofs.Formation.Effort

/-!
# Runs that keep to the delivery contract

An ensemble that forms stays so with every delivery that the contract allows, and it comes to an
end: an entry may be delivered as long as one waits, and only so many deliveries can be made. The
order of arrival keeps to the contract too, since it starts with the channel events.
-/

namespace MeshFormation

/-- Whether an entry tells a node of a channel. -/
def Parcel.isDiscovery : Parcel → Bool
  | .delivery _ (.channel _) => true
  | _ => false

namespace Parcel

variable {parcel : Parcel} {node : Rank} {channel : Channel}

theorem isDiscovery_iff : parcel.isDiscovery = true ↔
    ∃ target event, parcel = .delivery target (.channel event) := by
  unfold isDiscovery
  split
  · simp
  · rename_i hother
    simp only [Bool.false_eq_true, false_iff, not_exists]
    exact hother

theorem isDiscovery_of_errand? (h : parcel.errand? = some (.discovery node channel)) :
    parcel.isDiscovery = true := by
  unfold errand? at h
  split at h
  · rfl
  · exact absurd h (by simp)
  · exact absurd h (by simp)
  · exact absurd h (by simp)

end Parcel

namespace Fabric

variable {b : Installation} {start fabric next rest : Fabric} {before behind : List Parcel}
  {parcel : Parcel} {source near far target : Rank} {channel farChannel : Channel}
  {delivery : Delivery} {index count : Nat}

/-- One step delivers an entry that the delivery contract allows. -/
def Delivers (fabric next : Fabric) : Prop :=
  ∃ index, fabric.allows index = true ∧ fabric.step? index = some next

/-- The states that a fabric comes to by a number of steps that the contract allows. -/
inductive Proceeds (start : Fabric) : Nat → Fabric → Prop where
  | start : Proceeds start 0 start
  | step {count : Nat} {fabric next : Fabric} (proceeds : Proceeds start count fabric)
      (delivers : fabric.Delivers next) : Proceeds start (count + 1) next

/-- The state after the entries at several places were delivered, one after the other, if the
contract allows it. -/
def proceed? (fabric : Fabric) : List Nat → Option Fabric
  | [] => some fabric
  | index :: rest =>
    if fabric.allows index then (fabric.step? index).bind fun next => next.proceed? rest else none

theorem Proceeds.proceed? {choices : List Nat} (h : start.Proceeds count fabric)
    (hnext : fabric.proceed? choices = some next) :
    start.Proceeds (count + choices.length) next := by
  induction choices generalizing fabric count with
  | nil =>
    obtain rfl := Option.some.inj hnext
    exact h
  | cons index rest ih =>
    rw [Fabric.proceed?] at hnext
    split at hnext
    · rename_i hallows
      obtain ⟨middle, hmiddle, hrest⟩ := Option.bind_eq_some_iff.1 hnext
      have hmore := ih (h.step ⟨index, hallows, hmiddle⟩) hrest
      rwa [Nat.add_right_comm] at hmore
    · exact absurd hnext (by simp)

@[simp] theorem delivered_deliverTo (fabric : Fabric) (target : Rank) (delivery : Delivery) :
    (fabric.deliverTo target delivery).delivered = fabric.delivered := by
  have hnote : (fabric.noteDiscovery target delivery).delivered = fabric.delivered := by
    unfold noteDiscovery
    split
    · split <;> rfl
    · rfl
  unfold deliverTo
  dsimp only
  split
  · exact hnote
  · exact hnote

theorem delivered_of_step? (hstep : fabric.step? index = some next)
    (hparcel : fabric.queue[index]? = some parcel) :
    next.delivered = fabric.delivered + parcel.weight := by
  rw [step?, hparcel] at hstep
  obtain rfl := Option.some.inj hstep
  cases parcel <;> simp [deliver]

theorem exists_calm_queue_deliverTo (fabric : Fabric) (target : Rank) (delivery : Delivery) :
    ∃ new, (fabric.deliverTo target delivery).queue = fabric.queue ++ new ∧
      ∀ entry ∈ new, entry.isDiscovery = false := by
  obtain ⟨new, hqueue, hnew⟩ := exists_queue_deliverTo fabric target delivery
  refine ⟨new, hqueue, fun entry hmem => ?_⟩
  rcases hnew entry hmem with ⟨_, _, _, _, rfl⟩ | ⟨_, _, rfl⟩
  · rfl
  · rfl

theorem exists_queue_of_step? (hstep : fabric.step? index = some next) :
    ∃ new, next.queue = fabric.queue.eraseIdx index ++ new ∧
      ∀ entry ∈ new, entry.isDiscovery = false := by
  rw [step?] at hstep
  split at hstep
  · exact absurd hstep (by simp)
  · rename_i parcel hparcel
    obtain rfl := Option.some.inj hstep
    cases parcel with
    | delivery target delivery => exact exists_calm_queue_deliverTo _ target delivery
    | transmit source near channel far farChannel =>
      obtain ⟨first, hfirst, hcalm⟩ := exists_calm_queue_deliverTo
        { fabric with
          queue := fabric.queue.eraseIdx index
          delivered := fabric.delivered + 2 } near (.connection ⟨.tx, channel, source, true⟩)
      obtain ⟨second, hsecond, hcalm'⟩ := exists_calm_queue_deliverTo (deliverTo
        { fabric with
          queue := fabric.queue.eraseIdx index
          delivered := fabric.delivered + 2 } near (.connection ⟨.tx, channel, source, true⟩)) far
            (.connection ⟨.rx, farChannel, source, true⟩)
      refine ⟨first ++ second, ?_, fun entry hmem => ?_⟩
      · rw [hfirst, List.append_assoc] at hsecond
        exact hsecond
      · rcases List.mem_append.1 hmem with hmem | hmem
        · exact hcalm entry hmem
        · exact hcalm' entry hmem

/-- What an allowed step makes: a delivery whose turn it is, or both deliveries of a transmit whose
far end knows the channel. -/
inductive Makes (fabric : Fabric) : Fabric → Prop where
  | delivery {before behind : List Parcel} {target : Rank} {delivery : Delivery} {rest : Fabric}
      (takes : fabric.Takes before (.delivery target delivery) behind rest)
      (first : ∀ payload, delivery = .control payload → before.any (isControlTo target) = false)
      (counted : (rest.deliverTo target delivery).delivered = fabric.delivered + 1) :
      Makes fabric (rest.deliverTo target delivery)
  | transmit {before behind : List Parcel} {source near far : Rank} {channel farChannel : Channel}
      {rest : Fabric}
      (takes : fabric.Takes before (.transmit source near channel far farChannel) behind rest)
      (known : (far, farChannel) ∈ fabric.knownChannels)
      (counted : ((rest.deliverTo near (.connection ⟨.tx, channel, source, true⟩)).deliverTo far
        (.connection ⟨.rx, farChannel, source, true⟩)).delivered = fabric.delivered + 2) :
      Makes fabric ((rest.deliverTo near (.connection ⟨.tx, channel, source, true⟩)).deliverTo far
        (.connection ⟨.rx, farChannel, source, true⟩))

theorem Delivers.makes (h : fabric.Delivers next) : fabric.Makes next := by
  obtain ⟨index, hallows, hstep⟩ := h
  obtain ⟨before, parcel, behind, rest, htakes, hbefore, hparcel, rfl⟩ := step?_eq_some hstep
  have hcounted := delivered_of_step? hstep hparcel
  rw [allows, hparcel] at hallows
  cases parcel with
  | delivery target delivery =>
    apply Makes.delivery htakes _ hcounted
    rintro payload rfl
    rw [hbefore]
    simpa using hallows
  | transmit source near channel far farChannel =>
    apply Makes.transmit htakes _ hcounted
    simpa using hallows

namespace Forming

variable (h : Forming b fabric) (hvalid : b.Valid)
include h hvalid

theorem deliverTo_effort
    (htakes : fabric.Takes before (.delivery target delivery) behind rest)
    (hfirst : ∀ payload, delivery = .control payload →
      before.any (isControlTo target) = false) :
    (rest.deliverTo target delivery).effort b.toBlueprint < fabric.effort b.toBlueprint := by
  obtain ⟨site, event, outbox, hoccurs⟩ := h.occurs_deliverTo hvalid htakes hfirst
  exact hoccurs.effort_lt h hvalid (h.traced.deliverTo htakes).2

theorem transmit_effort
    (htakes : fabric.Takes before (.transmit source near channel far farChannel) behind rest) :
    ((rest.deliverTo near (.connection ⟨.tx, channel, source, true⟩)).push
      (arrival far source farChannel)).effort b.toBlueprint < fabric.effort b.toBlueprint := by
  obtain ⟨site, outbox, hoccurs⟩ := h.occurs_transmit hvalid htakes
  exact hoccurs.effort_lt h hvalid (h.traced.transmit htakes).2

/-- An allowed step is made by an ensemble that forms, and takes as many deliveries from what is
left to do as it makes. -/
theorem step (hdelivers : fabric.Delivers next) :
    Forming b next ∧ fabric.delivered < next.delivered ∧
      next.delivered + next.effort b.toBlueprint ≤
        fabric.delivered + fabric.effort b.toBlueprint := by
  cases hdelivers.makes with
  | delivery takes first counted =>
    have heffort := h.deliverTo_effort hvalid takes first
    exact ⟨h.deliverTo hvalid takes first, by omega, by omega⟩
  | transmit takes known counted =>
    have heffort := h.transmit_effort hvalid takes
    have hmiddle := h.transmit hvalid takes known
    have heffort' := hmiddle.deliverTo_effort hvalid (takes_push _ _) (by simp)
    exact ⟨hmiddle.deliverTo hvalid (takes_push _ _) (by simp), by omega, by omega⟩

/-- An allowed step makes one event happen, or two in turn, so it keeps what every event keeps. -/
theorem keeps {Inv : Fabric → Prop} (hevent : ∀ {fabric next front before parcel behind target site
      event outbox}, Forming b fabric →
        Occurs b fabric next front before parcel behind target site event outbox → Inv fabric →
          Inv next)
    (hinv : Inv fabric) (hdelivers : fabric.Delivers next) : Inv next := by
  cases hdelivers.makes with
  | delivery takes first =>
    obtain ⟨site, event, outbox, hoccurs⟩ := h.occurs_deliverTo hvalid takes first
    exact hevent h hoccurs hinv
  | transmit takes known =>
    obtain ⟨site, outbox, hoccurs⟩ := h.occurs_transmit hvalid takes
    have hmiddle := h.transmit hvalid takes known
    obtain ⟨site', event, outbox', hoccurs'⟩ :=
      hmiddle.occurs_deliverTo hvalid (takes_push _ _) (by simp)
    exact hevent hmiddle hoccurs' (hevent h hoccurs hinv)

omit hvalid in
/-- With channel events in front, the first entry may be delivered. -/
theorem allows_first
    (hfront : fabric.queue.Pairwise fun first second =>
      second.isDiscovery = true → first.isDiscovery = true)
    (hqueue : fabric.queue ≠ []) : fabric.allows 0 = true := by
  obtain ⟨first, rest, hfirst⟩ := List.exists_cons_of_ne_nil hqueue
  have hmem : first ∈ fabric.queue := by
    rw [hfirst]
    exact List.mem_cons_self
  have hget : fabric.queue[0]? = some first := by
    rw [hfirst]
    rfl
  rw [allows, hget]
  cases first with
  | delivery target delivery =>
    cases delivery with
    | connection completed =>
      obtain ⟨channel, source, rfl⟩ := h.eq_rx hmem
      obtain ⟨site, peer, hsite, hbound, -⟩ := h.arrives hmem
      have hknown : (target, channel) ∈ fabric.knownChannels :=
        h.known.2 ⟨site.node, peer, node?_of_site hsite, hbound⟩
      simpa using hknown
    | control payload => rfl
    | channel known => rfl
    | network changed => rfl
    | failure reason => rfl
  | transmit source near channel far farChannel =>
    obtain ⟨hcable, hasked⟩ := h.traced.queue _ hmem
    obtain ⟨site, hsite, hbound, -⟩ := h.feeds_of_asked hasked hcable
    have hraised : Raised b fabric (.discovery far farChannel) :=
      ⟨⟨near, channel, b.symmetric hcable⟩, b.shared hcable (h.used_of_bound hsite hbound)⟩
    have hknown : (far, farChannel) ∈ fabric.knownChannels := by
      rcases (h.agenda.raised _).1 hraised with hpending | hdone
      · obtain ⟨entry, hentry, herrand⟩ := List.mem_filterMap.1 hpending
        rw [hfirst] at hfront hentry
        rcases List.mem_cons.1 hentry with rfl | hentry
        · exact absurd herrand (by simp [Parcel.errand?])
        · have hcalm := (List.pairwise_cons.1 hfront).1 entry hentry
          have hdiscovery := Parcel.isDiscovery_of_errand? herrand
          exact absurd (hcalm hdiscovery) (by simp [Parcel.isDiscovery])
      · exact h.known.2 hdone
    simpa using hknown

omit hvalid in
/-- As long as an entry waits, the contract allows to deliver one. -/
theorem exists_allows (hqueue : fabric.queue ≠ []) : ∃ index, fabric.allows index = true := by
  by_cases hdiscovery : ∃ entry ∈ fabric.queue, entry.isDiscovery = true
  · obtain ⟨entry, hmem, hentry⟩ := hdiscovery
    obtain ⟨index, hindex⟩ := List.mem_iff_getElem?.1 hmem
    obtain ⟨target, known, rfl⟩ := Parcel.isDiscovery_iff.1 hentry
    exact ⟨index, by rw [allows, hindex]⟩
  · refine ⟨0, h.allows_first ?_ hqueue⟩
    refine List.pairwise_of_forall_mem_list fun first hfirst second hsecond hcalm => ?_
    exact absurd ⟨second, hsecond, hcalm⟩ hdiscovery

end Forming

/-! ## Runs -/

variable (h : Forming b start) (hvalid : b.Valid)
include h hvalid

/-- An ensemble that forms still does so after any number of allowed steps, and what is left to do
has gone down by as much as was delivered. -/
theorem Proceeds.forming (hrun : start.Proceeds count fabric) : Forming b fabric ∧
    start.delivered + count ≤ fabric.delivered ∧
      fabric.delivered + fabric.effort b.toBlueprint ≤
        start.delivered + start.effort b.toBlueprint := by
  induction hrun with
  | start => exact ⟨h, Nat.le_refl _, Nat.le_refl _⟩
  | step proceeds delivers ih =>
    obtain ⟨hforming, hcount, heffort⟩ := ih
    obtain ⟨hnext, hmore, hless⟩ := hforming.step hvalid delivers
    exact ⟨hnext, by omega, by omega⟩

theorem Proceeds.keeps {Inv : Fabric → Prop}
    (hevent : ∀ {fabric next front before parcel behind target site event outbox},
      Forming b fabric →
        Occurs b fabric next front before parcel behind target site event outbox → Inv fabric →
          Inv next)
    (hinv : Inv start) (hrun : start.Proceeds count fabric) : Inv fabric := by
  induction hrun with
  | start => exact hinv
  | step proceeds delivers ih =>
    obtain ⟨hforming, -⟩ := proceeds.forming h hvalid
    exact hforming.keeps hvalid hevent ih delivers

theorem Proceeds.count_le (hrun : start.Proceeds count fabric) :
    count ≤ start.effort b.toBlueprint := by
  obtain ⟨-, hcount, heffort⟩ := hrun.forming h hvalid
  omega

omit h in
/-- Delivering in the order of arrival comes to an end within as many rounds and deliveries as there
is left to do. -/
theorem Proceeds.runRounds {first rounds : Nat} (hforming : Forming b fabric)
    (hfront : fabric.queue.Pairwise fun first second =>
      second.isDiscovery = true → first.isDiscovery = true)
    (hrun : start.Proceeds count fabric) (hrounds : fabric.effort b.toBlueprint ≤ rounds)
    (hlimit : fabric.delivered - first + fabric.effort b.toBlueprint ≤ deliveryLimit) :
    (∃ count, start.Proceeds count (Fabric.runRounds inOrder first rounds fabric)) ∧
      (Fabric.runRounds inOrder first rounds fabric).queue = [] := by
  have hend : fabric.effort b.toBlueprint = 0 → fabric.queue = [] := fun heffort =>
    Parcel.eq_nil_of_sum_cost (by rw [effort] at heffort; omega)
  induction rounds generalizing fabric count with
  | zero => exact ⟨⟨count, hrun⟩, hend (Nat.le_zero.1 hrounds)⟩
  | succ rounds ih =>
    rw [Fabric.runRounds]
    split
    · split
      · rename_i hstep
        refine ⟨⟨count, hrun⟩, ?_⟩
        rw [step?] at hstep
        split at hstep
        · rename_i hnone
          exact List.eq_nil_of_length_eq_zero (Nat.le_zero.1 (List.getElem?_eq_none_iff.1 hnone))
        · exact absurd hstep (by simp)
      · rename_i next hstep
        have hqueue : fabric.queue ≠ [] := by
          intro hnil
          rw [step?, hnil] at hstep
          exact absurd hstep (by simp)
        have hallows := hforming.allows_first hfront hqueue
        have hdelivers : fabric.Delivers next := ⟨0, hallows, hstep⟩
        obtain ⟨hnext, hmore, hless⟩ := hforming.step hvalid hdelivers
        obtain ⟨new, hnew, hcalm⟩ := exists_queue_of_step? hstep
        have hfront' : next.queue.Pairwise fun first second =>
            second.isDiscovery = true → first.isDiscovery = true := by
          rw [hnew, List.pairwise_append]
          refine ⟨hfront.eraseIdx 0, ?_, fun first _ second hsecond hdiscovery => ?_⟩
          · refine List.pairwise_of_forall_mem_list fun first _ second hsecond hdiscovery => ?_
            rw [hcalm second hsecond] at hdiscovery
            exact absurd hdiscovery (by simp)
          · rw [hcalm second hsecond] at hdiscovery
            exact absurd hdiscovery (by simp)
        refine ih hnext hfront' (hrun.step hdelivers) (by omega) (by omega) fun heffort => ?_
        exact Parcel.eq_nil_of_sum_cost (by rw [effort] at heffort; omega)
    · rename_i hfull
      exact ⟨⟨count, hrun⟩, hend (by omega)⟩

end Fabric

end MeshFormation
