import MeshFormation.Proofs.Fabric.Quiescence
import MeshFormation.Proofs.Formation.Requests
import Mathlib.Data.List.Perm.Basic

/-!
# What happens once, and what happens in order

A node is told of each of its channels once, and the data of a source arrives at a receiver once.
Both are errands: each is raised, waits in the queue and is done. Forwards wait in the queue too,
and the control messages to one node keep their order; a forward behind the one that its forwarder
needs is prepared.
-/

namespace MeshFormation

/-- Something that happens at most once in an ensemble. -/
inductive Errand where
  /-- A node is told of a channel. -/
  | discovery (node : Rank) (channel : Channel)
  /-- The data of a source arrives at a receiver. -/
  | flow (source far : Rank)
deriving DecidableEq

def Parcel.errand? : Parcel → Option Errand
  | .delivery target (.channel event) => some (.discovery target event.channel)
  | .delivery target (.connection event) => some (.flow event.source target)
  | .transmit source _ _ far _ => some (.flow source far)
  | .delivery _ _ => none

/-- The errand that an event at a node finishes. -/
def Event.errand? (target : Rank) : Event → Option Errand
  | .channel event => some (.discovery target event.channel)
  | .connection event => if event.direction = .rx then some (.flow event.source target) else none
  | _ => none

/-- The errands that wait in a queue are raised, not done and wait there once; every other errand
that was raised is done. -/
structure Agenda (pending : List Errand) (Raised Done : Errand → Prop) : Prop where
  nodup : pending.Nodup
  raised : ∀ errand, Raised errand ↔ errand ∈ pending ∨ Done errand
  undone : ∀ errand ∈ pending, ¬ Done errand

theorem Agenda.step {pending next finished kept new : List Errand}
    {Raised Raised' Done Done' : Errand → Prop} (h : Agenda pending Raised Done)
    (hpending : pending.Perm (finished ++ kept)) (hnext : next.Perm (kept ++ new))
    (hraised : ∀ errand, Raised' errand ↔ Raised errand ∨ errand ∈ new)
    (hdone : ∀ errand, Done' errand ↔ Done errand ∨ errand ∈ finished)
    (hnew : new.Nodup) (hfresh : ∀ errand ∈ new, ¬ Raised errand) : Agenda next Raised' Done' := by
  have hmem : ∀ errand, errand ∈ pending ↔ errand ∈ finished ∨ errand ∈ kept := by
    intro errand
    rw [hpending.mem_iff, List.mem_append]
  have hsplit := hpending.nodup_iff.1 h.nodup
  rw [List.nodup_append] at hsplit
  obtain ⟨-, hkept, hdisjoint⟩ := hsplit
  have hold : ∀ errand ∈ kept, Raised errand :=
    fun errand hkept => (h.raised errand).2 (.inl ((hmem errand).2 (.inr hkept)))
  constructor
  case nodup =>
    rw [hnext.nodup_iff, List.nodup_append]
    refine ⟨hkept, hnew, fun errand hkept other hother heq => ?_⟩
    subst heq
    exact hfresh errand hother (hold errand hkept)
  case raised =>
    intro errand
    rw [hraised, h.raised, hmem, hnext.mem_iff, List.mem_append, hdone]
    constructor
    · rintro (((hfinished | hkept) | hdone) | hnew)
      · exact .inr (.inr hfinished)
      · exact .inl (.inl hkept)
      · exact .inr (.inl hdone)
      · exact .inl (.inr hnew)
    · rintro ((hkept | hnew) | hdone | hfinished)
      · exact .inl (.inl (.inr hkept))
      · exact .inr hnew
      · exact .inl (.inr hdone)
      · exact .inl (.inl (.inl hfinished))
  case undone =>
    intro errand herrand hdone'
    rw [hnext.mem_iff, List.mem_append] at herrand
    rcases herrand with hkept | hnew
    · rcases (hdone errand).1 hdone' with hdone' | hfinished
      · exact h.undone errand ((hmem errand).2 (.inr hkept)) hdone'
      · exact hdisjoint errand hfinished errand hkept rfl
    · apply hfresh errand hnew
      rcases (hdone errand).1 hdone' with hdone' | hfinished
      · exact (h.raised errand).2 (.inr hdone')
      · exact (h.raised errand).2 (.inl ((hmem errand).2 (.inl hfinished)))

namespace Fabric

variable {before behind new : List Parcel} {parcel : Parcel} {source forwarder receiver : Rank}
  {Knows Knows' : Rank → Rank → Prop}

def errands (fabric : Fabric) : List Errand := fabric.queue.filterMap Parcel.errand?

/-- A forward names a forwarder to which the source knows a route by the time it is delivered, if
the queue is delivered in order. -/
def Prepared (Knows : Rank → Rank → Prop) : List Parcel → Prop
  | [] => True
  | parcel :: rest =>
    (∀ source forwarder receiver, parcel = forwardTo source forwarder receiver →
      Knows source forwarder) ∧
    Prepared (fun source receiver => Knows source receiver ∨
      ∃ forwarder, parcel = forwardTo source forwarder receiver) rest

theorem Prepared.mono {queue : List Parcel} (h : Prepared Knows queue)
    (hknows : ∀ {source receiver}, Knows source receiver → Knows' source receiver) :
    Prepared Knows' queue := by
  induction queue generalizing Knows Knows' with
  | nil => trivial
  | cons first rest ih =>
    exact ⟨fun source forwarder receiver heq => hknows (h.1 source forwarder receiver heq),
      ih h.2 (Or.imp_left hknows)⟩

/-- Taking an entry out of the queue leaves the rest prepared once the entry was delivered. -/
theorem Prepared.take (h : Prepared Knows (before ++ parcel :: behind))
    (hknows : ∀ {source receiver}, Knows source receiver → Knows' source receiver)
    (htaken : ∀ {source forwarder receiver}, parcel = forwardTo source forwarder receiver →
      Knows' source receiver) : Prepared Knows' (before ++ behind) := by
  induction before generalizing Knows Knows' with
  | nil =>
    apply h.2.mono
    rintro source receiver (hknown | ⟨forwarder, heq⟩)
    · exact hknows hknown
    · exact htaken heq
  | cons first rest ih =>
    exact ⟨fun source forwarder receiver heq => hknows (h.1 source forwarder receiver heq),
      ih h.2 (Or.imp_left hknows) fun heq => .inl (htaken heq)⟩

/-- An entry that is no forward may be put in front. -/
theorem Prepared.cons {queue : List Parcel} (h : Prepared Knows queue)
    (hother : ∀ source forwarder receiver, parcel ≠ forwardTo source forwarder receiver) :
    Prepared Knows (parcel :: queue) :=
  ⟨fun source forwarder receiver heq => absurd heq (hother source forwarder receiver), h.mono .inl⟩

/-- Entries may be added at the end of the queue if each forward among them is prepared. -/
theorem Prepared.append {queue : List Parcel} (h : Prepared Knows queue)
    (hnew : ∀ {source forwarder receiver}, forwardTo source forwarder receiver ∈ new →
      Knows source forwarder ∨ ∃ other, forwardTo source other forwarder ∈ queue) :
    Prepared Knows (queue ++ new) := by
  induction queue generalizing Knows with
  | nil =>
    have hall : ∀ {source forwarder receiver}, forwardTo source forwarder receiver ∈ new →
        Knows source forwarder := by
      intro source forwarder receiver hmem
      rcases hnew hmem with hknown | ⟨other, hother⟩
      · exact hknown
      · exact absurd hother (by simp)
    clear hnew h
    rw [List.nil_append]
    induction new generalizing Knows with
    | nil => trivial
    | cons first rest ih =>
      refine ⟨fun source forwarder receiver heq => ?_, ih ?_⟩
      · subst heq
        exact hall List.mem_cons_self
      · exact fun hmem => .inl (hall (List.mem_cons_of_mem _ hmem))
  | cons first rest ih =>
    refine ⟨h.1, ih h.2 fun {source forwarder receiver} hmem => ?_⟩
    rcases hnew hmem with hknown | ⟨other, hother⟩
    · exact .inl (.inl hknown)
    · rcases List.mem_cons.1 hother with heq | hother
      · exact .inl (.inr ⟨other, heq.symm⟩)
      · exact .inr ⟨other, hother⟩

/-- A forward that no control message to its node precedes names a known forwarder. -/
theorem Prepared.knows
    (h : Prepared Knows (before ++ forwardTo source forwarder receiver :: behind))
    (hfirst : before.any (isControlTo source) = false) : Knows source forwarder := by
  induction before generalizing Knows with
  | nil => exact h.1 source forwarder receiver rfl
  | cons first rest ih =>
    rw [List.any_cons, Bool.or_eq_false_iff] at hfirst
    rcases ih h.2 hfirst.2 with hknown | ⟨other, heq⟩
    · exact hknown
    · rw [heq] at hfirst
      exact absurd hfirst.1 (by simp [forwardTo, isControlTo])

end Fabric

end MeshFormation
