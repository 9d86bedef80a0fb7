import MeshFormation.Proofs.Node.Calls

/-!
# The transmits that a node asks for

A node asks for transmits one after the other. Those of a list of requests that it gets to are the
first ones of the list, and all of them unless one is refused, which fails the node.
-/

namespace MeshFormation

namespace Journal

/-- All transmits that were asked for, in order, the refused ones included. -/
def transmits (journal : Journal) : List (Rank × Channel) :=
  journal.attempts.filterMap fun attempt =>
    match attempt.call with
    | .establish source channel => some (source, channel)
    | _ => none

theorem transmits_congr {journal next : Journal} (h : next.attempts = journal.attempts) :
    next.transmits = journal.transmits := by
  rw [transmits, h, transmits]

end Journal

namespace Node

variable {node next : Node} {backend : Backend}

@[simp] theorem transmits_fail (node : Node) (reason : FailureReason) :
    (node.fail reason).journal.transmits = node.journal.transmits :=
  Journal.transmits_congr (attempts_fail node reason)

/-- Other calls ask for no transmit. -/
theorem Asks.transmits (h : node.Asks (·.isEstablish = false) next) :
    next.journal.transmits = node.journal.transmits := by
  obtain ⟨made, hmade, hother⟩ := h
  have hnone : Journal.transmits ⟨made, []⟩ = [] := by
    rw [Journal.transmits, List.filterMap_eq_nil_iff]
    intro attempt hattempt
    have hkind := hother attempt hattempt
    cases hcall : attempt.call with
    | establish source channel => exact absurd hkind (by simp [hcall, Call.isEstablish])
    | _ => rfl
  rw [Journal.transmits, hmade, List.filterMap_append]
  exact (congrArg _ hnone).trans (List.append_nil _)

@[simp] theorem transmits_refuseChannel (node : Node) (backend : Backend) (channel : Channel) :
    (node.refuseChannel backend channel).journal.transmits = node.journal.transmits := by
  obtain ⟨accepted, hcalls⟩ := node.calls_refuseChannel backend channel
  exact (hcalls.asks.mono fun _ => Call.not_isEstablish_of_isDisable).transmits

theorem transmits_of_establish {node next : Node} {backend : Backend} {source : Rank}
    {channel : Channel} {accepted : Bool}
    (h : node.establish backend source channel = (next, accepted)) :
    next.journal.transmits = node.journal.transmits ++ [(source, channel)] := by
  unfold establish request Journal.attempt at h
  cases hanswer : backend node.journal.attempts (.establish source channel) with
  | none =>
    rw [hanswer] at h
    obtain ⟨rfl, -⟩ := Prod.mk.inj h
    simp [Journal.transmits]
  | some refusal =>
    rw [hanswer] at h
    obtain ⟨rfl, -⟩ := Prod.mk.inj h
    rw [transmits_fail]
    simp [Journal.transmits]

theorem exists_transmits_establishAll (node : Node) (backend : Backend)
    (requests : List (Rank × Channel)) :
    ∃ tried, tried <+: requests ∧
      (node.establishAll backend requests).1.journal.transmits = node.journal.transmits ++ tried ∧
        ((node.establishAll backend requests).2 = true → tried = requests) := by
  induction requests generalizing node with
  | nil => exact ⟨[], List.prefix_rfl, (List.append_nil _).symm, fun _ => rfl⟩
  | cons request rest ih =>
    obtain ⟨source, channel⟩ := request
    rw [establishAll]
    cases hestablish : node.establish backend source channel with
    | mk next accepted =>
      have hfirst := transmits_of_establish hestablish
      cases accepted with
      | true =>
        obtain ⟨tried, hprefix, htried, hall⟩ := ih next
        refine ⟨(source, channel) :: tried, List.cons_prefix_cons.2 ⟨rfl, hprefix⟩, ?_, ?_⟩
        · exact htried.trans (by rw [hfirst, List.append_assoc]; rfl)
        · exact fun haccepted => congrArg _ (hall haccepted)
      | false =>
        refine ⟨[(source, channel)], List.cons_prefix_cons.2 ⟨rfl, List.nil_prefix⟩, hfirst, ?_⟩
        exact fun haccepted => absurd haccepted (by simp)

/-- The node that had several transmits accepted. -/
def asking (node : Node) (due : List (Rank × Channel)) : Node :=
  { node with journal := { node.journal with
      attempts := node.journal.attempts ++
        due.map fun request => ⟨.establish request.1 request.2, none⟩ } }

@[simp] theorem asking_nil (node : Node) : node.asking [] = node := by
  simp [asking]

theorem asking_append (node : Node) (first second : List (Rank × Channel)) :
    node.asking (first ++ second) = (node.asking first).asking second := by
  simp [asking]

@[simp] theorem transmits_asking (node : Node) (due : List (Rank × Channel)) :
    (node.asking due).journal.transmits = node.journal.transmits ++ due := by
  have hdue : Journal.transmits
      ⟨due.map fun request => ⟨.establish request.1 request.2, none⟩, []⟩ = due := by
    induction due with
    | nil => rfl
    | cons request rest ih => exact congrArg _ ih
  rw [Journal.transmits, asking, List.filterMap_append]
  exact congrArg _ hdue

theorem advances_asking (node : Node) (due : List (Rank × Channel)) :
    node.Advances (node.asking due) := by
  refine ⟨⟨rfl, id, _, rfl, ?_⟩, rfl, rfl, rfl⟩
  intro attempt hattempt
  obtain ⟨request, -, rfl⟩ := List.mem_map.1 hattempt
  rfl

/-- A refused request fails the node. -/
theorem Calls.accepted_of_working {kind : Call → Prop} {accepted : Bool}
    (h : Calls kind node (next, accepted)) (hworking : next.isFailed = false) :
    accepted = true := by
  cases h with
  | accepted => rfl
  | refused => exact absurd hworking (by simp)

end Node

end MeshFormation
