import MeshFormation.Backend

/-!
# Fault plans

A backend that refuses on purpose, for trying out how a node takes it. Some operations are refused
whenever they are asked for, and of some a single call is refused.
-/

namespace MeshFormation

/-- A single refusal of an operation, given by the number of calls of it that come before. -/
structure SingleFault where
  operation : String
  due : Nat
  detail : String
deriving DecidableEq

structure FaultPlan where
  always : List String
  once : List SingleFault
deriving DecidableEq

def attemptCount (history : List Attempt) (operation : String) : Nat :=
  history.countP (·.call.operation == operation)

namespace FaultPlan

def empty : FaultPlan := ⟨[], []⟩

/-- Every further call of an operation is refused. -/
def refuseAll (plan : FaultPlan) (operation : String) : FaultPlan :=
  { plan with always := operation :: plan.always }

/-- After a number of further calls of an operation, the next one is refused. A plan has one single
refusal for each operation. -/
def refuseAfter (plan : FaultPlan) (history : List Attempt) (operation : String) (after : Nat)
    (detail : String) : FaultPlan :=
  { plan with
    once := ⟨operation, attemptCount history operation + after, detail⟩ ::
      plan.once.filter (·.operation != operation) }

/-- The backend that follows the plan. A single refusal comes before a general one. -/
def backend (plan : FaultPlan) : Backend := fun history call =>
  let operation := call.operation
  match plan.once.find? fun fault =>
      fault.operation == operation && fault.due == attemptCount history operation with
  | some fault => some ⟨operation, fault.detail⟩
  | none => if plan.always.contains operation then some ⟨operation, "injected failure"⟩ else none

end FaultPlan

end MeshFormation
