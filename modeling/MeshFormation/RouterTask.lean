import MeshFormation.Service

/-!
# Router tasks

A router is driven by one task that takes deliveries from a queue, so that those of many sources
are applied one at a time, in the order of their arrival. Once the task is stopped, everything that
is asked of it is answered by an error, and the service is gone.
-/

namespace MeshFormation

/-- A task that serves a router, or has stopped. -/
inductive RouterTask where
  | serving (service : Service)
  | stopped
deriving DecidableEq

namespace RouterTask

def submit (task : RouterTask) (backend : Backend) (delivery : Delivery) :
    RouterTask × Except RouterError Unit :=
  match task with
  | stopped => (stopped, .error .routerStopped)
  | serving service =>
    let (service, result) := service.deliver backend delivery
    (serving service, result)

def snapshot : RouterTask → Except RouterError Snapshot
  | stopped => .error .routerStopped
  | serving service => .ok service.router.snapshot

def abort (_ : RouterTask) : RouterTask := stopped

def isClosed : RouterTask → Bool
  | stopped => true
  | serving _ => false

/-- The service, handed back when nobody can submit to the task any more. -/
def release? : RouterTask → Option Service
  | stopped => none
  | serving service => some service

end RouterTask

end MeshFormation
