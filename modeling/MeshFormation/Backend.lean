import MeshFormation.Failure

/-!
# The backend and the delegate of a node

A node acts on the world by calls to its backend, each of which may be refused, and by notices to
its delegate. Both are kept in a journal, in order, so that everything a node did can be read off
its state. A backend is known by which calls it refuses, given all that was asked of it before.
-/

namespace MeshFormation

/-- The bytes of an encoded control message. -/
abbrev Payload := ByteArray

instance : DecidableEq Payload := ByteArray.instDecidableEq

inductive Call where
  /-- Start to transmit the data of `source` on a local channel. -/
  | establish (source : Rank) (channel : Channel)
  /-- Stop to use a channel whose peer was rejected. -/
  | disable (channel : Channel)
  /-- Freeze the mesh once every local connection exists. -/
  | lock
  /-- Hand an encoded control message to the messaging transport. -/
  | send (receiver : Rank) (payload : Payload)
deriving DecidableEq

def Call.operation : Call → String
  | establish _ _ => "establish_transmit"
  | disable _ => "disable_channel"
  | lock => "lock"
  | send _ _ => "send_control_message"

structure Attempt where
  call : Call
  refusal : Option Refusal
deriving DecidableEq

inductive Notice where
  | ready
  | failed (reason : FailureReason)
  /-- A network link to a partition partner is wanted. -/
  | hostname (name : String) (rank : Rank)
deriving DecidableEq

/-- Which calls a backend refuses, given all attempts made before. -/
abbrev Backend := List Attempt → Call → Option Refusal

def Backend.accepting : Backend := fun _ _ => none

/-- All calls that were attempted and all notices that were given, in order. -/
structure Journal where
  attempts : List Attempt
  notices : List Notice
deriving DecidableEq

namespace Journal

def empty : Journal := ⟨[], []⟩

/-- Attempts a call and records how it went. -/
def attempt (journal : Journal) (backend : Backend) (call : Call) :
    Journal × Option Refusal :=
  let refusal := backend journal.attempts call
  ({ journal with attempts := journal.attempts ++ [⟨call, refusal⟩] }, refusal)

def notify (journal : Journal) (notice : Notice) : Journal :=
  { journal with notices := journal.notices ++ [notice] }

/-- The calls that were accepted, in order. -/
def accepted (journal : Journal) : List Call :=
  (journal.attempts.filter (·.refusal.isNone)).map (·.call)

def locks (journal : Journal) : Nat := journal.accepted.count .lock

def readySignals (journal : Journal) : Nat := journal.notices.count .ready

def failures (journal : Journal) : List FailureReason :=
  journal.notices.filterMap fun
    | .failed reason => some reason
    | _ => none

/-- The hostnames for which network links were wanted, in order. -/
def hostnames (journal : Journal) : List (String × Rank) :=
  journal.notices.filterMap fun
    | .hostname name rank => some (name, rank)
    | _ => none

theorem mem_accepted_iff {journal : Journal} {call : Call} :
    call ∈ journal.accepted ↔ (⟨call, none⟩ : Attempt) ∈ journal.attempts := by
  rw [accepted, List.mem_map]
  constructor
  · rintro ⟨⟨made, refusal⟩, hmem, rfl⟩
    obtain ⟨hmem, hnone⟩ := List.mem_filter.1 hmem
    cases refusal with
    | none => exact hmem
    | some refusal => exact absurd hnone (by simp)
  · intro hmem
    exact ⟨_, List.mem_filter.2 ⟨hmem, rfl⟩, rfl⟩

end Journal

end MeshFormation
