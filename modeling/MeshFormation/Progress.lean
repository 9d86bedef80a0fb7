import MeshFormation.Event

/-!
# Progress of a node

A node counts down the connections that it still expects and passes through the phases forming,
ready and failed. Both movements are one-way: counts only fall, apart from one announced raise of
the transmit count, and a phase that was left is never entered again.
-/

namespace MeshFormation

inductive Counter where
  | rx
  | tx
  | network
deriving DecidableEq

def Counter.name : Counter → String
  | rx => "rx"
  | tx => "tx"
  | network => "network"

/-- The counter that a completed connection lowers. -/
def Direction.counter : Direction → Counter
  | rx => .rx
  | tx => .tx

/-- A completion arrived for a counter that stands at zero. -/
structure SurplusCompletion where
  counter : Counter
deriving DecidableEq

def SurplusCompletion.message (surplus : SurplusCompletion) : String :=
  let kind := surplus.counter.name
  s!"Unexpected {kind} completion: no {kind} connections outstanding"

structure Expected where
  rx : Nat
  tx : Nat
  network : Nat
deriving DecidableEq

namespace Expected

def count (expected : Expected) : Counter → Nat
  | .rx => expected.rx
  | .tx => expected.tx
  | .network => expected.network

def meshDone (expected : Expected) : Bool := expected.rx == 0 && expected.tx == 0

def allDone (expected : Expected) : Bool := expected.meshDone && expected.network == 0

/-- Lowers one count, which must not stand at zero. -/
def complete (expected : Expected) (counter : Counter) : Except SurplusCompletion Expected :=
  if expected.count counter = 0 then .error ⟨counter⟩
  else .ok <|
    match counter with
    | .rx => { expected with rx := expected.rx - 1 }
    | .tx => { expected with tx := expected.tx - 1 }
    | .network => { expected with network := expected.network - 1 }

/-- Raises the transmit count, which is a 64-bit word. -/
def raiseTransmits (expected : Expected) (extra : Nat) : Expected :=
  { expected with tx := (expected.tx + extra) % UInt64.size }

/-- A completion is refused exactly where nothing is outstanding. -/
theorem complete_eq_error_iff {expected : Expected} {counter : Counter}
    {surplus : SurplusCompletion} :
    expected.complete counter = .error surplus ↔
      expected.count counter = 0 ∧ surplus = ⟨counter⟩ := by
  unfold complete
  split <;> simp_all [eq_comm]

/-- A completion lowers its own count by one and no other. -/
theorem count_of_complete {expected next : Expected} {counter : Counter}
    (h : expected.complete counter = .ok next) (other : Counter) :
    expected.count other = next.count other + if other = counter then 1 else 0 := by
  unfold complete at h
  split at h
  · exact absurd h (by simp)
  · obtain rfl := Except.ok.inj h
    rename_i hne
    cases counter <;> cases other <;> simp_all [count] <;> omega

end Expected

inductive Phase where
  | forming
  | ready
  | failed
deriving DecidableEq

namespace Phase

def canBecome : Phase → Phase → Bool
  | forming, ready => true
  | forming, failed => true
  | ready, failed => true
  | _, _ => false

/-- Whether forming is over, for better or worse. -/
def isTerminal : Phase → Bool
  | forming => false
  | ready => true
  | failed => true

end Phase

structure Progress where
  phase : Phase
  expected : Expected
  locked : Bool
deriving DecidableEq

namespace Progress

def start (expected : Expected) : Progress := ⟨.forming, expected, false⟩

def isFailed (progress : Progress) : Bool := progress.phase == .failed

/-- Whether nothing is outstanding on a node that has not failed. -/
def isReady (progress : Progress) : Bool :=
  !progress.isFailed && progress.expected.allDone

def complete (progress : Progress) (counter : Counter) : Except SurplusCompletion Progress :=
  match progress.expected.complete counter with
  | .error surplus => .error surplus
  | .ok expected => .ok { progress with expected }

def raiseTransmits (progress : Progress) (extra : Nat) : Progress :=
  { progress with expected := progress.expected.raiseTransmits extra }

def lock (progress : Progress) : Progress := { progress with locked := true }

/-- Enters the given phase, unless that is not allowed from here. -/
def enter? (progress : Progress) (phase : Phase) : Option Progress :=
  if progress.phase.canBecome phase then some { progress with phase } else none

/-- The rule that readiness means no failure and nothing outstanding. -/
def readinessHolds (progress : Progress) : Bool :=
  progress.isReady == (!progress.isFailed && progress.expected.allDone)

/-- The rule that the backend is locked only once the local mesh is complete. -/
def lockHolds (progress : Progress) : Bool :=
  !progress.locked || progress.expected.meshDone

/-- A completed connection changes a count and nothing else. -/
theorem exists_expected_of_complete {progress next : Progress} {counter : Counter}
    (h : progress.complete counter = .ok next) : ∃ expected,
      progress.expected.complete counter = .ok expected ∧ next = { progress with expected } := by
  unfold complete at h
  split at h
  · exact absurd h (by simp)
  · rename_i expected hexpected
    exact ⟨expected, hexpected, (Except.ok.inj h).symm⟩

theorem phase_of_complete {progress next : Progress} {counter : Counter}
    (h : progress.complete counter = .ok next) : next.phase = progress.phase := by
  obtain ⟨expected, -, rfl⟩ := exists_expected_of_complete h
  rfl

theorem locked_of_complete {progress next : Progress} {counter : Counter}
    (h : progress.complete counter = .ok next) : next.locked = progress.locked := by
  obtain ⟨expected, -, rfl⟩ := exists_expected_of_complete h
  rfl

/-- Every phase but the last one can become the failed phase. -/
theorem enter?_failed_eq_none_iff {progress : Progress} :
    progress.enter? .failed = none ↔ progress.isFailed = true := by
  unfold enter? isFailed
  cases progress.phase <;> simp [Phase.canBecome]

end Progress

end MeshFormation
