import CanTelemetry.Foundation.Threads

/-! The lifecycle controller: four independent atomics. An operation that reads one and
stores another is a procedure, since other threads may act between the two; the loops
around a weak exchange go on with the value that the exchange found. -/

namespace CanTelemetry.CanBus

open Threads

inductive LifecycleState
  | stopped | running | stopping | faulted
  deriving DecidableEq, Repr

structure LifecycleController where
  state : LifecycleState := .stopped
  driverInstalled : Bool := false
  driverStarted : Bool := false
  taskOwned : Bool := false
  deriving DecidableEq, Repr

/-- A flag that nobody sets stays cleared. -/
theorem stays_cleared {before after : Bool} (falls : after = true → before = true)
    (cleared : before = false) : after = false := by
  cases after with
  | false => rfl
  | true => exact (falls rfl).symm.trans cleared

namespace LifecycleController

variable (c : LifecycleController)

/-- One strong exchange; only a stopped controller can be reserved. -/
def beginStart : LifecycleController × Bool :=
  if c.state = .stopped then ({ c with state := .running }, true) else (c, false)

def markDriverInstalled : LifecycleController := { c with driverInstalled := true }

def markDriverStarted : LifecycleController := { c with driverStarted := true }

def markTaskCreated : LifecycleController := { c with taskOwned := true }

def markDriverStopped : LifecycleController := { c with driverStarted := false }

def markDriverUninstalled : LifecycleController := { c with driverInstalled := false }

def acknowledgeTask : LifecycleController := { c with taskOwned := false }

end LifecycleController

/-- `abort_start` -/
inductive AbortPc
  | loadInstalled | loadOwned | storeStopped
  deriving DecidableEq

def AbortPc.step (c : LifecycleController) : AbortPc → LifecycleController × Control AbortPc Unit
  | .loadInstalled => (c, if c.driverInstalled then .ret () else .next .loadOwned)
  | .loadOwned => (c, if c.taskOwned then .ret () else .next .storeStopped)
  | .storeStopped => ({ c with state := .stopped }, .ret ())

/-- `begin_stop`; the loop never exchanges a stopped state. -/
inductive BeginStopPc
  | load
  | exchange (current : LifecycleState) (live : current ≠ .stopped)
  deriving DecidableEq

namespace BeginStopPc

def test : LifecycleState → Control BeginStopPc Bool
  | .stopped => .ret false
  | .stopping => .ret true
  | .running => .next (.exchange .running (by decide))
  | .faulted => .next (.exchange .faulted (by decide))

def step (c : LifecycleController) (cas : Bool) :
    BeginStopPc → LifecycleController × Control BeginStopPc Bool
  | .load => (c, test c.state)
  | .exchange current _ =>
    if cas ∧ c.state = current then ({ c with state := .stopping }, .ret true)
    else (c, test c.state)

/-- Either the state is only looked at, or a live state becomes Stopping. -/
theorem step_cases (c : LifecycleController) (cas : Bool) (pc : BeginStopPc) :
    pc.step c cas = (c, test c.state) ∨
      c.state ≠ .stopped ∧ pc.step c cas = ({ c with state := .stopping }, .ret true) := by
  cases pc with
  | load => exact .inl rfl
  | exchange current live =>
    by_cases won : cas = true ∧ c.state = current
    · right
      refine ⟨?_, if_pos won⟩
      rw [won.2]
      exact live
    · exact .inl (if_neg won)

end BeginStopPc

/-- `latch_fault`; the loop never exchanges a stopped state. -/
inductive LatchFaultPc
  | load
  | exchange (current : LifecycleState) (live : current ≠ .stopped)
  deriving DecidableEq

namespace LatchFaultPc

def test : LifecycleState → Control LatchFaultPc Bool
  | .faulted => .ret false
  | .stopped => .ret false
  | .running => .next (.exchange .running (by decide))
  | .stopping => .next (.exchange .stopping (by decide))

def step (c : LifecycleController) (cas : Bool) :
    LatchFaultPc → LifecycleController × Control LatchFaultPc Bool
  | .load => (c, test c.state)
  | .exchange current _ =>
    if cas ∧ c.state = current then ({ c with state := .faulted }, .ret true)
    else (c, test c.state)

/-- Either the state is only looked at, or a live state becomes Faulted. -/
theorem step_cases (c : LifecycleController) (cas : Bool) (pc : LatchFaultPc) :
    pc.step c cas = (c, test c.state) ∨
      c.state ≠ .stopped ∧ pc.step c cas = ({ c with state := .faulted }, .ret true) := by
  cases pc with
  | load => exact .inl rfl
  | exchange current live =>
    by_cases won : cas = true ∧ c.state = current
    · right
      refine ⟨?_, if_pos won⟩
      rw [won.2]
      exact live
    · exact .inl (if_neg won)

end LatchFaultPc

/-- `reconcile`: the flags are read first and the state they call for is stored last. -/
inductive ReconcilePc
  | loadOwned
  | loadInstalled
  | store (target : LifecycleState)
  deriving DecidableEq

def ReconcilePc.step (c : LifecycleController) :
    ReconcilePc → LifecycleController × Control ReconcilePc Unit
  | .loadOwned => (c, .next (if c.taskOwned then .store .stopping else .loadInstalled))
  | .loadInstalled => (c, .next (.store (if c.driverInstalled then .faulted else .stopped)))
  | .store target => ({ c with state := target }, .ret ())

end CanTelemetry.CanBus
