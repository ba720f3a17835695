import CanTelemetry.CanBus.Lifecycle
import CanTelemetry.CanBus.Spsc
import CanTelemetry.Foundation.Semaphore
import CanTelemetry.VehicleCore.Frame

/-! The CAN bus component: its global state, start(), stop(), receive(), statistics()
and the receive task, each as a procedure over the shared state, and the system in
which any number of them run. What a driver or RTOS call returns is part of the
schedule. A blocking take that is granted needs a token; one that is not granted has
timed out. -/

namespace CanTelemetry.CanBus

open Threads VehicleCore

def queueCapacity : ℕ := 64

instance : NeZero queueCapacity := ⟨by decide⟩

inductive Result
  | ok | invalidConfiguration | alreadyStarted | notStarted | stopping | faulted | timeout
  | driverFailure | taskFailure
  deriving DecidableEq, Repr

structure Configuration where
  bitrateBps : BitVec 32 := 500000
  busId : BitVec 8 := 0
  deriving DecidableEq

def isConfigurationValid (configuration : Configuration) : Bool :=
  configuration.bitrateBps ∈ [125000, 250000, 500000, 1000000]

/-- Unsigned subtraction keeps the delta across a wrap of the driver's counter. -/
def counterDelta (current previous : BitVec 32) : BitVec 64 := (current - previous).setWidth 64

/-- The state of the TWAI driver itself, which it may leave for bus-off on its own. -/
inductive DriverState
  | uninstalled | stopped | running | busOff
  deriving DecidableEq, Repr

/-- The globals of the component. A semaphore is null until the first start() creates it. -/
structure Shared (w : ℕ) where
  frames : FrameRing w queueCapacity RawCanFrame := default
  available : Option (Semaphore queueCapacity) := none
  taskStopped : Option (Semaphore 1) := none
  receiveRequested : Bool := false
  lifecycle : LifecycleController := {}
  busId : BitVec 8 := 0
  hasStartedBefore : Bool := false
  lastDriverRxMissed : BitVec 32 := 0
  lastDriverRxOverrun : BitVec 32 := 0
  lastDriverBusErrors : BitVec 32 := 0
  driver : DriverState := .uninstalled

variable {w : ℕ}

/-- A step of a procedure on the globals; a call on a null semaphore has no outcome. -/
abbrev Outcome (w : ℕ) (π ρ : Type*) := Option (Shared w × Control π ρ)

/-- What `xSemaphoreTake` with no wait does: the program goes on at one of two points. -/
def takeNow {π ρ : Type*} {limit : ℕ} (semaphore : Option (Semaphore limit))
    (taken : Semaphore limit → Shared w × Control π ρ) (empty : Shared w × Control π ρ) :
    Outcome w π ρ :=
  semaphore.map fun s => (s.take?.map taken).getD empty

/-- `xSemaphoreTake` with a bounded wait; it can be granted only while there is a token. -/
def takeWithin {π ρ : Type*} {limit : ℕ} (semaphore : Option (Semaphore limit)) (granted : Bool)
    (taken : Semaphore limit → Shared w × Control π ρ) (expired : Shared w × Control π ρ) :
    Outcome w π ρ :=
  semaphore.bind fun s => if granted then s.take?.map taken else some expired

/-! ### start() -/

inductive StartPc (w : ℕ)
  | beginStart
  | refused
  | createAvailable
  | createTaskStopped
  | abort (pc : AbortPc) (result : Result)
  | drainAvailable
  | drainTaskStopped
  | driverInstall
  | markInstalled
  | driverStart
  | markStarted
  | clear (pc : ClearPc w)
  | setBusId
  | recordReset
  | resetLastCounters
  | request
  | markTask
  | createTask
  | setStartedBefore
  /-- From here on a task that could not be created is undone. -/
  | unrequest
  | disown
  | beginStop (pc : BeginStopPc)
  | driverStop
  | markStopped
  /-- The last part of both failure paths, with what start() will return. -/
  | driverUninstall (result : Result)
  | markUninstalled (result : Result)
  | reconcile (pc : ReconcilePc) (result : Result)

def refusedResult : LifecycleState → Result
  | .running => .alreadyStarted
  | .stopping => .stopping
  | .faulted => .faulted
  | .stopped => .notStarted

/-- start() goes on only with both semaphores. -/
def Shared.afterCreation (sh : Shared w) : StartPc w :=
  if sh.available.isNone ∨ sh.taskStopped.isNone then .abort .loadInstalled .taskFailure
  else .drainAvailable

/-- `ok` is the result of the driver or RTOS call that the step makes, or whether a weak
exchange that could succeed does. -/
def StartPc.step (configuration : Configuration) (sh : Shared w) (ok : Bool) :
    StartPc w → Outcome w (StartPc w) Result
  | .beginStart =>
    if !isConfigurationValid configuration then some (sh, .ret .invalidConfiguration)
    else some ({ sh with lifecycle := sh.lifecycle.beginStart.1 },
      .next (if sh.lifecycle.beginStart.2 then .createAvailable else .refused))
  | .refused => some (sh, .ret (refusedResult sh.lifecycle.state))
  | .createAvailable =>
    some ({ sh with available := sh.available.or (if ok then some .empty else none) },
      .next .createTaskStopped)
  | .createTaskStopped =>
    let sh := { sh with taskStopped := sh.taskStopped.or (if ok then some .empty else none) }
    some (sh, .next sh.afterCreation)
  | .abort pc result =>
    some ({ sh with lifecycle := (pc.step sh.lifecycle).1 },
      (pc.step sh.lifecycle).2.call (.abort · result) fun _ => .ret result)
  | .drainAvailable =>
    takeNow sh.available (fun s => ({ sh with available := some s }, .next .drainAvailable))
      (sh, .next .drainTaskStopped)
  | .drainTaskStopped =>
    takeNow sh.taskStopped (fun s => ({ sh with taskStopped := some s }, .next .drainTaskStopped))
      (sh, .next .driverInstall)
  | .driverInstall =>
    if ok then some ({ sh with driver := .stopped }, .next .markInstalled)
    else some (sh, .next (.abort .loadInstalled .driverFailure))
  | .markInstalled =>
    some ({ sh with lifecycle := sh.lifecycle.markDriverInstalled }, .next .driverStart)
  | .driverStart =>
    if ok then some ({ sh with driver := .running }, .next .markStarted)
    else some (sh, .next (.driverUninstall .driverFailure))
  | .markStarted =>
    some ({ sh with lifecycle := sh.lifecycle.markDriverStarted }, .next (.clear .loadHead))
  | .clear pc =>
    some ({ sh with frames := (pc.step sh.frames ok).1 },
      (pc.step sh.frames ok).2.call .clear fun _ => .next .setBusId)
  | .setBusId => some ({ sh with busId := configuration.busId }, .next .recordReset)
  | .recordReset =>
    some ({ sh with frames :=
      if sh.hasStartedBefore then sh.frames.recordControllerReset else sh.frames },
      .next .resetLastCounters)
  | .resetLastCounters =>
    some ({ sh with lastDriverBusErrors := 0, lastDriverRxMissed := 0, lastDriverRxOverrun := 0 },
      .next .request)
  | .request => some ({ sh with receiveRequested := true }, .next .markTask)
  | .markTask => some ({ sh with lifecycle := sh.lifecycle.markTaskCreated }, .next .createTask)
  | .createTask => some (sh, .next (if ok then .setStartedBefore else .unrequest))
  | .setStartedBefore => some ({ sh with hasStartedBefore := true }, .ret .ok)
  | .unrequest => some ({ sh with receiveRequested := false }, .next .disown)
  | .disown =>
    some ({ sh with lifecycle := sh.lifecycle.acknowledgeTask }, .next (.beginStop .load))
  | .beginStop pc =>
    some ({ sh with lifecycle := (pc.step sh.lifecycle ok).1 },
      (pc.step sh.lifecycle ok).2.call .beginStop fun _ => .next .driverStop)
  | .driverStop =>
    if ok then some ({ sh with driver := .stopped }, .next .markStopped)
    else some (sh, .next (.reconcile .loadOwned .taskFailure))
  | .markStopped =>
    some ({ sh with lifecycle := sh.lifecycle.markDriverStopped },
      .next (.driverUninstall .taskFailure))
  | .driverUninstall result =>
    if ok then some ({ sh with driver := .uninstalled }, .next (.markUninstalled result))
    else some (sh, .next (.reconcile .loadOwned result))
  | .markUninstalled result =>
    some ({ sh with lifecycle := sh.lifecycle.markDriverUninstalled },
      .next (.reconcile .loadOwned result))
  | .reconcile pc result =>
    some ({ sh with lifecycle := (pc.step sh.lifecycle).1 },
      (pc.step sh.lifecycle).2.call (.reconcile · result) fun _ => .ret result)

/-! ### stop() -/

inductive StopPc
  | begin (pc : BeginStopPc)
  | unrequest
  | loadStarted
  | driverStop
  | markStopped
  | loadOwned (driverStopped : Bool)
  | awaitTask (driverStopped : Bool)
  | acknowledge (driverStopped : Bool)
  /-- The task had acknowledged before; its token is dropped without waiting for it. -/
  | dropToken (driverStopped : Bool)
  | loadInstalled (driverStopped taskStopped : Bool)
  | driverUninstall
  | markUninstalled
  | reconcile (pc : ReconcilePc) (driverStopped taskStopped driverUninstalled : Bool)
  | drainAvailable
  deriving DecidableEq

def StopPc.step (sh : Shared w) (ok : Bool) : StopPc → Outcome w StopPc Result
  | .begin pc =>
    some ({ sh with lifecycle := (pc.step sh.lifecycle ok).1 },
      (pc.step sh.lifecycle ok).2.call .begin fun begun =>
        if begun then .next .unrequest else .ret .notStarted)
  | .unrequest => some ({ sh with receiveRequested := false }, .next .loadStarted)
  | .loadStarted =>
    some (sh, .next (if sh.lifecycle.driverStarted then .driverStop else .loadOwned true))
  | .driverStop =>
    if ok then some ({ sh with driver := .stopped }, .next .markStopped)
    else some (sh, .next (.loadOwned false))
  | .markStopped =>
    some ({ sh with lifecycle := sh.lifecycle.markDriverStopped }, .next (.loadOwned true))
  | .loadOwned driverStopped =>
    some (sh, .next (if sh.lifecycle.taskOwned then .awaitTask driverStopped
      else .dropToken driverStopped))
  | .awaitTask driverStopped =>
    takeWithin sh.taskStopped ok
      (fun s => ({ sh with taskStopped := some s }, .next (.acknowledge driverStopped)))
      (sh, .next (.loadInstalled driverStopped false))
  | .acknowledge driverStopped =>
    some ({ sh with lifecycle := sh.lifecycle.acknowledgeTask },
      .next (.loadInstalled driverStopped true))
  | .dropToken driverStopped =>
    takeNow sh.taskStopped
      (fun s => ({ sh with taskStopped := some s }, .next (.loadInstalled driverStopped true)))
      (sh, .next (.loadInstalled driverStopped true))
  | .loadInstalled driverStopped taskStopped =>
    some (sh, .next (if driverStopped ∧ taskStopped ∧ sh.lifecycle.driverInstalled then
      .driverUninstall
      else .reconcile .loadOwned driverStopped taskStopped (!sh.lifecycle.driverInstalled)))
  | .driverUninstall =>
    if ok then some ({ sh with driver := .uninstalled }, .next .markUninstalled)
    else some (sh, .next (.reconcile .loadOwned true true false))
  | .markUninstalled =>
    some ({ sh with lifecycle := sh.lifecycle.markDriverUninstalled },
      .next (.reconcile .loadOwned true true true))
  | .reconcile pc driverStopped taskStopped driverUninstalled =>
    some ({ sh with lifecycle := (pc.step sh.lifecycle).1 },
      (pc.step sh.lifecycle).2.call
        (.reconcile · driverStopped taskStopped driverUninstalled) fun _ =>
          if driverStopped ∧ taskStopped ∧ driverUninstalled then .next .drainAvailable
          else .ret (if taskStopped then .driverFailure else .taskFailure))
  | .drainAvailable =>
    match sh.available with
    | none => some (sh, .ret .ok)
    | some _ =>
      takeNow sh.available (fun s => ({ sh with available := some s }, .next .drainAvailable))
        (sh, .ret .ok)

inductive DriverCall
  | install | start | stop | uninstall
  deriving DecidableEq, Repr

/-- A call of start() or of stop() in progress. -/
inductive CallPc (w : ℕ)
  | start (configuration : Configuration) (pc : StartPc w)
  | stop (pc : StopPc)

def CallPc.step (sh : Shared w) (ok : Bool) : CallPc w → Outcome w (CallPc w) Result
  | .start configuration pc => (pc.step configuration sh ok).map fun (sh, control) =>
    (sh, control.call (.start configuration) .ret)
  | .stop pc => (pc.step sh ok).map fun (sh, control) => (sh, control.call .stop .ret)

theorem CallPc.step_start {configuration : Configuration} {pc : StartPc w} {sh sh' : Shared w}
    {ok : Bool} {control : Control (CallPc w) Result}
    (step : (CallPc.start configuration pc).step sh ok = some (sh', control)) :
    ∃ inner, pc.step configuration sh ok = some (sh', inner) ∧
      control = inner.call (.start configuration) .ret := by
  obtain ⟨⟨sh'', inner⟩, inside, same⟩ := Option.map_eq_some_iff.mp step
  obtain ⟨rfl, rfl⟩ := Prod.mk.inj same
  exact ⟨inner, inside, rfl⟩

theorem CallPc.step_stop {pc : StopPc} {sh sh' : Shared w} {ok : Bool}
    {control : Control (CallPc w) Result}
    (step : (CallPc.stop pc).step sh ok = some (sh', control)) :
    ∃ inner, pc.step sh ok = some (sh', inner) ∧ control = inner.call .stop .ret := by
  obtain ⟨⟨sh'', inner⟩, inside, same⟩ := Option.map_eq_some_iff.mp step
  obtain ⟨rfl, rfl⟩ := Prod.mk.inj same
  exact ⟨inner, inside, rfl⟩

/-- The driver call that the next step makes. -/
def CallPc.driverCall : CallPc w → Option DriverCall
  | .start _ .driverInstall => some .install
  | .start _ .driverStart => some .start
  | .start _ .driverStop | .stop .driverStop => some .stop
  | .start _ (.driverUninstall _) | .stop .driverUninstall => some .uninstall
  | _ => none

/-- The next step waits for the task's acknowledgement. -/
def CallPc.awaits : CallPc w → Bool
  | .stop (.awaitTask _) => true
  | _ => false

/-! ### The receive task -/

structure TwaiMessage where
  identifier : BitVec 32 := 0
  extd : Bool := false
  rtr : Bool := false
  dataLengthCode : BitVec 8 := 0
  data : Vector (BitVec 8) canClassicPayloadBytes := Vector.replicate canClassicPayloadBytes 0
  deriving DecidableEq

structure TwaiStatus where
  rxMissedCount : BitVec 32 := 0
  rxOverrunCount : BitVec 32 := 0
  busErrorCount : BitVec 32 := 0
  deriving DecidableEq

inductive ReceiveOutcome
  | message (message : TwaiMessage)
  | timeout
  | failed
  deriving DecidableEq

/-- Of the alert bits only bus-off is looked at. -/
inductive AlertsOutcome
  | alerts (busOff : Bool)
  | timeout
  | failed
  deriving DecidableEq

/-- What the calls of a task step return; a failed status call is `none`. -/
structure TaskEnv where
  cas : Bool := true
  received : ReceiveOutcome := .timeout
  time : MonotonicTimestamp := 0
  status : Option TwaiStatus := some {}
  alerts : AlertsOutcome := .timeout
  deriving DecidableEq

/-- `latch_terminal_fault` -/
inductive LatchPc
  | unrequest
  | latch (pc : LatchFaultPc)
  | wake
  deriving DecidableEq

def LatchPc.step (sh : Shared w) (cas : Bool) : LatchPc → Outcome w LatchPc Unit
  | .unrequest => some ({ sh with receiveRequested := false }, .next (.latch .load))
  | .latch pc =>
    some ({ sh with lifecycle := (pc.step sh.lifecycle cas).1 },
      (pc.step sh.lifecycle cas).2.call .latch fun (new : Bool) =>
        if new ∧ sh.available.isSome then .next .wake else .ret ())
  | .wake => sh.available.map fun s => ({ sh with available := some s.give }, .ret ())

inductive TaskPc (w : ℕ)
  | loopTest
  | receive
  | stamp (message : TwaiMessage)
  | recordInvalid
  | push (pc : PushPc w RawCanFrame)
  | giveAvailable
  | readStatus
  | recordBusErrors (status : TwaiStatus)
  | recordMissed (status : TwaiStatus)
  | storeLast (status : TwaiStatus)
  | readAlerts
  | recordBusOff
  | latch (pc : LatchPc)
  | acknowledge
  | giveStopped
  | delete
  deriving DecidableEq

def TwaiMessage.frame (message : TwaiMessage) (time : MonotonicTimestamp) (busId : BitVec 8) :
    RawCanFrame where
  timestampUs := time
  busId := busId
  identifier := message.identifier
  identifierFormat := if message.extd then .extended else .standard
  remoteRequest := message.rtr
  dlc := message.dataLengthCode
  data := message.data

/-- Every way out of the loop passes `acknowledge`. -/
def TaskPc.step (env : TaskEnv) (sh : Shared w) : TaskPc w → Outcome w (TaskPc w) Unit
  | .loopTest => some (sh, .next (if sh.receiveRequested then .receive else .acknowledge))
  | .receive => some (sh, .next (match env.received with
    | .message message => .stamp message
    | .timeout => .readStatus
    | .failed => .latch .unrequest))
  | .stamp message =>
    let frame := message.frame env.time sh.busId
    some (sh, .next (if frame.isValid then .push (.countReceived frame) else .recordInvalid))
  | .recordInvalid =>
    some ({ sh with frames := sh.frames.recordDriverRxMissed }, .next .readStatus)
  | .push pc =>
    some ({ sh with frames := (pc.step sh.frames env.cas).1 },
      (pc.step sh.frames env.cas).2.call .push fun accepted =>
        .next (if accepted then .giveAvailable else .readStatus))
  | .giveAvailable =>
    sh.available.map fun s => ({ sh with available := some s.give }, .next .readStatus)
  | .readStatus => some (sh, .next (match env.status with
    | some status => .recordBusErrors status
    | none => .latch .unrequest))
  | .recordBusErrors status =>
    let errors := counterDelta status.busErrorCount sh.lastDriverBusErrors
    some ({ sh with frames := sh.frames.recordBusError errors }, .next (.recordMissed status))
  | .recordMissed status =>
    let missed := counterDelta status.rxMissedCount sh.lastDriverRxMissed +
      counterDelta status.rxOverrunCount sh.lastDriverRxOverrun
    some ({ sh with frames := sh.frames.recordDriverRxMissed missed }, .next (.storeLast status))
  | .storeLast status =>
    some ({ sh with
      lastDriverBusErrors := status.busErrorCount
      lastDriverRxMissed := status.rxMissedCount
      lastDriverRxOverrun := status.rxOverrunCount }, .next .readAlerts)
  | .readAlerts => some (sh, .next (match env.alerts with
    | .timeout => .loopTest
    | .failed => .latch .unrequest
    | .alerts busOff => if busOff then .recordBusOff else .loopTest))
  | .recordBusOff => some ({ sh with frames := sh.frames.recordBusOff }, .next (.latch .unrequest))
  | .latch pc => (pc.step sh env.cas).map fun (sh, control) =>
    (sh, control.call .latch fun _ => .next .acknowledge)
  | .acknowledge =>
    some ({ sh with lifecycle := sh.lifecycle.acknowledgeTask }, .next .giveStopped)
  | .giveStopped => sh.taskStopped.map fun s => ({ sh with taskStopped := some s.give }, .next .delete)
  | .delete => some (sh, .ret ())

/-! ### receive() -/

inductive ReceivePc (w : ℕ)
  | checkState (timeoutMs : BitVec 32)
  | take (timeoutMs : BitVec 32)
  | checkAfterTimeout
  | checkAfterTake
  | pop (pc : PopPc w RawCanFrame)
  deriving DecidableEq

/-- What receive() returns in a state other than Running. -/
def receiveRefusal : LifecycleState → Option Result
  | .stopped => some .notStarted
  | .stopping => some .stopping
  | .faulted => some .faulted
  | .running => none

def refuseOr {π : Type*} (state : LifecycleState) (otherwise : Control π (Result × Option RawCanFrame)) :
    Control π (Result × Option RawCanFrame) :=
  match receiveRefusal state with
  | some result => .ret (result, none)
  | none => otherwise

def ReceivePc.step (sh : Shared w) (granted : Bool) :
    ReceivePc w → Outcome w (ReceivePc w) (Result × Option RawCanFrame)
  | .checkState timeoutMs => some (sh, refuseOr sh.lifecycle.state (.next (.take timeoutMs)))
  | .take timeoutMs =>
    if timeoutMs = 0 then
      takeNow sh.available (fun s => ({ sh with available := some s }, .next .checkAfterTake))
        (sh, .next .checkAfterTimeout)
    else
      takeWithin sh.available granted
        (fun s => ({ sh with available := some s }, .next .checkAfterTake))
        (sh, .next .checkAfterTimeout)
  | .checkAfterTimeout => some (sh, refuseOr sh.lifecycle.state (.ret (.timeout, none)))
  | .checkAfterTake => some (sh, refuseOr sh.lifecycle.state (.next (.pop .loadTail)))
  | .pop pc =>
    some ({ sh with frames := (pc.step sh.frames).1 },
      (pc.step sh.frames).2.call .pop fun frame =>
        .ret (if frame.isSome then .ok else .driverFailure, frame))

/-! ### The system -/

/-- Receive calls are serialized by their callers; every other call may overlap. -/
structure System (w : ℕ) where
  shared : Shared w := {}
  calls : List (CallPc w) := []
  tasks : List (TaskPc w) := []
  consumer : Option (ReceivePc w) := none
  observers : List (StatisticsOperation × SnapshotPc w) := []

/-- The task that a successful `xTaskCreate` adds. -/
def CallPc.created (ok : Bool) : CallPc w → List (TaskPc w)
  | .start _ .createTask => if ok then [.loopTest] else []
  | _ => []

inductive Choice
  | beginStart (configuration : Configuration)
  | beginStop
  | call (i : ℕ) (ok : Bool)
  | task (i : ℕ) (env : TaskEnv)
  | beginReceive (timeoutMs : BitVec 32)
  | consumer (granted : Bool)
  | beginStatistics (operation : StatisticsOperation)
  | observer (i : ℕ) (cas : Bool)
  | busOff
  deriving DecidableEq

namespace System

def next (s : System w) : Choice → Option (System w)
  | .beginStart configuration =>
    some { s with calls := s.calls ++ [.start configuration .beginStart] }
  | .beginStop => some { s with calls := s.calls ++ [.stop (.begin .load)] }
  | .call i ok => s.calls[i]?.bind fun pc => (pc.step s.shared ok).map fun (shared, control) =>
    { s with
      shared := shared
      calls := resume s.calls i control
      tasks := s.tasks ++ pc.created ok }
  | .task i env => s.tasks[i]?.bind fun pc => (pc.step env s.shared).map fun (shared, control) =>
    { s with shared := shared, tasks := resume s.tasks i control }
  | .beginReceive timeoutMs =>
    if s.consumer.isNone then some { s with consumer := some (.checkState timeoutMs) } else none
  | .consumer granted => s.consumer.bind fun pc => (pc.step s.shared granted).map fun (shared, control) =>
    { s with shared := shared, consumer := control.pc? }
  | .beginStatistics operation =>
    some { s with observers := s.observers ++ [(operation, .depth .loadTailBefore)] }
  | .observer i cas => s.observers[i]?.map fun (operation, pc) =>
    { s with
      shared := { s.shared with frames := (pc.step operation s.shared.frames cas).1 }
      observers := resume s.observers i
        ((pc.step operation s.shared.frames cas).2.call (operation, ·) .ret) }
  | .busOff => if s.shared.driver = .running then
      some { s with shared := { s.shared with driver := .busOff } } else none

variable {s t : System w}

theorem next_call {i : ℕ} {ok : Bool} (step : s.next (.call i ok) = some t) :
    ∃ pc shared control, s.calls[i]? = some pc ∧ pc.step s.shared ok = some (shared, control) ∧
      t = { s with
        shared := shared
        calls := resume s.calls i control
        tasks := s.tasks ++ pc.created ok } := by
  obtain ⟨pc, hpc, step⟩ := Option.bind_eq_some_iff.mp step
  obtain ⟨⟨shared, control⟩, hstep, rfl⟩ := Option.map_eq_some_iff.mp step
  exact ⟨pc, shared, control, hpc, hstep, rfl⟩

/-- With one call in progress, that call is the one that steps. -/
theorem next_call_single {pc : CallPc w} {i : ℕ} {ok : Bool} (single : s.calls = [pc])
    (step : s.next (.call i ok) = some t) :
    ∃ shared control, pc.step s.shared ok = some (shared, control) ∧
      t = { s with
        shared := shared
        calls := control.live
        tasks := s.tasks ++ pc.created ok } := by
  obtain ⟨pc', shared, control, hpc, hstep, rfl⟩ := next_call step
  rw [single] at hpc
  obtain ⟨rfl, resumed⟩ := resume_singleton (ρ := Result) hpc
  exact ⟨shared, control, hstep, by rw [single, resumed]⟩

theorem next_task {i : ℕ} {env : TaskEnv} (step : s.next (.task i env) = some t) :
    ∃ pc shared control, s.tasks[i]? = some pc ∧ pc.step env s.shared = some (shared, control) ∧
      t = { s with shared := shared, tasks := resume s.tasks i control } := by
  obtain ⟨pc, hpc, step⟩ := Option.bind_eq_some_iff.mp step
  obtain ⟨⟨shared, control⟩, hstep, rfl⟩ := Option.map_eq_some_iff.mp step
  exact ⟨pc, shared, control, hpc, hstep, rfl⟩

theorem next_consumer {granted : Bool} (step : s.next (.consumer granted) = some t) :
    ∃ pc shared control, s.consumer = some pc ∧
      pc.step s.shared granted = some (shared, control) ∧
      t = { s with shared := shared, consumer := control.pc? } := by
  obtain ⟨pc, hpc, step⟩ := Option.bind_eq_some_iff.mp step
  obtain ⟨⟨shared, control⟩, hstep, rfl⟩ := Option.map_eq_some_iff.mp step
  exact ⟨pc, shared, control, hpc, hstep, rfl⟩

theorem next_observer {i : ℕ} {cas : Bool} (step : s.next (.observer i cas) = some t) :
    ∃ operation pc, s.observers[i]? = some (operation, pc) ∧
      t = { s with
        shared := { s.shared with frames := (pc.step operation s.shared.frames cas).1 }
        observers := resume s.observers i
          ((pc.step operation s.shared.frames cas).2.call (operation, ·) .ret) } := by
  obtain ⟨⟨operation, pc⟩, hpc, rfl⟩ := Option.map_eq_some_iff.mp step
  exact ⟨operation, pc, hpc, rfl⟩

theorem next_busOff (step : s.next .busOff = some t) :
    s.shared.driver = .running ∧ t = { s with shared := { s.shared with driver := .busOff } } := by
  obtain ⟨running, step⟩ := Option.ite_none_right_eq_some.mp step
  exact ⟨running, (Option.some.inj step).symm⟩

/-- A step of an observer or of the driver. -/
def beside : Choice → Bool
  | .beginStatistics _ | .observer _ _ | .busOff => true
  | _ => false

/-- Observers and the driver touch nothing but the counters of the ring and the driver's own
state. -/
theorem next_beside {k : Choice} (apart : beside k = true) (step : s.next k = some t) :
    ∃ frames driver observers, FrameRing.Same s.shared.frames frames ∧
      t = { s with
        shared := { s.shared with frames := frames, driver := driver }
        observers := observers } := by
  cases k with
  | beginStatistics operation =>
    obtain rfl := Option.some.inj step
    exact ⟨_, _, _, .refl _, rfl⟩
  | observer i cas =>
    obtain ⟨operation, pc, -, rfl⟩ := next_observer step
    exact ⟨_, _, _, pc.step_same operation _ cas, rfl⟩
  | busOff =>
    obtain ⟨-, rfl⟩ := next_busOff step
    exact ⟨_, _, _, .refl _, rfl⟩
  | _ => cases apart

/-- The result that a step of a start() or stop() call returns. -/
def returned (s : System w) : Choice → Option Result
  | .call i ok => (s.calls[i]?.bind (·.step s.shared ok)).bind (·.2.value?)
  | _ => none

/-- start() and stop() are serialized by their callers. -/
def serialized (s : System w) : Choice → Bool
  | .beginStart _ | .beginStop => s.calls.isEmpty
  | _ => true

/-- No further call of start() or stop() begins. -/
def withinCall (_ : System w) : Choice → Bool
  | .beginStart _ | .beginStop => false
  | _ => true

/-- Every driver call succeeds, and the acknowledgement that stop() waits for arrives. -/
def succeeding (s : System w) : Choice → Bool
  | .call i ok => (s.calls[i]?.map fun pc => pc.driverCall.isNone && !pc.awaits || ok).getD true
  | _ => true

end System

end CanTelemetry.CanBus
