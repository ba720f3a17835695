import CanTelemetry.Foundation.Execution
import CanTelemetry.Foundation.Threads
import CanTelemetry.VehicleTelemetry.Contracts

/-! The telemetry runtime: its fields, configure(), start(), stop(), diagnostics() and
the destructor, the worker's loop, and the system in which any threads call them. What
the source, the processor, the clock and the thread creation answer is part of the
schedule. A section that holds `lifecycle_mutex_` or `diagnostics_mutex_` is one step:
what it touches besides the guarded fields is at most one read of the lifecycle that
decides and one store of it. The fields of the source's ownership belong to the
operation in progress. -/

namespace CanTelemetry.VehicleTelemetry

open Execution Threads VehicleCore

/-- The two backends of the worker: a `std::thread`, or a FreeRTOS task. -/
inductive Platform
  | host | esp
  deriving DecidableEq, Repr

inductive SourceOwnership
  | none | successfulStart | partialStart
  deriving DecidableEq, Repr

/-- The thread that makes a call: a worker by its identifier, or any other thread. -/
abbrev Caller := Option ℕ

/-- The fields of the runtime. `worker` is `worker_` on the host, joinable when set, and
`task_` on the ESP. -/
structure Shared where
  lifecycleOperationActive : Bool := false
  config : RuntimeConfig := {}
  diagnostics : TransportDiagnostics := {}
  lifecycle : LifecycleState := .stopped
  stopRequested : Bool := false
  workerActive : Bool := false
  sourceStarted : Bool := false
  sourceOwnership : SourceOwnership := .none
  sourceStopCalled : Bool := false
  partialCleanupAttempts : BitVec 8 := 0
  sourceStopResult : ResultCode := .ok
  sourceStopRetrySupported : Bool := false
  worker : Option ℕ := none
  deriving DecidableEq

/-- What the collaborators answer at a step, which reads only what it asks for. -/
structure Answers where
  result : ResultCode := .ok
  retrySupported : Bool := false
  created : Bool := true
  statistics : AcquisitionStatistics := {}
  received : ReceiveStatus := .timeout
  frame : RawCanFrame := {}
  processed : ProcessStatus := .ignored
  now : MonotonicTimestamp := 0
  deriving DecidableEq

namespace Shared

def setLifecycleDiagnostic (sh : Shared) (lifecycle : LifecycleState)
    (transport : TransportHealth) (statistics : AcquisitionStatistics) : Shared :=
  { sh with diagnostics := { sh.diagnostics with
      lifecycle := lifecycle, transport := transport, acquisition := statistics } }

/-- The silence boundary is inclusive, and a clock that went backwards is not silence. -/
def silent (sh : Shared) (now : MonotonicTimestamp) : Bool :=
  sh.diagnostics.lastFrameUs ≤ now &&
    sh.config.transportSilenceTimeoutUs ≤ now - sh.diagnostics.lastFrameUs

def updateSilenceDiagnosticLocked (sh : Shared) (now : MonotonicTimestamp) : Shared :=
  if sh.lifecycle ≠ .running ∨ sh.diagnostics.hasLastFrame = false then sh
  else if sh.silent now then
    { sh with diagnostics := { sh.diagnostics with transport := .timedOut } }
  else sh

end Shared

/-! ### The worker -/

/-- What one pass of the loop has received so far. -/
structure Pass where
  status : ReceiveStatus
  frame : RawCanFrame
  receiveTimeUs : MonotonicTimestamp := 0
  result : Option ProcessStatus := none
  deriving DecidableEq

/-- The pass ends acquisition: the source or the processor has failed. -/
def Pass.faults (pass : Pass) : Bool :=
  pass.status = .fault || pass.status = .notStarted || pass.result = some .fault

def TransportDiagnostics.count (d : TransportDiagnostics) : ProcessStatus → TransportDiagnostics
  | .processed => { d with framesProcessed := d.framesProcessed + 1 }
  | .ignored => { d with framesIgnored := d.framesIgnored + 1 }
  | .malformed => { d with framesMalformed := d.framesMalformed + 1 }
  | .fault => { d with
      processorFaults := d.processorFaults + 1, lifecycle := .faulted, transport := .faulted }

/-- `snapshot_and_update` once the statistics and, after a timeout, the clock are sampled. -/
def Shared.snapshotAndUpdate (sh : Shared) (pass : Pass) (statistics : AcquisitionStatistics)
    (timeoutNow : MonotonicTimestamp) : Shared :=
  let d := { sh.diagnostics with acquisition := statistics }
  match pass.status, pass.result with
  | .frame, some result =>
    { sh with diagnostics := { d with
        transport := .live, hasLastFrame := true, lastFrameUs := pass.receiveTimeUs }.count result }
  | .frame, none => { sh with diagnostics := d }
  | .timeout, _ =>
    if d.hasLastFrame then
      { sh with diagnostics := d }.updateSilenceDiagnosticLocked timeoutNow
    else { sh with diagnostics := { d with transport := .awaitingTraffic } }
  | .fault, _ | .notStarted, _ =>
    { sh with diagnostics := { d with lifecycle := .faulted, transport := .faulted } }

inductive WorkerPc
  | loopTest
  | receive
  | sampleTime (status : ReceiveStatus) (frame : RawCanFrame)
  | recheck (pass : Pass)
  | process (pass : Pass)
  | sample (pass : Pass)
  | update (pass : Pass) (statistics : AcquisitionStatistics) (timeoutNow : MonotonicTimestamp)
  | onFrameProcessed (pass : Pass) (snapshot : TransportDiagnostics)
  | onDiagnostics (pass : Pass) (snapshot : TransportDiagnostics)
  | storeFaulted
  | requestStop
  | clearTask
  | clearActive
  deriving DecidableEq

namespace WorkerPc

/-- The worker runs code of the application, which may call the runtime. -/
def callsOut : WorkerPc → Bool
  | .receive | .sampleTime _ _ | .process _ | .sample _ | .onFrameProcessed _ _
  | .onDiagnostics _ _ => true
  | _ => false

/-- Where the worker goes when it leaves the loop. -/
def exit : Platform → WorkerPc
  | .host => .clearActive
  | .esp => .clearTask

def step (platform : Platform) (answers : Answers) (sh : Shared) :
    WorkerPc → Shared × Control WorkerPc Unit
  | .loopTest => (sh, .next (if sh.stopRequested then exit platform else .receive))
  | .receive => (sh, .next (.sampleTime answers.received answers.frame))
  | .sampleTime status frame =>
    (sh, .next (.recheck { status := status, frame := frame, receiveTimeUs := answers.now }))
  | .recheck pass =>
    (sh, .next (if sh.stopRequested then exit platform
      else if pass.status = .frame then .process pass else .sample pass))
  | .process pass => (sh, .next (.sample { pass with result := some answers.processed }))
  | .sample pass =>
    (sh, .next (.update pass answers.statistics
      (if pass.status = .timeout then answers.now else 0)))
  | .update pass statistics timeoutNow =>
    let sh := sh.snapshotAndUpdate pass statistics timeoutNow
    (sh, .next (if pass.status = .frame then .onFrameProcessed pass sh.diagnostics
      else .onDiagnostics pass sh.diagnostics))
  | .onFrameProcessed pass snapshot => (sh, .next (.onDiagnostics pass snapshot))
  | .onDiagnostics pass _ => (sh, .next (if pass.faults then .storeFaulted else .loopTest))
  | .storeFaulted => ({ sh with lifecycle := .faulted }, .next .requestStop)
  | .requestStop => ({ sh with stopRequested := true }, .next .loopTest)
  | .clearTask => ({ sh with worker := none }, .next .clearActive)
  | .clearActive => ({ sh with workerActive := false }, .ret ())

end WorkerPc

/-! ### Cleanup of the source -/

/-- Before the decision, and inside the call of stop() or retry_stop() on the source. -/
inductive CleanupPc
  | test
  | call (retry : Bool)
  deriving DecidableEq

/-- Nothing of the source is owned any more. -/
def Shared.forgetSource (sh : Shared) : Shared :=
  { sh with
    sourceStarted := false
    sourceOwnership := .none
    sourceStopCalled := false
    sourceStopResult := .ok }

/-- `attempt_source_stop`. A source that does not support retries is handed over with its
first stop(), whatever that returned. -/
def CleanupPc.stepSourceStop (sh : Shared) (result : ResultCode) :
    CleanupPc → Shared × Control CleanupPc ResultCode
  | .test =>
    if sh.sourceOwnership ≠ .successfulStart ∨ sh.sourceStarted = false then
      (sh, .ret sh.sourceStopResult)
    else if sh.sourceStopCalled then
      if sh.sourceStopRetrySupported then (sh, .next (.call true))
      else (sh, .ret sh.sourceStopResult)
    else ({ sh with sourceStopCalled := true }, .next (.call false))
  | .call _ =>
    if result = .ok ∨ sh.sourceStopRetrySupported = true ∧ result = .notRunning then
      ({ sh.forgetSource with sourceStopRetrySupported := false }, .ret .ok)
    else if sh.sourceStopRetrySupported then
      ({ sh with sourceStopResult := result }, .ret result)
    else (sh.forgetSource, .ret result)

def Shared.countAttempt (sh : Shared) : Shared :=
  { sh with partialCleanupAttempts := sh.partialCleanupAttempts + 1 }

/-- `attempt_partial_start_cleanup`. -/
def CleanupPc.stepPartialStart (sh : Shared) (result : ResultCode) :
    CleanupPc → Shared × Control CleanupPc ResultCode
  | .test =>
    if sh.sourceOwnership ≠ .partialStart ∨ sh.sourceStarted = false then (sh, .ret .ok)
    else if 2 ≤ sh.partialCleanupAttempts ∧ sh.sourceStopRetrySupported = false then
      (sh, .ret sh.sourceStopResult)
    else if sh.sourceStopRetrySupported = true ∧ sh.sourceStopCalled = true then
      (sh.countAttempt, .next (.call true))
    else ({ sh.countAttempt with sourceStopCalled := true }, .next (.call false))
  | .call _ =>
    if result = .ok ∨ result = .notRunning then
      ({ sh.forgetSource with sourceStopRetrySupported := false }, .ret .ok)
    else ({ sh with sourceStopResult := result }, .ret result)

/-! ### start() and stop() -/

/-- How an operation ends: the final state is stored and published, then the operation is
released with a result. -/
inductive ConcludePc
  | store (clean : Bool) (result : ResultCode)
  | diagnose (clean : Bool) (result : ResultCode)
  | release (result : ResultCode)
  deriving DecidableEq

def finalState (clean : Bool) : LifecycleState := if clean then .stopped else .faulted

def finalTransport (clean : Bool) : TransportHealth := if clean then .stopped else .faulted

def ConcludePc.step (sh : Shared) (answers : Answers) :
    ConcludePc → Shared × Control ConcludePc ResultCode
  | .store clean result =>
    ({ sh with lifecycle := finalState clean }, .next (.diagnose clean result))
  | .diagnose clean result =>
    (sh.setLifecycleDiagnostic (finalState clean) (finalTransport clean) answers.statistics,
      .next (.release result))
  | .release result => ({ sh with lifecycleOperationActive := false }, .ret result)

inductive StartPc
  | enter
  | reset
  | supportsRetry
  | startSource
  | diagnoseRefused (result : ResultCode)
  | partialCleanup (pc : CleanupPc) (result : ResultCode)
  | clearStopRequested
  | setWorkerActive
  | resetDiagnostics
  | storeRunning
  | createWorker
  | assignWorker (id : ℕ)
  | clearWorkerActive
  | requestStop
  | sourceStop (pc : CleanupPc)
  | conclude (pc : ConcludePc)
  deriving DecidableEq

/-- A worker that is created gets the next identifier. Assigning to a `std::thread` that
is still joinable ends the program: that step has no outcome. -/
def StartPc.step (platform : Platform) (fresh : ℕ) (answers : Answers) (sh : Shared) :
    StartPc → Option (Shared × Control StartPc ResultCode)
  | .enter =>
    if validConfig sh.config = false then some (sh, .ret .invalidConfiguration)
    else if sh.lifecycleOperationActive then some (sh, .ret .stopping)
    else if sh.lifecycle ≠ .stopped then some (sh, .ret (lifecycleResult sh.lifecycle))
    else some ({ sh with lifecycleOperationActive := true }, .next .reset)
  | .reset => some (sh, .next .supportsRetry)
  | .supportsRetry =>
    some ({ sh with sourceStopRetrySupported := answers.retrySupported }, .next .startSource)
  | .startSource =>
    if answers.result = .ok then
      some ({ sh with
        sourceStarted := true
        sourceOwnership := .successfulStart
        sourceStopCalled := false
        sourceStopResult := .ok }, .next .clearStopRequested)
    else if startFailureMayOwnSource answers.result then
      some ({ sh with
        sourceStarted := true
        sourceOwnership := .partialStart
        partialCleanupAttempts := 0 }, .next (.partialCleanup .test answers.result))
    else some ({ sh with sourceStopRetrySupported := false }, .next (.diagnoseRefused answers.result))
  | .diagnoseRefused result =>
    some (sh.setLifecycleDiagnostic .stopped (if result = .faulted then .faulted else .stopped)
      answers.statistics, .next (.conclude (.release result)))
  | .partialCleanup pc result =>
    some ((pc.stepPartialStart sh answers.result).1,
      (pc.stepPartialStart sh answers.result).2.call (.partialCleanup · result) fun cleanup =>
        .next (.conclude (.store (cleanup = .ok) result)))
  | .clearStopRequested => some ({ sh with stopRequested := false }, .next .setWorkerActive)
  | .setWorkerActive => some ({ sh with workerActive := true }, .next .resetDiagnostics)
  | .resetDiagnostics =>
    some ({ sh with diagnostics :=
      { lifecycle := .running, transport := .awaitingTraffic, acquisition := answers.statistics } },
      .next .storeRunning)
  | .storeRunning => some ({ sh with lifecycle := .running }, .next .createWorker)
  | .createWorker =>
    if answers.created then
      match platform with
      | .host => some (sh, .next (.assignWorker fresh))
      | .esp => some ({ sh with worker := some fresh }, .next (.conclude (.release .ok)))
    else some (sh, .next .clearWorkerActive)
  | .assignWorker id =>
    if sh.worker.isSome then none
    else some ({ sh with worker := some id }, .next (.conclude (.release .ok)))
  | .clearWorkerActive => some ({ sh with workerActive := false }, .next .requestStop)
  | .requestStop => some ({ sh with stopRequested := true }, .next (.sourceStop .test))
  | .sourceStop pc =>
    some ((pc.stepSourceStop sh answers.result).1,
      (pc.stepSourceStop sh answers.result).2.call .sourceStop fun cleanup =>
        .next (.conclude (.store (cleanup = .ok) .faulted)))
  | .conclude pc => some ((pc.step sh answers).1, (pc.step sh answers).2.call .conclude .ret)

def maximumWaitTicks : ℕ := 1000

inductive StopPc
  | testSelf
  | enter
  | diagnosePartial
  | partialCleanup (pc : CleanupPc)
  | diagnoseStopping
  | requestStop
  | sourceStop (pc : CleanupPc)
  | join (result : ResultCode)
  | awaitWorker (waited : ℕ) (result : ResultCode)
  | lastLook (result : ResultCode)
  | conclude (pc : ConcludePc)
  deriving DecidableEq

/-- The join of the worker's thread. It waits until the thread has finished; a thread
that joins itself ends the program, so that step has no outcome either way. -/
def Shared.join (sh : Shared) (running : List ℕ) : Option Shared :=
  match sh.worker with
  | none => some sh
  | some id => if id ∈ running then none else some { sh with worker := none }

/-- `running` lists the workers that are alive. -/
def StopPc.step (platform : Platform) (caller : Caller) (running : List ℕ) (answers : Answers)
    (sh : Shared) : StopPc → Option (Shared × Control StopPc ResultCode)
  | .testSelf =>
    some (sh, if caller.isSome ∧ sh.worker = caller then .ret .invalidState else .next .enter)
  | .enter =>
    if sh.lifecycleOperationActive then some (sh, .ret .stopping)
    else if sh.lifecycle = .stopped ∧ sh.sourceStarted = false then some (sh, .ret .notRunning)
    else if sh.sourceOwnership = .partialStart then
      some ({ sh with lifecycleOperationActive := true, lifecycle := .stopping },
        .next .diagnosePartial)
    else some ({ sh with lifecycleOperationActive := true, lifecycle := .stopping },
      .next .diagnoseStopping)
  | .diagnosePartial =>
    some (sh.setLifecycleDiagnostic .stopping .stopped answers.statistics,
      .next (.partialCleanup .test))
  | .partialCleanup pc =>
    some ((pc.stepPartialStart sh answers.result).1,
      (pc.stepPartialStart sh answers.result).2.call .partialCleanup fun cleanup =>
        .next (.conclude (.store (cleanup = .ok)
          (if cleanup = .ok then .ok
            else if cleanup = .timeout ∨ cleanup = .stopping then .timeout else .faulted))))
  | .diagnoseStopping =>
    some (sh.setLifecycleDiagnostic .stopping .stopped answers.statistics, .next .requestStop)
  | .requestStop => some ({ sh with stopRequested := true }, .next (.sourceStop .test))
  | .sourceStop pc =>
    some ((pc.stepSourceStop sh answers.result).1,
      (pc.stepSourceStop sh answers.result).2.call .sourceStop fun result => .next
        (if result = .timeout ∨ result = .stopping then .conclude (.release .timeout)
        else match platform with
          | .host => .join result
          | .esp => .awaitWorker 0 result))
  | .join result =>
    (sh.join running).map fun sh => (sh, .next (.conclude
      (.store (result = .ok) (if result = .ok then .ok else .faulted))))
  | .awaitWorker waited result =>
    some (sh, .next (if sh.workerActive = true ∧ waited < maximumWaitTicks then
      .awaitWorker (waited + 1) result else .lastLook result))
  | .lastLook result =>
    some (sh, .next (.conclude (if sh.workerActive then .release .timeout
      else .store (result = .ok) (if result = .ok then .ok else .faulted))))
  | .conclude pc => some ((pc.step sh answers).1, (pc.step sh answers).2.call .conclude .ret)

/-! ### Destruction -/

/-- `shutdown_noexcept`; `last` marks the attempt after the worker has stopped. -/
inductive DestroyPc
  | requestStop
  | sourceStop (last : Bool) (pc : CleanupPc)
  | partialCleanup (last : Bool) (pc : CleanupPc)
  | awaitWorker
  | retry
  | release
  deriving DecidableEq

namespace DestroyPc

/-- The cleanup that fits what is owned, if anything is. -/
def attempt (sh : Shared) (last : Bool) (otherwise : DestroyPc) : DestroyPc :=
  match sh.sourceOwnership with
  | .successfulStart => .sourceStop last .test
  | .partialStart => .partialCleanup last .test
  | .none => otherwise

def afterAttempt (last : Bool) : DestroyPc := if last then .release else .awaitWorker

/-- Destroying a `std::thread` that is still joinable ends the program. -/
def step (platform : Platform) (caller : Caller) (running : List ℕ) (answers : Answers)
    (sh : Shared) : DestroyPc → Option (Shared × Control DestroyPc Unit)
  | .requestStop =>
    some ({ sh with stopRequested := true }, .next (attempt sh false .awaitWorker))
  | .sourceStop last pc =>
    some ((pc.stepSourceStop sh answers.result).1,
      (pc.stepSourceStop sh answers.result).2.call (.sourceStop last) fun _ =>
        .next (afterAttempt last))
  | .partialCleanup last pc =>
    some ((pc.stepPartialStart sh answers.result).1,
      (pc.stepPartialStart sh answers.result).2.call (.partialCleanup last) fun _ =>
        .next (afterAttempt last))
  | .awaitWorker =>
    match platform with
    | .host =>
      if caller.isSome ∧ sh.worker = caller then some (sh, .next .retry)
      else (sh.join running).map fun sh => (sh, .next .retry)
    | .esp => some (sh, .next (if sh.workerActive then .awaitWorker else .retry))
  | .retry =>
    some (sh, .next (if sh.sourceStopRetrySupported = true ∧ sh.sourceStarted = true then
      attempt sh true .release else .release))
  | .release => if platform = .host ∧ sh.worker.isSome then none else some (sh, .ret ())

end DestroyPc

/-! ### The system -/

inductive CallPc
  | configure (config : RuntimeConfig)
  | start (pc : StartPc)
  | stop (pc : StopPc)
  | destroy (pc : DestroyPc)
  deriving DecidableEq

/-- A destructor returns nothing. -/
def CallPc.step (platform : Platform) (caller : Caller) (fresh : ℕ) (running : List ℕ)
    (answers : Answers) (sh : Shared) : CallPc → Option (Shared × Control CallPc (Option ResultCode))
  | .configure config =>
    some (if validConfig config = false then (sh, .ret (some .invalidConfiguration))
      else if sh.lifecycleOperationActive = true ∨ sh.lifecycle ≠ .stopped then
        (sh, .ret (some .invalidState))
      else ({ sh with config := config }, .ret (some .ok)))
  | .start pc => (pc.step platform fresh answers sh).map fun (sh, control) =>
    (sh, control.call .start fun result => .ret (some result))
  | .stop pc => (pc.step platform caller running answers sh).map fun (sh, control) =>
    (sh, control.call .stop fun result => .ret (some result))
  | .destroy pc => (pc.step platform caller running answers sh).map fun (sh, control) =>
    (sh, control.call .destroy fun _ => .ret none)

/-- The worker that a successful creation adds. -/
def CallPc.spawned (fresh : ℕ) (answers : Answers) : CallPc → List (ℕ × WorkerPc)
  | .start .createWorker => if answers.created then [(fresh, .loopTest)] else []
  | _ => []

/-- diagnostics() samples the clock before it takes the lock. -/
inductive DiagnosticsPc
  | sample
  | evaluate (now : MonotonicTimestamp)
  deriving DecidableEq

def DiagnosticsPc.step (answers : Answers) (sh : Shared) :
    DiagnosticsPc → Shared × Control DiagnosticsPc TransportDiagnostics
  | .sample => (sh, .next (.evaluate answers.now))
  | .evaluate now =>
    (sh.updateSilenceDiagnosticLocked now, .ret (sh.updateSilenceDiagnosticLocked now).diagnostics)

structure System where
  shared : Shared := {}
  calls : List (Caller × CallPc) := []
  readers : List (Caller × DiagnosticsPc) := []
  workers : List (ℕ × WorkerPc) := []
  created : ℕ := 0
  destroyed : Bool := false
  deriving DecidableEq

inductive Operation
  | configure (config : RuntimeConfig)
  | start
  | stop
  deriving DecidableEq

def Operation.entry : Operation → CallPc
  | .configure config => .configure config
  | .start => .start .enter
  | .stop => .stop .testSelf

inductive Choice
  | begin (caller : Caller) (operation : Operation)
  | beginDestroy (caller : Caller)
  | beginDiagnostics (caller : Caller)
  | call (i : ℕ) (answers : Answers)
  | reader (i : ℕ) (answers : Answers)
  | worker (i : ℕ) (answers : Answers)
  deriving DecidableEq

namespace System

/-- A worker inside a call that it made itself goes on when that call has returned. -/
def occupied (s : System) (id : ℕ) : Bool :=
  s.calls.any (·.1 = some id) || s.readers.any (·.1 = some id)

/-- No call begins once destruction has begun; a worker calls from application code. -/
def admits (s : System) (caller : Caller) : Bool :=
  !s.destroyed && caller.all fun id =>
    s.workers.any (fun w => w.1 = id && w.2.callsOut) && !s.occupied id

def running (s : System) : List ℕ := s.workers.map (·.1)

/-- Destruction begins when no other call is in progress. -/
def next (platform : Platform) (s : System) : Choice → Option System
  | .begin caller operation =>
    if s.admits caller then some { s with calls := s.calls ++ [(caller, operation.entry)] }
    else none
  | .beginDestroy caller =>
    if s.admits caller ∧ s.calls = [] ∧ s.readers = [] then
      some { s with calls := [(caller, .destroy .requestStop)], destroyed := true }
    else none
  | .beginDiagnostics caller =>
    if s.admits caller then some { s with readers := s.readers ++ [(caller, .sample)] } else none
  | .call i answers => s.calls[i]?.bind fun (caller, pc) =>
    (pc.step platform caller s.created s.running answers s.shared).map fun (shared, control) =>
      { s with
        shared := shared
        calls := resume s.calls i (control.call (caller, ·) .ret)
        workers := s.workers ++ pc.spawned s.created answers
        created := s.created + (pc.spawned s.created answers).length }
  | .reader i answers => s.readers[i]?.map fun (caller, pc) =>
    { s with
      shared := (pc.step answers s.shared).1
      readers := resume s.readers i ((pc.step answers s.shared).2.call (caller, ·) .ret) }
  | .worker i answers => s.workers[i]?.bind fun (id, pc) =>
    if s.occupied id then none
    else some { s with
      shared := (pc.step platform answers s.shared).1
      workers := resume s.workers i ((pc.step platform answers s.shared).2.call (id, ·) .ret) }

/-- The call that a step returns from, with what configure(), start() or stop() return. -/
def returned (platform : Platform) (s : System) : Choice → Option (CallPc × ResultCode)
  | .call i answers => s.calls[i]?.bind fun (caller, pc) =>
    ((pc.step platform caller s.created s.running answers s.shared).bind (·.2.value?)).bind
      fun result => result.map (pc, ·)
  | _ => none

/-- What diagnostics() returns at a step. -/
def reported (s : System) : Choice → Option TransportDiagnostics
  | .reader i answers => s.readers[i]?.bind fun (_, pc) => (pc.step answers s.shared).2.value?
  | _ => none

variable {platform : Platform} {s t : System}

theorem next_begin {caller : Caller} {operation : Operation}
    (step : s.next platform (.begin caller operation) = some t) :
    s.admits caller = true ∧ t = { s with calls := s.calls ++ [(caller, operation.entry)] } := by
  obtain ⟨admitted, step⟩ := Option.ite_none_right_eq_some.mp step
  exact ⟨admitted, (Option.some.inj step).symm⟩

theorem next_beginDestroy {caller : Caller}
    (step : s.next platform (.beginDestroy caller) = some t) :
    s.admits caller = true ∧ s.calls = [] ∧ s.readers = [] ∧
      t = { s with calls := [(caller, .destroy .requestStop)], destroyed := true } := by
  obtain ⟨⟨admitted, calls, readers⟩, step⟩ := Option.ite_none_right_eq_some.mp step
  exact ⟨admitted, calls, readers, (Option.some.inj step).symm⟩

theorem next_beginDiagnostics {caller : Caller}
    (step : s.next platform (.beginDiagnostics caller) = some t) :
    s.admits caller = true ∧ t = { s with readers := s.readers ++ [(caller, .sample)] } := by
  obtain ⟨admitted, step⟩ := Option.ite_none_right_eq_some.mp step
  exact ⟨admitted, (Option.some.inj step).symm⟩

theorem next_call {i : ℕ} {answers : Answers}
    (step : s.next platform (.call i answers) = some t) :
    ∃ caller pc shared control, s.calls[i]? = some (caller, pc) ∧
      pc.step platform caller s.created s.running answers s.shared = some (shared, control) ∧
      t = { s with
        shared := shared
        calls := resume s.calls i (control.call (caller, ·) .ret)
        workers := s.workers ++ pc.spawned s.created answers
        created := s.created + (pc.spawned s.created answers).length } := by
  obtain ⟨⟨caller, pc⟩, hpc, step⟩ := Option.bind_eq_some_iff.mp step
  obtain ⟨⟨shared, control⟩, hstep, rfl⟩ := Option.map_eq_some_iff.mp step
  exact ⟨caller, pc, shared, control, hpc, hstep, rfl⟩

theorem next_reader {i : ℕ} {answers : Answers}
    (step : s.next platform (.reader i answers) = some t) :
    ∃ caller pc, s.readers[i]? = some (caller, pc) ∧
      t = { s with
        shared := (pc.step answers s.shared).1
        readers := resume s.readers i ((pc.step answers s.shared).2.call (caller, ·) .ret) } := by
  obtain ⟨⟨caller, pc⟩, hpc, rfl⟩ := Option.map_eq_some_iff.mp step
  exact ⟨caller, pc, hpc, rfl⟩

theorem next_worker {i : ℕ} {answers : Answers}
    (step : s.next platform (.worker i answers) = some t) :
    ∃ id pc, s.workers[i]? = some (id, pc) ∧ s.occupied id = false ∧
      t = { s with
        shared := (pc.step platform answers s.shared).1
        workers := resume s.workers i
          ((pc.step platform answers s.shared).2.call (id, ·) .ret) } := by
  obtain ⟨⟨id, pc⟩, hpc, step⟩ := Option.bind_eq_some_iff.mp step
  obtain ⟨free, step⟩ := Option.ite_none_left_eq_some.mp step
  exact ⟨id, pc, hpc, eq_false_of_ne_true free, (Option.some.inj step).symm⟩

end System

end CanTelemetry.VehicleTelemetry
