import CanTelemetry.VehicleCore.Contracts
import CanTelemetry.VehicleCore.Frame

/-! The vocabulary of the telemetry runtime: result codes, the configuration with its
limits, and the diagnostics it publishes. A `StatusResult` is its only field, the code. -/

namespace CanTelemetry.VehicleTelemetry

open VehicleCore

inductive ResultCode
  | ok | invalidConfiguration | invalidState | alreadyRunning | notRunning | stopping | timeout
  | faulted | capacityExceeded
  deriving DecidableEq, Repr

inductive LifecycleState
  | stopped | running | stopping | faulted
  deriving DecidableEq, Repr

inductive ReceiveStatus
  | frame | timeout | fault | notStarted
  deriving DecidableEq, Repr

inductive ProcessStatus
  | ignored | processed | malformed | fault
  deriving DecidableEq, Repr

structure AcquisitionStatistics where
  framesReceived : BitVec 64 := 0
  framesDropped : BitVec 64 := 0
  queueOverflows : BitVec 64 := 0
  driverErrors : BitVec 64 := 0
  missedFrames : BitVec 64 := 0
  controllerResets : BitVec 64 := 0
  busOffEvents : BitVec 64 := 0
  deriving DecidableEq

structure TransportDiagnostics where
  lifecycle : LifecycleState := .stopped
  transport : TransportHealth := .stopped
  acquisition : AcquisitionStatistics := {}
  framesProcessed : BitVec 64 := 0
  framesIgnored : BitVec 64 := 0
  framesMalformed : BitVec 64 := 0
  processorFaults : BitVec 64 := 0
  hasLastFrame : Bool := false
  lastFrameUs : MonotonicTimestamp := 0
  deriving DecidableEq

structure RuntimeConfig where
  receiveTimeoutMs : BitVec 32 := 100
  transportSilenceTimeoutUs : Microseconds := 1000000
  deriving DecidableEq

def maximumReceiveTimeoutMs : BitVec 32 := 60000

def maximumSilenceTimeoutUs : Microseconds := 300000000

def validConfig (config : RuntimeConfig) : Bool :=
  config.receiveTimeoutMs ≠ 0 && config.receiveTimeoutMs ≤ maximumReceiveTimeoutMs &&
    config.transportSilenceTimeoutUs ≠ 0 &&
    config.transportSilenceTimeoutUs ≤ maximumSilenceTimeoutUs

/-- What start() answers in a state other than Stopped. -/
def lifecycleResult : LifecycleState → ResultCode
  | .running => .alreadyRunning
  | .stopping => .stopping
  | .faulted => .faulted
  | .stopped => .ok

/-- Every other failure of a source's start() may leave part of the source running. -/
def startFailureMayOwnSource (status : ResultCode) : Bool :=
  status ≠ .alreadyRunning && status ≠ .invalidConfiguration

end CanTelemetry.VehicleTelemetry
