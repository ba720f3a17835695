import CanTelemetry.Foundation.Execution
import CanTelemetry.Foundation.Threads
import CanTelemetry.Foundation.Monitor
import CanTelemetry.Foundation.Totals
import CanTelemetry.Foundation.Projection
import CanTelemetry.Foundation.Semaphore
import CanTelemetry.Foundation.RingIndex
import CanTelemetry.Foundation.BoundedFifo
import CanTelemetry.Foundation.LastWriter
import CanTelemetry.Foundation.NonzeroCounter
import CanTelemetry.VehicleCore.Contracts
import CanTelemetry.VehicleCore.Frame
import CanTelemetry.VehicleCore.Signal
import CanTelemetry.VehicleCore.SignalRegister
import CanTelemetry.VehicleCore.SignalViews
import CanTelemetry.VehicleCore.NotificationChannel
import CanTelemetry.VehicleCore.NotificationHistory
import CanTelemetry.VehicleCore.NotificationQuiescence
import CanTelemetry.VehicleCore.NotificationHandles
import CanTelemetry.VehicleCore.NotificationFairness
import CanTelemetry.CanBus.FrameRing
import CanTelemetry.CanBus.RingQueue
import CanTelemetry.CanBus.Spsc
import CanTelemetry.CanBus.Wraparound
import CanTelemetry.CanBus.Depth
import CanTelemetry.CanBus.Watermark
import CanTelemetry.CanBus.CoherentDepth
import CanTelemetry.CanBus.Statistics
import CanTelemetry.CanBus.Lifecycle
import CanTelemetry.CanBus.System
import CanTelemetry.CanBus.Ownership
import CanTelemetry.CanBus.Cleanup
import CanTelemetry.CanBus.Exclusivity
import CanTelemetry.CanBus.Overlap
import CanTelemetry.CanBus.BusOff
import CanTelemetry.CanBus.Receive
import CanTelemetry.CanBus.Wakeup
import CanTelemetry.CanBus.Cancellation
import CanTelemetry.CanBus.RingUse
import CanTelemetry.CanBus.DriverCounters
import CanTelemetry.CanBus.FrameOrder
import CanTelemetry.VehicleTelemetry.Contracts
import CanTelemetry.Foundation.Holder
import CanTelemetry.VehicleTelemetry.Runtime
import CanTelemetry.VehicleTelemetry.Operations
import CanTelemetry.VehicleTelemetry.Ownership
import CanTelemetry.VehicleTelemetry.Faults
import CanTelemetry.VehicleTelemetry.FrameAccount
import CanTelemetry.VehicleTelemetry.Silence
import CanTelemetry.VehicleTelemetry.SourceCalls
import CanTelemetry.VehicleTelemetry.SourceProtocol
import CanTelemetry.VehicleTelemetry.Shutdown
import CanTelemetry.VehicleTelemetry.LifecycleViews
import CanTelemetry.VehicleTelemetry.CanBusSource
import CanTelemetry.VehicleTelemetry.BusOwnership
import CanTelemetry.VehicleTelemetry.SharedBus
import CanTelemetry.VehicleTelemetry.BusReception
import CanTelemetry.VehicleTelemetry.EndToEnd
import CanTelemetry.VehicleTelemetry.Backlog
import CanTelemetry.VehicleTelemetry.FaultCause
import CanTelemetry.VehicleTelemetry.FrameReport
import CanTelemetry.Foundation.WrappingClock
import CanTelemetry.CanBus.StartedOnce
import CanTelemetry.CanBus.TerminalFault
import CanTelemetry.Foundation.Effort
import CanTelemetry.CanBus.RingEffort
import CanTelemetry.CanBus.CallEffort
import CanTelemetry.CanBus.RetriedStop
import CanTelemetry.CanBus.ThreadEffort
import CanTelemetry.Firmware.BenchApp
import CanTelemetry.Firmware.BenchLoop
import CanTelemetry.Firmware.BenchBus
import CanTelemetry.Firmware.BenchFrames
import CanTelemetry.Firmware.BenchExit
import CanTelemetry.Firmware.BenchBoard
