import CanTelemetry.CanBus.System
import CanTelemetry.Foundation.Totals
import CanTelemetry.Foundation.WrappingClock

/-! The T-CAN485 bench receiver: the helpers of its board and its `app_main`. What the program
is told by a GPIO call, by can_bus and by the tick counter is an event of the schedule, so
what is proved here holds whatever its surroundings answer. -/

namespace CanTelemetry.Tcan485Bench

open Execution Threads VehicleCore

/-! ### The board -/

abbrev Pin := BitVec 8

def canTx : Pin := 27
def canRx : Pin := 26
def canSpeedMode : Pin := 23
def sharedBoostEnable : Pin := 16
def onboardLedData : Pin := 4

inductive GpioMode
  | input | output
  deriving DecidableEq, Repr

inductive GpioCall
  | resetPin (pin : Pin)
  | setLevel (pin : Pin) (level : Bool)
  | setDirection (pin : Pin) (mode : GpioMode)
  deriving DecidableEq

/-- `configure_output` -/
inductive ConfigurePc
  | resetPin
  | setLevel
  | setDirection
  deriving DecidableEq

def ConfigurePc.call (pin : Pin) (level : Bool) : ConfigurePc → GpioCall
  | .resetPin => .resetPin pin
  | .setLevel => .setLevel pin level
  | .setDirection => .setDirection pin .output

def ConfigurePc.step (ok : Bool) : ConfigurePc → Control ConfigurePc Bool
  | .resetPin => if ok then .next .setLevel else .ret false
  | .setLevel => if ok then .next .setDirection else .ret false
  | .setDirection => .ret ok

/-- `initialize`, with what has become of its `ok` so far. -/
inductive InitializePc
  | boostOff (pc : ConfigurePc)
  | ledData (pc : ConfigurePc) (ok : Bool)
  | canTx (pc : ConfigurePc) (ok : Bool)
  | canSpeedMode (pc : ConfigurePc) (ok : Bool)
  | resetRx (ok : Bool)
  | directRx (ok : Bool)
  | boostOn (pc : ConfigurePc)
  | disable (pc : ConfigurePc)
  deriving DecidableEq

def InitializePc.call : InitializePc → GpioCall
  | .boostOff pc => pc.call sharedBoostEnable false
  | .ledData pc _ => pc.call onboardLedData false
  | .canTx pc _ => pc.call Tcan485Bench.canTx true
  | .canSpeedMode pc _ => pc.call Tcan485Bench.canSpeedMode false
  | .resetRx _ => .resetPin canRx
  | .directRx _ => .setDirection canRx .input
  | .boostOn pc => pc.call sharedBoostEnable true
  | .disable pc => pc.call sharedBoostEnable false

/-- A safe default that fails does not keep the others from being applied. -/
def InitializePc.step (done : Bool) : InitializePc → Control InitializePc Bool
  | .boostOff pc => (pc.step done).call .boostOff fun ok => .next (.ledData .resetPin ok)
  | .ledData pc ok =>
    (pc.step done).call (.ledData · ok) fun ok' => .next (.canTx .resetPin (ok' && ok))
  | .canTx pc ok =>
    (pc.step done).call (.canTx · ok) fun ok' => .next (.canSpeedMode .resetPin (ok' && ok))
  | .canSpeedMode pc ok =>
    (pc.step done).call (.canSpeedMode · ok) fun ok' => .next (.resetRx (ok' && ok))
  | .resetRx ok => .next (.directRx (done && ok))
  | .directRx ok => .next (if done && ok then .boostOn .resetPin else .disable .resetPin)
  | .boostOn pc =>
    (pc.step done).call .boostOn fun ok => if ok then .ret true else .next (.disable .resetPin)
  | .disable pc => (pc.step done).call .disable fun _ => .ret false

/-! ### The application -/

def maxFramesPerBatch : ℕ := 16

/-- `pdMS_TO_TICKS` for a tick rate in Hz -/
def msToTicks (tickRate ms : ℕ) : BitVec 32 := BitVec.ofNat 32 ms * BitVec.ofNat 32 tickRate / 1000

def summaryPeriodTicks (tickRate : ℕ) : BitVec 32 := msToTicks tickRate 1000

structure FrameMetadata where
  extended : Bool := false
  identifier : BitVec 32 := 0
  dlc : BitVec 8 := 0
  busId : BitVec 8 := 0
  deriving DecidableEq

def metadataFrom (frame : RawCanFrame) : FrameMetadata where
  extended := frame.isExtended
  identifier := frame.identifier
  dlc := frame.dlc
  busId := frame.busId

/-- The configuration that app_main starts the bus with. -/
def configuration : CanBus.Configuration := { bitrateBps := 500000, busId := 0 }

/-- The variables of app_main's loop. -/
structure Locals where
  receivedCount : BitVec 64 := 0
  intervalCount : BitVec 32 := 0
  latest : FrameMetadata := {}
  summaryDeadline : BitVec 32 := 0
  receivedBatch : Bool := false
  deriving DecidableEq

namespace Locals

def newBatch (locals : Locals) : Locals := { locals with receivedBatch := false }

def count (locals : Locals) (frame : RawCanFrame) : Locals :=
  { locals with
    receivedCount := locals.receivedCount + 1
    intervalCount := locals.intervalCount + 1
    latest := metadataFrom frame
    receivedBatch := true }

def summarizes (locals : Locals) (now : BitVec 32) : Bool :=
  locals.receivedBatch && WrappingClock.due now locals.summaryDeadline

def summarized (locals : Locals) (now period : BitVec 32) : Locals :=
  { locals with intervalCount := 0, summaryDeadline := now + period }

end Locals

inductive AppPc
  | initializing (pc : InitializePc)
  | start
  | starting
  /-- The board is disabled on the way out, after a start() that failed or after stop(). -/
  | disable (pc : ConfigurePc) (started : Bool)
  | firstDeadline
  | receive (batchIndex : ℕ)
  | receiving (batchIndex : ℕ)
  | checkSummary
  | delay
  | stop
  | stopping
  deriving DecidableEq

/-- What app_main gets from its surroundings. -/
inductive Event
  | gpio (ok : Bool)
  | entered
  | started (result : CanBus.Result)
  | received (result : CanBus.Result) (frame : RawCanFrame)
  | stopped (result : CanBus.Result)
  | ticks (now : BitVec 32)
  | delayed
  deriving DecidableEq

/-- What app_main logs, without the fixed texts. -/
inductive Log
  | initializationFailed
  | isolationWarning
  | mode (bitrateBps : BitVec 32)
  | startupFailed
  | acquisitionStarted
  | firstFrame (latest : FrameMetadata)
  | receiveFailure (result : CanBus.Result)
  | stopFailure (result : CanBus.Result)
  | summary (total : BitVec 64) (interval : BitVec 32) (latest : FrameMetadata)
  deriving DecidableEq

namespace AppPc

/-- The GPIO call that the next step makes. -/
def gpio? : AppPc → Option GpioCall
  | .initializing pc => some pc.call
  | .disable pc _ => some (pc.call sharedBoostEnable false)
  | _ => none

/-- Only the first receive() of a batch waits. -/
def receiveTimeoutMs (batchIndex : ℕ) : BitVec 32 := if batchIndex = 0 then 1000 else 0

/-- The function of can_bus that the next step calls. -/
def busCall? : AppPc → Option CanBus.Choice
  | .start => some (.beginStart configuration)
  | .receive batchIndex => some (.beginReceive (receiveTimeoutMs batchIndex))
  | .stop => some .beginStop
  | _ => none

/-- The test of the inner loop. -/
def batch (batchIndex : ℕ) : AppPc :=
  if batchIndex < maxFramesPerBatch then .receive batchIndex else .checkSummary

/-- After receive() has returned. -/
def afterReceive (locals : Locals) (batchIndex : ℕ) (result : CanBus.Result) (frame : RawCanFrame) :
    Locals × AppPc :=
  if result = .timeout then (locals, .checkSummary)
  else if result ≠ .ok then (locals, .stop)
  else (locals.count frame, batch (batchIndex + 1))

/-- After a batch, with the tick count read. -/
def afterBatch (period : BitVec 32) (locals : Locals) (now : BitVec 32) : Locals × AppPc :=
  let locals := if locals.summarizes now then locals.summarized now period else locals
  if locals.receivedBatch then (locals, .delay) else (locals.newBatch, batch 0)

def step (period : BitVec 32) (locals : Locals) :
    AppPc → Event → Option (Locals × Control AppPc Unit)
  | .initializing pc, .gpio done =>
    some (locals,
      (pc.step done).call .initializing fun ready => if ready then .next .start else .ret ())
  | .start, .entered => some (locals, .next .starting)
  | .starting, .started result =>
    some (locals, .next (if result = .ok then .firstDeadline else .disable .resetPin false))
  | .firstDeadline, .ticks now =>
    some ({ locals with summaryDeadline := now + period }.newBatch, .next (batch 0))
  | .receive batchIndex, .entered => some (locals, .next (.receiving batchIndex))
  | .receiving batchIndex, .received result frame =>
    some ((afterReceive locals batchIndex result frame).map id .next)
  | .checkSummary, .ticks now => some ((afterBatch period locals now).map id .next)
  | .delay, .delayed => some (locals.newBatch, .next (batch 0))
  | .stop, .entered => some (locals, .next .stopping)
  | .stopping, .stopped _ => some (locals, .next (.disable .resetPin true))
  | .disable pc started, .gpio done =>
    some (locals, (pc.step done).call (.disable · started) fun _ => .ret ())
  | _, _ => none

def logs (locals : Locals) : AppPc → Event → List Log
  | .initializing pc, .gpio done => match pc.step done with
    | .ret true => [.isolationWarning, .mode configuration.bitrateBps]
    | .ret false => [.initializationFailed]
    | .next _ => []
  | .starting, .started result => if result = .ok then [.acquisitionStarted] else []
  | .receiving _, .received result frame =>
    if result = .timeout then []
    else if result ≠ .ok then [.receiveFailure result]
    else if locals.receivedCount + 1 = 1 then [.firstFrame (metadataFrom frame)] else []
  | .checkSummary, .ticks now =>
    if locals.summarizes now then
      [.summary locals.receivedCount locals.intervalCount locals.latest] else []
  | .stopping, .stopped result => if result = .ok then [] else [.stopFailure result]
  | .disable pc started, .gpio done => match pc.step done with
    | .ret _ => if started then [] else [.startupFailed]
    | .next _ => []
  | _, _ => []

end AppPc

/-- app_main among all its surroundings; it has returned when there is no program counter. -/
structure App where
  pc : Option AppPc := some (.initializing (.boostOff .resetPin))
  locals : Locals := {}
  deriving DecidableEq

namespace App

def next (tickRate : ℕ) (s : App) (event : Event) : Option App :=
  s.pc.bind fun pc =>
    (pc.step (summaryPeriodTicks tickRate) s.locals event).map fun (locals, control) =>
    { pc := control.pc?, locals := locals }

def logs (s : App) (event : Event) : List Log :=
  (s.pc.map fun pc => pc.logs s.locals event).getD []

/-- The frame that a step counts. -/
def counted (s : App) : Event → List RawCanFrame
  | .received .ok frame => match s.pc with
    | some (.receiving _) => [frame]
    | _ => []
  | _ => []

variable {tickRate : ℕ} {s t : App} {event : Event} {es : List Event}

theorem next_step (step : s.next tickRate event = some t) :
    ∃ pc control, s.pc = some pc ∧
      pc.step (summaryPeriodTicks tickRate) s.locals event = some (t.locals, control) ∧
      t.pc = control.pc? := by
  obtain ⟨pc, found, step⟩ := Option.bind_eq_some_iff.mp step
  obtain ⟨⟨locals, control⟩, inside, rfl⟩ := Option.map_eq_some_iff.mp step
  exact ⟨pc, control, found, inside, rfl⟩

end App

/-- What a step that app_main can make looks like. -/
inductive AppPc.Steps (period : BitVec 32) (locals : Locals) :
    AppPc → Event → Locals → Control AppPc Unit → Prop
  | initializing {pc : InitializePc} {done : Bool} {pc' : InitializePc}
      (inside : pc.step done = .next pc') :
      Steps period locals (.initializing pc) (.gpio done) locals (.next (.initializing pc'))
  | initialized {pc : InitializePc} {done ready : Bool} (inside : pc.step done = .ret ready) :
      Steps period locals (.initializing pc) (.gpio done) locals
        (if ready then .next .start else .ret ())
  | start : Steps period locals .start .entered locals (.next .starting)
  | started : Steps period locals .starting (.started .ok) locals (.next .firstDeadline)
  | notStarted {result : CanBus.Result} (failed : result ≠ .ok) :
      Steps period locals .starting (.started result) locals (.next (.disable .resetPin false))
  | firstDeadline (now : BitVec 32) :
      Steps period locals .firstDeadline (.ticks now)
        { locals with summaryDeadline := now + period, receivedBatch := false } (.next (.receive 0))
  | receive (batchIndex : ℕ) :
      Steps period locals (.receive batchIndex) .entered locals (.next (.receiving batchIndex))
  | timeout (batchIndex : ℕ) (frame : RawCanFrame) :
      Steps period locals (.receiving batchIndex) (.received .timeout frame) locals
        (.next .checkSummary)
  | failure (batchIndex : ℕ) (result : CanBus.Result) (frame : RawCanFrame)
      (failed : result ≠ .ok) (late : result ≠ .timeout) :
      Steps period locals (.receiving batchIndex) (.received result frame) locals (.next .stop)
  | count (batchIndex : ℕ) (frame : RawCanFrame) :
      Steps period locals (.receiving batchIndex) (.received .ok frame) (locals.count frame)
        (.next (batch (batchIndex + 1)))
  | summarize (now : BitVec 32) (due : locals.summarizes now = true) :
      Steps period locals .checkSummary (.ticks now) (locals.summarized now period) (.next .delay)
  | silent (now : BitVec 32) (early : locals.summarizes now = false)
      (some : locals.receivedBatch = true) :
      Steps period locals .checkSummary (.ticks now) locals (.next .delay)
  | idle (now : BitVec 32) (none : locals.receivedBatch = false) :
      Steps period locals .checkSummary (.ticks now) locals.newBatch (.next (.receive 0))
  | delay : Steps period locals .delay .delayed locals.newBatch (.next (.receive 0))
  | stop : Steps period locals .stop .entered locals (.next .stopping)
  | stopped (result : CanBus.Result) :
      Steps period locals .stopping (.stopped result) locals (.next (.disable .resetPin true))
  | disabling {pc : ConfigurePc} {done started : Bool} {pc' : ConfigurePc}
      (inside : pc.step done = .next pc') :
      Steps period locals (.disable pc started) (.gpio done) locals (.next (.disable pc' started))
  | disabled {pc : ConfigurePc} {done started ok : Bool} (inside : pc.step done = .ret ok) :
      Steps period locals (.disable pc started) (.gpio done) locals (.ret ())

theorem AppPc.Steps.receiving (period : BitVec 32) (locals : Locals) (batchIndex : ℕ)
    (result : CanBus.Result) (frame : RawCanFrame) :
    Steps period locals (.receiving batchIndex) (.received result frame)
      (afterReceive locals batchIndex result frame).1
      (.next (afterReceive locals batchIndex result frame).2) := by
  unfold afterReceive
  split_ifs with late failed
  · rw [late]
    exact .timeout batchIndex frame
  · exact .failure batchIndex result frame failed late
  · obtain rfl := not_not.mp failed
    exact .count batchIndex frame

theorem AppPc.Steps.checkSummary (period : BitVec 32) (locals : Locals) (now : BitVec 32) :
    Steps period locals .checkSummary (.ticks now) (afterBatch period locals now).1
      (.next (afterBatch period locals now).2) := by
  unfold afterBatch
  cases due : locals.summarizes now with
  | true =>
    have batch : (locals.summarized now period).receivedBatch = true :=
      (Bool.and_eq_true_iff.mp due).1
    simp only [if_true, batch]
    exact .summarize now due
  | false =>
    cases batch : locals.receivedBatch with
    | true =>
      simp only [Bool.false_eq_true, if_false, batch, if_true]
      exact .silent now due batch
    | false =>
      simp only [Bool.false_eq_true, if_false, batch]
      exact .idle now batch

theorem AppPc.step_cases {period : BitVec 32} {locals locals' : Locals} {pc : AppPc} {event : Event}
    {control : Control AppPc Unit} (step : pc.step period locals event = some (locals', control)) :
    pc.Steps period locals event locals' control := by
  cases pc with
  | initializing pc =>
    cases event with
    | gpio done =>
      obtain ⟨rfl, rfl⟩ := Prod.mk.inj (Option.some.inj step)
      cases inside : pc.step done with
      | next pc' => exact .initializing inside
      | ret ready => exact .initialized inside
    | _ => cases step
  | starting =>
    cases event with
    | started result =>
      obtain ⟨rfl, rfl⟩ := Prod.mk.inj (Option.some.inj step)
      split
      · rename_i ok
        rw [ok]
        exact .started
      · rename_i failed
        exact .notStarted failed
    | _ => cases step
  | receiving batchIndex =>
    cases event with
    | received result frame =>
      have same := Option.some.inj step
      have after : (afterReceive locals batchIndex result frame).1 = locals' :=
        congrArg Prod.fst same
      have ended : .next (afterReceive locals batchIndex result frame).2 = control :=
        congrArg Prod.snd same
      rw [← after, ← ended]
      exact .receiving period locals batchIndex result frame
    | _ => cases step
  | checkSummary =>
    cases event with
    | ticks now =>
      have same := Option.some.inj step
      have after : (afterBatch period locals now).1 = locals' := congrArg Prod.fst same
      have ended : .next (afterBatch period locals now).2 = control := congrArg Prod.snd same
      rw [← after, ← ended]
      exact .checkSummary period locals now
    | _ => cases step
  | disable pc started =>
    cases event with
    | gpio done =>
      obtain ⟨rfl, rfl⟩ := Prod.mk.inj (Option.some.inj step)
      cases inside : pc.step done with
      | next pc' => exact .disabling inside
      | ret ok => exact .disabled inside
    | _ => cases step
  | start =>
    cases event with
    | entered => cases step; exact .start
    | _ => cases step
  | firstDeadline =>
    cases event with
    | ticks now => cases step; exact .firstDeadline now
    | _ => cases step
  | receive batchIndex =>
    cases event with
    | entered => cases step; exact .receive batchIndex
    | _ => cases step
  | delay =>
    cases event with
    | delayed => cases step; exact .delay
    | _ => cases step
  | stop =>
    cases event with
    | entered => cases step; exact .stop
    | _ => cases step
  | stopping =>
    cases event with
    | stopped result => cases step; exact .stopped result
    | _ => cases step

end CanTelemetry.Tcan485Bench
