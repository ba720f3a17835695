import CanTelemetry.VehicleTelemetry.BusReception
import CanTelemetry.VehicleTelemetry.FrameAccount

/-! The frames of one acquisition, from the driver to the processor. It begins with the
creation of the bus's task and lasts until another start() gets the bus, so it contains the
runtime's stop(), and what comes after it. The worker hands what receive() has returned to the
processor, one frame after the other; a stop() can cost it the frame it has in hand, and
no other. -/

namespace CanTelemetry

open Execution Threads VehicleCore

namespace VehicleTelemetry

/-! ### The worker's frame -/

def WorkerCall.handed? : WorkerCall → Option RawCanFrame
  | .process frame _ => some frame
  | _ => none

/-- The frame that the worker has received and not handed to the processor. -/
def WorkerPc.carried : WorkerPc → List RawCanFrame
  | .sampleTime status frame => if status = .frame then [frame] else []
  | .recheck pass => if pass.status = .frame then [pass.frame] else []
  | .process pass => [pass.frame]
  | _ => []

/-- The frame that goes through process() at this step. -/
def WorkerPc.handed (answers : Answers) (pc : WorkerPc) : List RawCanFrame :=
  (pc.calls answers).filterMap WorkerCall.handed?

theorem WorkerPc.carried_left {pc : WorkerPc} (left : pc.left = true) : pc.carried = [] := by
  cases pc <;> first | rfl | cases left

theorem WorkerPc.carried_length (pc : WorkerPc) : pc.carried.length ≤ 1 := by
  cases pc with
  | sampleTime status frame => by_cases received : status = .frame <;> simp [carried, received]
  | recheck pass => by_cases received : pass.status = .frame <;> simp [carried, received]
  | _ => simp [carried]

/-- The worker keeps its frame, hands it over, or drops it on its way out. -/
theorem WorkerPc.step_carried (platform : Platform) (answers : Answers) (sh : Shared)
    {pc : WorkerPc} (elsewhere : pc ≠ .receive) :
    pc.carried = pc.handed answers ++
        ((pc.step platform answers sh).2.pc?.map carried).getD [] ∨
      (pc.handed answers = [] ∧ sh.stopRequested = true ∧
        pc.step platform answers sh = (sh, .next (exit platform))) := by
  cases pc with
  | receive => exact absurd rfl elsewhere
  | loopTest =>
    left
    cases requested : sh.stopRequested with
    | false => simp [carried, handed, calls, step, requested]
    | true => cases platform <;> simp [carried, handed, calls, step, requested, exit]
  | sampleTime status frame => exact .inl rfl
  | recheck pass =>
    cases requested : sh.stopRequested with
    | true =>
      exact .inr ⟨rfl, rfl, by simp [step, requested]⟩
    | false =>
      left
      by_cases received : pass.status = .frame
      · simp [carried, handed, calls, step, requested, received]
      · simp [carried, handed, calls, step, requested, received]
  | process pass => exact .inl rfl
  | sample pass => exact .inl rfl
  | update pass statistics timeoutNow =>
    left
    by_cases received : pass.status = .frame
    · simp [carried, handed, calls, step, received]
    · simp [carried, handed, calls, step, received]
  | onFrameProcessed pass snapshot =>
    left
    cases result : pass.result <;>
      simp [carried, handed, calls, step, result, WorkerCall.handed?]
  | onDiagnostics pass snapshot =>
    left
    by_cases faults : pass.faults = true
    · simp [carried, handed, calls, step, faults, WorkerCall.handed?]
    · simp [carried, handed, calls, step, faults, WorkerCall.handed?]
  | storeFaulted => exact .inl rfl
  | requestStop => exact .inl rfl
  | clearTask => exact .inl rfl
  | clearActive => exact .inl rfl

/-- A worker that has left the loop does not come back. -/
theorem WorkerPc.step_left (platform : Platform) (answers : Answers) (sh : Shared) {pc : WorkerPc}
    (left : pc.left = true) :
    (pc.step platform answers sh).1.stopRequested = sh.stopRequested ∧
      ∀ pc' ∈ (pc.step platform answers sh).2.live, pc'.left = true := by
  cases pc with
  | clearTask =>
    refine ⟨rfl, ?_⟩
    intro pc' live
    obtain rfl := List.mem_singleton.mp live
    rfl
  | clearActive => exact ⟨rfl, fun pc' live => absurd live (List.not_mem_nil)⟩
  | _ => cases left

/-- The points of a start() at which it has started its source and has no worker yet. -/
def StartPc.announcing : StartPc → Bool
  | .clearStopRequested | .setWorkerActive | .resetDiagnostics | .storeRunning
  | .createWorker => true
  | _ => false

theorem StartPc.step_announcing {platform : Platform} {fresh : ℕ} {answers : Answers}
    {sh sh' : Shared} {pc pc' : StartPc}
    (step : pc.step platform fresh answers sh = some (sh', .next pc')) :
    (pc'.announcing = true → pc.announcing = true ∨ pc = .startSource ∧ answers.result = .ok) ∧
      (pc' = .startSource → pc = .supportsRetry) := by
  have beside {pc' : StartPc} (quiet : pc'.announcing = false) (other : pc' ≠ .startSource) :
      (pc'.announcing = true → pc.announcing = true ∨ pc = .startSource ∧ answers.result = .ok) ∧
        (pc' = .startSource → pc = .supportsRetry) :=
    ⟨fun announcing => absurd (quiet.symm.trans announcing) Bool.false_ne_true,
      fun same => absurd same other⟩
  cases pc with
  | enter =>
    simp only [StartPc.step] at step
    split_ifs at step <;> simp at step
    obtain ⟨-, rfl⟩ := step
    exact beside rfl (by simp)
  | supportsRetry =>
    obtain rfl := Control.next.inj (Prod.mk.inj (Option.some.inj step)).2
    exact ⟨fun announcing => absurd announcing Bool.false_ne_true, fun _ => rfl⟩
  | startSource =>
    simp only [StartPc.step] at step
    split_ifs at step with ok owns <;>
      simp only [Option.some.injEq, Prod.mk.injEq, Control.next.injEq] at step <;>
      obtain ⟨-, rfl⟩ := step
    · exact ⟨fun _ => .inr ⟨rfl, ok⟩, by simp⟩
    · exact beside rfl (by simp)
    · exact beside rfl (by simp)
  | clearStopRequested | setWorkerActive | resetDiagnostics | storeRunning =>
    obtain rfl := Control.next.inj (Prod.mk.inj (Option.some.inj step)).2
    exact ⟨fun _ => .inl rfl, by simp⟩
  | createWorker =>
    refine ⟨fun _ => .inl rfl, ?_⟩
    rintro rfl
    cases platform <;> simp only [StartPc.step] at step <;> split_ifs at step <;> simp at step
  | assignWorker id =>
    simp only [StartPc.step] at step
    split_ifs at step
    simp only [Option.some.injEq, Prod.mk.injEq, Control.next.injEq] at step
    obtain ⟨-, rfl⟩ := step
    exact beside rfl (by simp)
  | partialCleanup pc result =>
    have same := (Prod.mk.inj (Option.some.inj step)).2
    generalize (pc.stepPartialStart sh answers.result).2 = control at same
    cases control <;> obtain rfl := Control.next.inj same <;> exact beside rfl (by simp)
  | sourceStop pc =>
    have same := (Prod.mk.inj (Option.some.inj step)).2
    generalize (pc.stepSourceStop sh answers.result).2 = control at same
    cases control <;> obtain rfl := Control.next.inj same <;> exact beside rfl (by simp)
  | conclude pc =>
    have same := (Prod.mk.inj (Option.some.inj step)).2
    generalize (pc.step sh answers).2 = control at same
    cases control with
    | next pc =>
      obtain rfl := Control.next.inj same
      exact beside rfl (by simp)
    | ret result => cases same
  | _ =>
    obtain rfl := Control.next.inj (Prod.mk.inj (Option.some.inj step)).2
    exact beside rfl (by simp)

/-- The points of a start() between its source's start() and the clearing of the diagnostics. -/
def StartPc.clearing : StartPc → Bool
  | .clearStopRequested | .setWorkerActive | .resetDiagnostics => true
  | _ => false

theorem StartPc.step_clearing {platform : Platform} {fresh : ℕ} {answers : Answers}
    {sh sh' : Shared} {pc pc' : StartPc}
    (step : pc.step platform fresh answers sh = some (sh', .next pc'))
    (clears : pc'.clearing = true) :
    pc.clearing = true ∨ pc = .startSource ∧ answers.result = .ok := by
  have announces : pc'.announcing = true := by cases pc' <;> first | rfl | cases clears
  refine ((step_announcing step).1 announces).imp_left fun announcing => ?_
  cases pc with
  | clearStopRequested | setWorkerActive | resetDiagnostics => rfl
  | storeRunning =>
    obtain rfl := Control.next.inj (Prod.mk.inj (Option.some.inj step)).2
    cases clears
  | createWorker =>
    cases platform <;> simp only [StartPc.step] at step <;> split_ifs at step <;>
      simp only [Option.some.injEq, Prod.mk.injEq, Control.next.injEq] at step <;>
      obtain ⟨-, rfl⟩ := step <;> cases clears
  | _ => cases announcing

/-- A call that goes on as a start() was one before. -/
theorem CallPc.step_goes_start {platform : Platform} {caller : Caller} {fresh : ℕ}
    {running : List ℕ} {answers : Answers} {sh sh' : Shared} {pc : CallPc} {pc' : StartPc}
    (step : pc.step platform caller fresh running answers sh = some (sh', .next (.start pc'))) :
    ∃ inner, pc = .start inner ∧
      inner.step platform fresh answers sh = some (sh', .next pc') := by
  cases pc with
  | configure config =>
    simp only [CallPc.step] at step
    split_ifs at step <;> cases (Prod.mk.inj (Option.some.inj step)).2
  | start inner =>
    obtain ⟨⟨sh'', control⟩, inside, same⟩ := Option.map_eq_some_iff.mp step
    obtain ⟨rfl, goes⟩ := Prod.mk.inj same
    cases control with
    | next inner' =>
      obtain rfl := CallPc.start.inj (Control.next.inj goes)
      exact ⟨inner, rfl, inside⟩
    | ret result => cases goes
  | stop inner =>
    obtain ⟨⟨sh'', control⟩, -, same⟩ := Option.map_eq_some_iff.mp step
    cases control <;> cases (Prod.mk.inj same).2
  | destroy inner =>
    obtain ⟨⟨sh'', control⟩, -, same⟩ := Option.map_eq_some_iff.mp step
    cases control <;> cases (Prod.mk.inj same).2

/-- While a start() has its source and no worker yet, there is none. -/
theorem System.Governed.of_announcing {platform : Platform} {s : System} (h : s.Governed platform)
    {caller : Caller} {pc : StartPc} (mem : (caller, .start pc) ∈ s.calls)
    (announcing : pc.announcing = true) : s.workers = [] := by
  have operating : (CallPc.start pc).operating = true := by
    cases pc <;> first | rfl | cases announcing
  have fact := (h.fact mem operating (by simp)).2
  cases pc with
  | clearStopRequested | setWorkerActive => exact fact.1.none_alive
  | resetDiagnostics | storeRunning | createWorker => exact fact.1.none_alive
  | _ => cases announcing

end VehicleTelemetry

namespace CanBusSource.Pipeline

variable {w : ℕ} {platform : VehicleTelemetry.Platform} {configuration : CanBus.Configuration}
  {s t first : Pipeline w} {k : Choice} {ks ls : List Choice}

/-! ### An acquisition -/

/-- The runtime's start() gets the bus's controller. -/
def reserves (s : Pipeline w) : Choice → Bool
  | .source (.call _) => (s.call.bind Call.pc?).any (·.reserves s.bus.shared.lifecycle)
  | _ => false

def withinAcquisition (s : Pipeline w) (k : Choice) : Bool := s.proper k && !s.reserves k

/-- What the bus shows at a step. -/
def onBus {ε : Type*} (configuration : CanBus.Configuration)
    (shown : CanBus.System w → CanBus.Choice → List ε) (s : Pipeline w) (k : Choice) : List ε :=
  (s.busMoves configuration k).flatMap (shown s.busView)

theorem busMoves_cases (configuration : CanBus.Configuration) (s : Pipeline w) (k : Choice) :
    s.busMoves configuration k = [] ∨ ∃ k', s.busMoves configuration k = [k'] := by
  cases k with
  | source k =>
    cases k with
    | enter i =>
      simp only [busMoves]
      split
      · exact .inr ⟨_, rfl⟩
      · exact .inr ⟨_, rfl⟩
      · exact .inl rfl
    | runtime k => exact .inl rfl
    | _ => exact .inr ⟨_, rfl⟩
  | _ => exact .inr ⟨_, rfl⟩

theorem Linked.step_acquisition (h : s.Linked platform) (within : s.withinAcquisition k = true)
    (step : s.next platform configuration k = some t) :
    exec (guarded CanBus.System.withinAcquisition CanBus.System.next) s.busView
      (s.busMoves configuration k) = some t.busView := by
  simp only [withinAcquisition, Bool.and_eq_true, Bool.not_eq_true'] at within
  have moved := h.step_bus within.1 step
  rcases busMoves_cases configuration s k with none | ⟨k', one⟩
  · rw [none] at moved ⊢
    exact moved
  · rw [one] at moved ⊢
    obtain ⟨bus, stepped, rest⟩ := exec_cons_eq_some.mp moved
    obtain rfl := Option.some.inj rest
    obtain ⟨allowed, stepped⟩ := guarded_eq_some.mp stepped
    refine exec_single (guarded_eq_some.mpr ⟨?_, stepped⟩)
    simp only [CanBus.System.withinAcquisition, allowed, Bool.true_and]
    cases k' with
    | call i ok =>
      cases k with
      | source k =>
        cases k with
        | call ok' =>
          obtain ⟨rfl, rfl⟩ := CanBus.Choice.call.inj (List.singleton_inj.mp one)
          have own : s.busView.calls[0]? = s.call.bind Call.pc? := by
            simp only [busView]
            cases s.call.bind Call.pc? <;> rfl
          simp only [own, Bool.not_eq_true']
          exact within.2
        | enter i' =>
          simp only [busMoves] at one
          split at one <;> simp at one
        | bus k =>
          obtain rfl := List.singleton_inj.mp one
          cases within.1
        | runtime k => cases one
      | _ => cases List.singleton_inj.mp one
    | _ => rfl

/-- The bus within an acquisition of the pipeline. -/
def acquisitionBus (platform : VehicleTelemetry.Platform) (configuration : CanBus.Configuration) :
    Projection (guarded withinAcquisition (next (w := w) platform configuration))
      (guarded CanBus.System.withinAcquisition (CanBus.System.next (w := w))) where
  Inv := Linked platform
  view := busView
  moves := busMoves configuration
  keeps h step := by
    obtain ⟨within, step⟩ := guarded_eq_some.mp step
    simp only [withinAcquisition, Bool.and_eq_true] at within
    exact h.next within.1 step
  step h step := h.step_acquisition (guarded_eq_some.mp step).1 (guarded_eq_some.mp step).2

/-- The bus in any run of the pipeline. -/
def wholeBus (platform : VehicleTelemetry.Platform) (configuration : CanBus.Configuration) :
    Projection (guarded proper (next (w := w) platform configuration))
      (guarded CanBus.System.apart (CanBus.System.next (w := w))) where
  Inv := Linked platform
  view := busView
  moves := busMoves configuration
  keeps h step := h.next (guarded_eq_some.mp step).1 (guarded_eq_some.mp step).2
  step h step := h.step_bus (guarded_eq_some.mp step).1 (guarded_eq_some.mp step).2

theorem trace_onBus {ε : Type*} (shown : CanBus.System w → CanBus.Choice → List ε)
    (start : s.Linked platform)
    (run : exec (guarded withinAcquisition (next platform configuration)) s ks = some t) :
    trace (guarded CanBus.System.withinAcquisition CanBus.System.next) shown s.busView
        ((acquisitionBus platform configuration).schedule s ks) =
      trace (guarded withinAcquisition (next platform configuration)) (onBus configuration shown)
        s ks := by
  refine (acquisitionBus platform configuration).trace_schedule ?_ start run
  intro s k t h step
  show trace _ _ s.busView (s.busMoves configuration k) = _
  rcases busMoves_cases configuration s k with none | ⟨k', one⟩
  · rw [onBus, none]
    rfl
  · rw [onBus, one, trace_single, List.flatMap_singleton]

/-! ### The runtime's start() -/

/-- The runtime's start() has been told, or is about to be told, that it has the bus. -/
def Granted (s : Pipeline w) : Prop :=
  (∃ c, s.call = some (.inside (.start c .setStartedBefore))) ∨ s.call = some (.returned .ok)

/-- A start() of the runtime has the bus and no worker yet. -/
def Announcing (s : Pipeline w) : Prop :=
  ∃ caller pc, (caller, .start pc) ∈ s.runtime.calls ∧
    (pc.announcing = true ∨ pc = .startSource ∧ s.Granted)

theorem Announcing.workers (h : s.Announcing) (linked : s.Linked platform) :
    s.runtime.workers = [] := by
  obtain ⟨caller, pc, mem, announcing | ⟨rfl, -⟩⟩ := h
  · exact linked.governed.of_announcing mem announcing
  · exact (linked.governed.fact mem rfl (by simp)).2.1.none_alive

/-- A start() of the runtime has the bus, and is at certain points behind its source's
start(). -/
def Entering (phase : VehicleTelemetry.StartPc → Bool) (s : Pipeline w) : Prop :=
  ∃ caller pc, (caller, .start pc) ∈ s.runtime.calls ∧
    (phase pc = true ∨ pc = .startSource ∧ s.Granted)

/-- Within an acquisition no start() gets the bus, and so none gets to these points. -/
theorem Entering.of_next {phase : VehicleTelemetry.StartPc → Bool} (behind : phase .enter = false)
    (closed : ∀ {fresh answers sh sh' pc pc'},
      VehicleTelemetry.StartPc.step platform fresh answers sh pc = some (sh', .next pc') →
      phase pc' = true → phase pc = true ∨ pc = .startSource ∧ answers.result = .ok)
    (h : s.Linked platform) (acquired : s.busView.Acquired)
    (step : s.next platform configuration k = some t) (after : t.Entering phase) :
    s.Entering phase := by
  have same (calls : t.runtime.calls = s.runtime.calls) (call : t.call = s.call) :
      s.Entering phase := by
    unfold Entering Granted at after ⊢
    rwa [calls, call] at after
  obtain ⟨caller, pc, mem, granted⟩ := after
  cases k with
  | source k =>
    cases k with
    | runtime k =>
      obtain ⟨-, system, inner, rfl⟩ := next_source_runtime step
      obtain ⟨answered, runtime, moved, rfl⟩ := System.next_runtime inner
      have stays (waits : ({ s with
          runtime := runtime
          call := if s.resumes k then none else s.call
          reception := if s.takes k then none else s.reception } : Pipeline w).Granted) :
          s.call ≠ none ∧ s.Granted := by
        unfold Granted at waits
        dsimp only at waits
        split_ifs at waits
        · rcases waits with ⟨c, absent⟩ | absent <;> cases absent
        · refine ⟨?_, waits⟩
          rcases waits with ⟨c, present⟩ | present <;> simp [present]
      have kept (old : (caller, VehicleTelemetry.CallPc.start pc) ∈ s.runtime.calls) :
          s.Entering phase := by
        refine ⟨caller, pc, old, granted.imp_right fun granted => ?_⟩
        exact ⟨granted.1, (stays granted.2).2⟩
      cases k with
      | call i answers =>
        obtain ⟨caller', pc', shared, control, found, inside, rfl⟩ :=
          VehicleTelemetry.System.next_call moved
        rcases mem_of_mem_resume found mem with old | own
        · exact kept old
        · cases control with
          | ret value => cases own
          | next after =>
            obtain ⟨rfl, rfl⟩ := Prod.mk.inj (List.mem_singleton.mp own)
            obtain ⟨before, rfl, goes⟩ := VehicleTelemetry.CallPc.step_goes_start inside
            have member := List.mem_of_getElem? found
            have enters := (VehicleTelemetry.StartPc.step_announcing goes).2
            rcases granted with announcing | ⟨entering, waits⟩
            · refine ⟨_, before, member, (closed goes announcing).imp_right ?_⟩
              rintro ⟨rfl, told⟩
              obtain ⟨result, returned, same⟩ := System.answered_inSource answered found rfl
              refine ⟨rfl, .inr ?_⟩
              rw [returned]
              cases result <;> first | rfl | cases same.symm.trans told
            · -- the operation has no call on the bus before it enters the source
              obtain rfl := enters entering
              have stands : Stands _ _ s.call (.start .supportsRetry) :=
                h.retained.held.fact member rfl
              exact absurd (stands.covered rfl).1 (stays waits).1
      | begin caller' operation =>
        obtain ⟨-, rfl⟩ := VehicleTelemetry.System.next_begin moved
        rcases List.mem_append.mp mem with old | new
        · exact kept old
        · have entry := (Prod.mk.inj (List.mem_singleton.mp new)).2
          cases operation <;> cases entry
          rcases granted with announcing | ⟨enters, -⟩
          · cases behind.symm.trans announcing
          · cases enters
      | beginDestroy caller' =>
        obtain ⟨-, -, -, rfl⟩ := VehicleTelemetry.System.next_beginDestroy moved
        cases (Prod.mk.inj (List.mem_singleton.mp mem)).2
      | beginDiagnostics caller' =>
        obtain ⟨-, rfl⟩ := VehicleTelemetry.System.next_beginDiagnostics moved
        exact kept mem
      | reader i answers =>
        obtain ⟨caller', pc', found, rfl⟩ := VehicleTelemetry.System.next_reader moved
        exact kept mem
      | worker i answers =>
        obtain ⟨id, pc', found, -, rfl⟩ := VehicleTelemetry.System.next_worker moved
        exact kept mem
    | enter i =>
      obtain ⟨system, inner, rfl⟩ := next_source (by simp) step
      obtain ⟨free, caller', pc', entry, found, asks, rfl⟩ := System.next_enter inner
      refine ⟨caller, pc, mem, granted.imp_right fun granted => ?_⟩
      exfalso
      rcases granted.2 with ⟨c, inside⟩ | returned
      · obtain rfl := Call.inside.inj (Option.some.inj inside)
        rcases request_eq_some asks with ⟨-, begins⟩ | ⟨-, begins⟩ <;> cases begins
      · cases returned
    | call ok =>
      obtain ⟨system, inner, rfl⟩ := next_source (by simp) step
      obtain ⟨pc', shared, control, present, inside, rfl⟩ := System.next_call inner
      refine ⟨caller, pc, mem, granted.imp_right ?_⟩
      rintro ⟨rfl, waits⟩
      refine ⟨rfl, ?_⟩
      have stands : Stands _ _ s.call (.start .startSource) := h.retained.held.fact mem rfl
      rw [present] at stands
      obtain ⟨-, -, starts⟩ := stands.at_start
      cases starts with
      | inside c inner outline grants =>
        obtain ⟨after, moved, rfl⟩ := CanBus.CallPc.step_start inside
        have succeeds : after = .ret .ok ∨ after = .next .setStartedBefore := by
          rcases waits with ⟨c', goes⟩ | told
          · right
            cases after with
            | next pc' =>
              have same := Call.inside.inj (Option.some.inj goes)
              exact congrArg Control.next (CanBus.CallPc.start.inj same).2
            | ret result => cases goes
          · left
            cases after with
            | next pc' => cases told
            | ret result => exact congrArg Control.ret (Call.returned.inj (Option.some.inj told))
        rcases grants.step_ok moved succeeds with rfl | rfl
        · exact .inl ⟨c, present⟩
        · have prepared := acquired.prepared (.start c .createTask) (by simp [busView, present, Call.pc?])
          cases prepared
    | bus k =>
      obtain ⟨system, inner, rfl⟩ := next_source (by simp) step
      obtain ⟨bus, moved, rfl⟩ := System.next_bus inner
      exact same rfl rfl
  | enterReceive i =>
    obtain ⟨-, -, -, rfl⟩ := next_enterReceive step
    exact same rfl rfl
  | receive granted' =>
    obtain ⟨pc', shared, control, -, -, rfl⟩ := next_receive step
    exact same rfl rfl

theorem Announcing.of_next (h : s.Linked platform) (acquired : s.busView.Acquired)
    (step : s.next platform configuration k = some t) (after : t.Announcing) : s.Announcing :=
  Entering.of_next rfl (fun goes => (VehicleTelemetry.StartPc.step_announcing goes).1) h acquired
    step after

/-! ### From receive() to the processor -/

def handedFrames (s : Pipeline w) : Choice → List RawCanFrame
  | .source (.runtime k) => (s.runtime.workerCalls k).filterMap VehicleTelemetry.WorkerCall.handed?
  | _ => []

def Reception.frames : Reception → List RawCanFrame
  | .waiting => []
  | .returned value => CanBus.deliveredFrame value

/-- The frame that receive() has returned and that is not handed over. -/
def inHand (s : Pipeline w) : List RawCanFrame :=
  (s.reception.map Reception.frames).getD [] ++ s.runtime.workers.flatMap (·.2.carried)

/-- An Ok of receive() comes with a frame. -/
def Answered (s : Pipeline w) : Prop :=
  ∀ value, s.reception = some (.returned value) → value.1 = .ok → value.2.isSome = true

theorem Answered.next (h : s.Answered) (step : s.next platform configuration k = some t) :
    t.Answered := by
  intro value present
  cases k with
  | source k =>
    cases k with
    | runtime k =>
      obtain ⟨-, system, -, rfl⟩ := next_source_runtime step
      dsimp only at present
      split_ifs at present
      exact h value present
    | enter | call | bus =>
      obtain ⟨system, -, rfl⟩ := next_source (by simp) step
      exact h value present
  | enterReceive i =>
    obtain ⟨-, -, -, rfl⟩ := next_enterReceive step
    cases present
  | receive granted =>
    obtain ⟨pc, shared, control, -, inside, rfl⟩ := next_receive step
    cases control with
    | next pc' => cases present
    | ret value' =>
      obtain rfl := Reception.returned.inj (Option.some.inj present)
      exact fun ok => ((CanBus.ReceivePc.step_pop inside).1 value' rfl ok).1

/-- The worker has left the loop, and there will be no other one. -/
structure Leaving (s : Pipeline w) : Prop where
  requested : s.runtime.shared.stopRequested = true
  last : ¬s.Announcing
  left : ∀ p ∈ s.runtime.workers, p.2.left = true

/-- What has been returned and handed over, and what a stop() has cost. -/
def Delivers (s : Pipeline w) (returned handed : List RawCanFrame) : Prop :=
  ∃ dropped, returned = handed ++ s.inHand ++ dropped ∧ dropped.length ≤ 1 ∧
    (dropped ≠ [] → s.Leaving)

theorem Leaving.inHand_nil (h : s.Leaving) (linked : s.Linked platform) :
    s.reception = none ∧ s.inHand = [] := by
  have idle : s.reception = none := by
    by_contra waits
    obtain ⟨id, only⟩ := linked.worker waits
    cases h.left (id, .receive) (by simp [only])
  refine ⟨idle, ?_⟩
  simp only [inHand, idle, Option.map_none, Option.getD_none, List.nil_append]
  rw [List.flatMap_eq_nil_iff]
  intro p mem
  exact VehicleTelemetry.WorkerPc.carried_left (h.left p mem)

/-- A step that leaves alone what is in hand. -/
theorem Delivers.of_same {returned handed : List RawCanFrame} (h : s.Delivers returned handed)
    (hand : t.inHand = s.inHand) (leaving : s.Leaving → t.Leaving) :
    t.Delivers returned handed := by
  obtain ⟨dropped, account, short, left⟩ := h
  refine ⟨dropped, ?_, short, leaving ∘ left⟩
  rw [hand]
  exact account

/-- The frame that the worker takes from the adapter. -/
theorem deliveredFrame_eq {value : CanBus.Result × Option RawCanFrame}
    (sound : value.1 = .ok → value.2.isSome = true) :
    CanBus.deliveredFrame value =
      if mapReceiveResult value.1 = .frame then [value.2.getD {}] else [] := by
  obtain ⟨result, frame⟩ := value
  cases result with
  | ok =>
    obtain ⟨frame, rfl⟩ := Option.isSome_iff_exists.mp (sound rfl)
    rfl
  | _ => rfl

/-- A step of the worker. -/
theorem Delivers.worker {returned handed : List RawCanFrame} (h : s.Delivers returned handed)
    (linked : s.Linked platform) (acquired : s.busView.Acquired) (answered : s.Answered) {i : ℕ}
    {answers : VehicleTelemetry.Answers}
    (step : s.next platform configuration (.source (.runtime (.worker i answers))) = some t) :
    t.Delivers returned (handed ++ s.handedFrames (.source (.runtime (.worker i answers)))) := by
  have announcing := Announcing.of_next linked acquired step
  obtain ⟨received, system, inner, rfl⟩ := next_source_runtime step
  obtain ⟨-, runtime, moved, rfl⟩ := System.next_runtime inner
  obtain ⟨id, pc, found, -, rfl⟩ := VehicleTelemetry.System.next_worker moved
  obtain ⟨alone, resumed⟩ := linked.governed.worker_alone found
  have last : ¬s.Announcing := by
    intro announces
    rw [announces.workers linked] at alone
    cases alone
  have calls : s.handedFrames (.source (.runtime (.worker i answers))) = pc.handed answers := by
    simp only [handedFrames, VehicleTelemetry.System.workerCalls, found, Option.map_some,
      Option.getD_some, VehicleTelemetry.WorkerPc.handed]
  have takes : s.takes (.worker i answers) = decide (pc = .receive) := by
    simp only [Pipeline.takes, found, Option.any_some]
  rw [calls]
  obtain ⟨dropped, account, short, left⟩ := h
  by_cases at_receive : pc = .receive
  · subst at_receive
    obtain ⟨i', answers', id', value, same, -, returned', status, frame⟩ :=
      received_takes received takes
    obtain ⟨rfl, rfl⟩ := VehicleTelemetry.Choice.worker.inj same
    have none : dropped = [] := by
      by_contra some
      cases (left some).left (id, .receive) (List.mem_of_getElem? found)
    subst none
    refine ⟨[], ?_, by simp, by simp⟩
    have before : s.inHand = CanBus.deliveredFrame value := by
      simp [inHand, returned', alone, Reception.frames, VehicleTelemetry.WorkerPc.carried]
    rw [account, before, deliveredFrame_eq (answered value returned')]
    simp [inHand, takes, resumed, VehicleTelemetry.WorkerPc.step, Control.call, Control.live,
      VehicleTelemetry.WorkerPc.carried, VehicleTelemetry.WorkerPc.handed,
      VehicleTelemetry.WorkerPc.calls, VehicleTelemetry.WorkerCall.handed?, status, frame]
  · have idle : s.reception = none := by
      by_contra waits
      obtain ⟨id', only⟩ := linked.worker waits
      have same := List.singleton_inj.mp (alone.symm.trans only)
      exact at_receive (Prod.mk.inj same).2
    have before : s.inHand = pc.carried := by simp [inHand, idle, alone]
    rw [before] at account
    rcases pc.step_carried platform answers s.runtime.shared at_receive with
      keeps | ⟨nothing, requested, exits⟩
    · refine ⟨dropped, ?_, short, fun some => ?_⟩
      · rw [account, keeps]
        cases control : (pc.step platform answers s.runtime.shared).2 <;>
          simp [inHand, takes, at_receive, idle, resumed, Control.call, Control.live, Control.pc?]
      · obtain ⟨requested, stays⟩ := VehicleTelemetry.WorkerPc.step_left platform answers
          s.runtime.shared ((left some).left (id, pc) (List.mem_of_getElem? found))
        refine ⟨requested.trans (left some).requested, mt announcing last, ?_⟩
        intro p mem
        cases control : (pc.step platform answers s.runtime.shared).2 with
        | next pc' =>
          rw [control] at stays
          simp only [control, resumed, Control.call, Control.live, List.mem_singleton] at mem
          obtain rfl := mem
          exact stays pc' (by simp [Control.live])
        | ret value =>
          simp [control, resumed, Control.call, Control.live] at mem
    · have leaves : (VehicleTelemetry.WorkerPc.exit platform).left = true := by
        cases platform <;> rfl
      refine ⟨pc.carried ++ dropped, ?_, ?_, fun _ => ⟨?_, mt announcing last, ?_⟩⟩
      · rw [account, nothing]
        simp [inHand, takes, at_receive, idle, resumed, exits, Control.call, Control.live,
          VehicleTelemetry.WorkerPc.carried_left leaves]
      · by_cases none : dropped = []
        · simpa [none] using pc.carried_length
        · have gone := VehicleTelemetry.WorkerPc.carried_left
            ((left none).left (id, pc) (List.mem_of_getElem? found))
          simpa [gone] using short
      · simp only [exits]
        exact requested
      · intro p mem
        simp only [exits, resumed, Control.call, Control.live, List.mem_singleton] at mem
        obtain rfl := mem
        exact leaves

/-- A step of an operation: it may create a worker, which has nothing yet. -/
theorem Delivers.call {returned handed : List RawCanFrame} (h : s.Delivers returned handed)
    (linked : s.Linked platform) (acquired : s.busView.Acquired) {i : ℕ}
    {answers : VehicleTelemetry.Answers}
    (step : s.next platform configuration (.source (.runtime (.call i answers))) = some t) :
    t.Delivers returned handed := by
  have announcing := Announcing.of_next linked acquired step
  obtain ⟨-, system, inner, rfl⟩ := next_source_runtime step
  obtain ⟨-, runtime, moved, rfl⟩ := System.next_runtime inner
  obtain ⟨caller, pc, shared, control, found, inside, rfl⟩ := VehicleTelemetry.System.next_call moved
  have member := List.mem_of_getElem? found
  refine h.of_same ?_ fun leaving => ⟨?_, mt announcing leaving.last, ?_⟩
  · have empty : (pc.spawned s.runtime.created answers).flatMap (·.2.carried) = [] := by
      rw [List.flatMap_eq_nil_iff]
      intro p mem
      unfold VehicleTelemetry.CallPc.spawned at mem
      split at mem
      · split_ifs at mem
        · obtain rfl := List.mem_singleton.mp mem
          rfl
        · cases mem
      · cases mem
    simp [inHand, takes, empty]
  · have elsewhere : pc ≠ .start .clearStopRequested := by
      rintro rfl
      exact leaving.last ⟨caller, _, member, .inl rfl⟩
    exact (VehicleTelemetry.CallPc.step_spares inside).requested elsewhere leaving.requested
  · have elsewhere : pc ≠ .start .createWorker := by
      rintro rfl
      exact leaving.last ⟨caller, _, member, .inl rfl⟩
    intro p mem
    rw [VehicleTelemetry.CallPc.spawned_eq_nil s.runtime.created answers elsewhere,
      List.append_nil] at mem
    exact leaving.left p mem

theorem Delivers.next {returned handed : List RawCanFrame} (h : s.Delivers returned handed)
    (linked : s.Linked platform) (acquired : s.busView.Acquired) (answered : s.Answered)
    (within : s.proper k = true) (step : s.next platform configuration k = some t) :
    t.Delivers (returned ++ onBus configuration CanBus.System.returnedFrames s k)
      (handed ++ s.handedFrames k) := by
  have quiet (nothing : onBus configuration CanBus.System.returnedFrames s k = [])
      (handed' : s.handedFrames k = []) (same : t.Delivers returned handed) :
      t.Delivers (returned ++ onBus configuration CanBus.System.returnedFrames s k)
        (handed ++ s.handedFrames k) := by
    rw [nothing, handed', List.append_nil, List.append_nil]
    exact same
  have announcing := Announcing.of_next linked acquired step
  cases k with
  | source k =>
    cases k with
    | runtime k =>
      cases k with
      | worker i answers =>
        rw [show onBus configuration CanBus.System.returnedFrames s
          (.source (.runtime (.worker i answers))) = [] from rfl, List.append_nil]
        exact h.worker linked acquired answered step
      | call i answers => exact quiet rfl rfl (h.call linked acquired step)
      | begin caller operation =>
        refine quiet rfl rfl ?_
        obtain ⟨-, system, inner, rfl⟩ := next_source_runtime step
        obtain ⟨-, runtime, moved, rfl⟩ := System.next_runtime inner
        obtain ⟨-, rfl⟩ := VehicleTelemetry.System.next_begin moved
        exact h.of_same rfl fun leaving =>
          ⟨leaving.requested, mt announcing leaving.last, leaving.left⟩
      | beginDestroy caller =>
        refine quiet rfl rfl ?_
        obtain ⟨-, system, inner, rfl⟩ := next_source_runtime step
        obtain ⟨-, runtime, moved, rfl⟩ := System.next_runtime inner
        obtain ⟨-, -, -, rfl⟩ := VehicleTelemetry.System.next_beginDestroy moved
        exact h.of_same rfl fun leaving =>
          ⟨leaving.requested, mt announcing leaving.last, leaving.left⟩
      | beginDiagnostics caller =>
        refine quiet rfl rfl ?_
        obtain ⟨-, system, inner, rfl⟩ := next_source_runtime step
        obtain ⟨-, runtime, moved, rfl⟩ := System.next_runtime inner
        obtain ⟨-, rfl⟩ := VehicleTelemetry.System.next_beginDiagnostics moved
        exact h.of_same rfl fun leaving =>
          ⟨leaving.requested, mt announcing leaving.last, leaving.left⟩
      | reader i answers =>
        refine quiet rfl rfl ?_
        obtain ⟨-, system, inner, rfl⟩ := next_source_runtime step
        obtain ⟨-, runtime, moved, rfl⟩ := System.next_runtime inner
        obtain ⟨caller, pc, found, rfl⟩ := VehicleTelemetry.System.next_reader moved
        refine h.of_same rfl fun leaving => ⟨?_, mt announcing leaving.last, leaving.left⟩
        have same : (pc.step answers s.runtime.shared).1.stopRequested =
            s.runtime.shared.stopRequested := by
          cases pc with
          | sample => rfl
          | evaluate now =>
            simp only [VehicleTelemetry.DiagnosticsPc.step,
              VehicleTelemetry.Shared.updateSilenceDiagnosticLocked]
            split_ifs <;> rfl
        exact same.trans leaving.requested
    | enter i =>
      have nothing : onBus configuration CanBus.System.returnedFrames s (.source (.enter i)) = [] := by
        simp only [onBus, busMoves]
        split <;> rfl
      refine quiet nothing rfl ?_
      obtain ⟨system, inner, rfl⟩ := next_source (by simp) step
      obtain ⟨-, caller, pc, entry, -, -, rfl⟩ := System.next_enter inner
      exact h.of_same rfl fun leaving =>
        ⟨leaving.requested, mt announcing leaving.last, leaving.left⟩
    | call ok =>
      refine quiet rfl rfl ?_
      obtain ⟨system, inner, rfl⟩ := next_source (by simp) step
      obtain ⟨pc, shared, control, -, -, rfl⟩ := System.next_call inner
      exact h.of_same rfl fun leaving =>
        ⟨leaving.requested, mt announcing leaving.last, leaving.left⟩
    | bus k =>
      have nothing : onBus configuration CanBus.System.returnedFrames s (.source (.bus k)) = [] := by
        cases k <;> first | rfl | cases within
      refine quiet nothing rfl ?_
      obtain ⟨system, inner, rfl⟩ := next_source (by simp) step
      obtain ⟨bus, moved, rfl⟩ := System.next_bus inner
      exact h.of_same rfl fun leaving =>
        ⟨leaving.requested, mt announcing leaving.last, leaving.left⟩
  | enterReceive i =>
    refine quiet rfl rfl ?_
    obtain ⟨free, -, -, rfl⟩ := next_enterReceive step
    obtain ⟨dropped, account, short, left⟩ := h
    refine ⟨dropped, ?_, short, fun some => ?_⟩
    · rw [account]
      simp [inHand, free, Reception.frames]
    · exact ⟨(left some).requested, mt announcing (left some).last, (left some).left⟩
  | receive granted =>
    obtain ⟨pc, shared, control, found, inside, rfl⟩ := next_receive step
    have waiting : s.reception = some .waiting := by
      by_contra other
      have free := linked.consumer other
      rw [found] at free
      cases free
    obtain ⟨id, only⟩ := linked.worker (by simp [waiting])
    obtain ⟨dropped, account, short, left⟩ := h
    have none : dropped = [] := by
      by_contra some
      cases (left some).left (id, .receive) (by simp [only])
    subst none
    have before : s.inHand = [] := by
      simp [inHand, waiting, only, Reception.frames, VehicleTelemetry.WorkerPc.carried]
    have value : onBus configuration CanBus.System.returnedFrames s (.receive granted) =
        (control.value?.map CanBus.deliveredFrame).getD [] := by
      simp only [onBus, busMoves, List.flatMap_singleton, CanBus.System.returnedFrames,
        CanBus.System.received, busView, found, Option.bind_some, inside]
    rw [value, show s.handedFrames (.receive granted) = [] from rfl, List.append_nil]
    refine ⟨[], ?_, by simp, by simp⟩
    rw [account, before]
    cases control <;>
      simp [inHand, only, Reception.frames, VehicleTelemetry.WorkerPc.carried, Control.value?]

/-! ### The whole way -/

/-- A start() on the bus has the configuration of the source. -/
def Configured (configuration : CanBus.Configuration) (s : Pipeline w) : Prop :=
  ∀ c pc, s.call = some (.inside (.start c pc)) → c = configuration

theorem Configured.next (h : s.Configured configuration)
    (step : s.next platform configuration k = some t) : t.Configured configuration := by
  intro c pc present
  cases k with
  | source k =>
    cases k with
    | runtime k =>
      obtain ⟨-, system, inner, rfl⟩ := next_source_runtime step
      obtain ⟨-, runtime, -, rfl⟩ := System.next_runtime inner
      dsimp only at present
      split_ifs at present
      exact h c pc present
    | enter i =>
      obtain ⟨system, inner, rfl⟩ := next_source (by simp) step
      obtain ⟨-, caller, pc', entry, -, asks, rfl⟩ := System.next_enter inner
      obtain rfl := Call.inside.inj (Option.some.inj present)
      rcases request_eq_some asks with ⟨-, begins⟩ | ⟨-, begins⟩
      · exact (CanBus.CallPc.start.inj begins).1
      · cases begins
    | call ok =>
      obtain ⟨system, inner, rfl⟩ := next_source (by simp) step
      obtain ⟨pc', shared, control, before, inside, rfl⟩ := System.next_call inner
      cases control with
      | ret result => cases present
      | next after =>
        obtain rfl := Call.inside.inj (Option.some.inj present)
        cases pc' with
        | stop pc' =>
          obtain ⟨control, -, same⟩ := CanBus.CallPc.step_stop inside
          cases control <;> cases same
        | start c' pc' =>
          obtain ⟨control, -, same⟩ := CanBus.CallPc.step_start inside
          cases control with
          | ret result => cases same
          | next inner' =>
            obtain ⟨rfl, -⟩ := CanBus.CallPc.start.inj (Control.next.inj same)
            exact h c pc' before
    | bus k =>
      obtain ⟨system, inner, rfl⟩ := next_source (by simp) step
      obtain ⟨bus, -, rfl⟩ := System.next_bus inner
      exact h c pc present
  | enterReceive i =>
    obtain ⟨-, -, -, rfl⟩ := next_enterReceive step
    exact h c pc present
  | receive granted =>
    obtain ⟨pc', shared, control, -, -, rfl⟩ := next_receive step
    exact h c pc present

theorem exec_linked (run : exec (guarded proper (next platform configuration)) ({} : Pipeline w) ks =
    some s) : s.Linked platform ∧ s.Configured configuration ∧ s.Answered := by
  refine exec_invariant (P := fun s => s.Linked platform ∧ s.Configured configuration ∧ s.Answered)
    ?_ run ⟨.initial, by simp [Configured], by simp [Answered]⟩
  rintro s k t ⟨linked, configured, answered⟩ step
  obtain ⟨allowed, step⟩ := guarded_eq_some.mp step
  exact ⟨linked.next allowed step, configured.next step, answered.next step⟩

theorem Linked.acquired (h : s.Linked platform) (acquired : s.busView.Acquired)
    (within : s.withinAcquisition k = true) (step : s.next platform configuration k = some t) :
    t.busView.Acquired := by
  refine exec_invariant (P := CanBus.System.Acquired) ?_ (h.step_acquisition within step) acquired
  intro s k t acquired step
  obtain ⟨within, step⟩ := guarded_eq_some.mp step
  exact (acquired.next within step).1

/-- What holds while no start() gets the bus. -/
structure Acquiring (platform : VehicleTelemetry.Platform) (s : Pipeline w) : Prop where
  linked : s.Linked platform
  acquired : s.busView.Acquired
  answered : s.Answered

theorem Acquiring.next (h : s.Acquiring platform) (within : s.withinAcquisition k = true)
    (step : s.next platform configuration k = some t) : t.Acquiring platform := by
  have allowed : s.proper k = true := by
    simp only [withinAcquisition, Bool.and_eq_true] at within
    exact within.1
  exact ⟨h.linked.next allowed step, h.linked.acquired h.acquired within step,
    h.answered.next step⟩

/-- The worker's account of a run in which no start() gets the bus. -/
theorem exec_delivers {before : List RawCanFrame} (start : s.Acquiring platform)
    (owes : s.Delivers before [])
    (run : exec (guarded withinAcquisition (next platform configuration)) s ls = some t) :
    t.Acquiring platform ∧ t.Delivers
      (before ++ trace (guarded withinAcquisition (next platform configuration))
        (onBus configuration CanBus.System.returnedFrames) s ls)
      (trace (guarded withinAcquisition (next platform configuration)) handedFrames s ls) := by
  refine exec_history (P := fun ls t => t.Acquiring platform ∧ t.Delivers
    (before ++ trace (guarded withinAcquisition (next platform configuration))
      (onBus configuration CanBus.System.returnedFrames) s ls)
    (trace (guarded withinAcquisition (next platform configuration)) handedFrames s ls)) ?_ ?_ run
  · refine ⟨start, ?_⟩
    simpa [trace] using owes
  · rintro ls t k u run ⟨acquiring, delivers⟩ step
    obtain ⟨within, moved⟩ := guarded_eq_some.mp step
    have allowed : t.proper k = true := by
      simp only [withinAcquisition, Bool.and_eq_true] at within
      exact within.1
    refine ⟨acquiring.next within moved, ?_⟩
    rw [trace_concat run, trace_concat run, ← List.append_assoc]
    exact delivers.next acquiring.linked acquiring.acquired acquiring.answered allowed moved

/-- The runtime's start() has just created the task of the bus. -/
structure Begins (platform : VehicleTelemetry.Platform) (configuration : CanBus.Configuration)
    (s first : Pipeline w) : Prop where
  creating : ∃ c, s.call = some (.inside (.start c .createTask))
  creates : guarded proper (next platform configuration) s (.source (.call true)) = some first

theorem Begins.bus (h : Begins platform configuration s first) (linked : s.Linked platform)
    (configured : s.Configured configuration) :
    CanBus.System.Begins configuration s.busView first.busView := by
  obtain ⟨⟨c, creating⟩, creates⟩ := h
  obtain ⟨allowed, step⟩ := guarded_eq_some.mp creates
  obtain rfl := configured c _ creating
  refine ⟨by simp [busView, creating, Call.pc?], ?_⟩
  obtain ⟨bus, moved, rest⟩ := exec_cons_eq_some.mp (linked.step_bus allowed step)
  obtain rfl := Option.some.inj rest
  exact moved

theorem Begins.acquiring (h : Begins platform configuration s first)
    (before : exec (guarded proper (next platform configuration)) ({} : Pipeline w) ks = some s) :
    first.Acquiring platform := by
  obtain ⟨linked, configured, answered⟩ := exec_linked before
  obtain ⟨allowed, step⟩ := guarded_eq_some.mp h.creates
  have numbered : s.busView.NumberedBy :=
    CanBus.System.exec_numbered ((wholeBus platform configuration).exec_schedule .initial before)
  exact ⟨linked.next allowed step,
    ((h.bus linked configured).fresh linked.bus numbered).1.acquired, answered.next step⟩

/-- There is no worker yet. -/
theorem Begins.idle (h : Begins platform configuration s first) (linked : s.Linked platform) :
    first.reception = none ∧ first.runtime.workers = [] := by
  obtain ⟨⟨c, creating⟩, creates⟩ := h
  obtain ⟨-, step⟩ := guarded_eq_some.mp creates
  obtain ⟨system, inner, rfl⟩ := next_source (by simp) step
  obtain ⟨pc, shared, control, -, -, rfl⟩ := System.next_call inner
  have absent := linked.workers_nil creating
  refine ⟨?_, absent⟩
  by_contra waits
  obtain ⟨id, only⟩ := linked.worker waits
  rw [absent] at only
  cases only

theorem Begins.fresh (h : Begins platform configuration s first) (linked : s.Linked platform) :
    first.Delivers [] [] := by
  obtain ⟨idle, absent⟩ := h.idle linked
  exact ⟨[], by simp [inHand, idle, absent], by simp, by simp⟩

/-- From the creation of the bus's task by a start() of the runtime until another start() gets
the bus, in any interleaving with stop(), diagnostics() and the destructor: what the worker
hands to the processor is, in order and each frame once, a prefix of what receive() returns,
and this is, in order, some of the valid messages that the driver gave to the task, each with
the time read for it and the configured bus id. Beside the frame in hand, one frame at most
is returned and not handed over, and this only after a request to stop. -/
theorem frames_to_processor (wide : 6 < w)
    (before : exec (guarded proper (next platform configuration)) ({} : Pipeline w) ks = some s)
    (begins : Begins platform configuration s first)
    (run : exec (guarded withinAcquisition (next platform configuration)) first ls = some t) :
    let next' := guarded withinAcquisition (next platform configuration)
    let messages := trace next' (onBus configuration CanBus.System.driverMessages) first ls
    let returned := trace next' (onBus configuration CanBus.System.returnedFrames) first ls
    let handed := trace next' handedFrames first ls
    returned.Sublist ((messages.map (CanBus.System.framed configuration.busId)).filter
        RawCanFrame.isValid) ∧
      (∃ dropped, returned = handed ++ t.inHand ++ dropped ∧ dropped.length ≤ 1 ∧
        (dropped ≠ [] → t.runtime.shared.stopRequested = true ∧ t.inHand = [])) ∧
      (∀ frame ∈ handed, frame.isValid = true ∧ frame.busId = configuration.busId ∧
        ∃ p ∈ messages, frame = CanBus.System.framed configuration.busId p) ∧
      ((messages.map Prod.snd).Pairwise (· ≤ ·) →
        (handed.map RawCanFrame.timestampUs).Pairwise (· ≤ ·)) := by
  intro next' messages returned handed
  obtain ⟨linked, configured, -⟩ := exec_linked before
  have start := begins.acquiring before
  have bus := (acquisitionBus platform configuration).exec_schedule start.linked run
  have whole := (wholeBus platform configuration).exec_schedule .initial before
  obtain ⟨prefix', sub⟩ :=
    CanBus.System.returned_of_driver wide whole (begins.bus linked configured) bus
  have ordered := prefix'.sublist.trans sub
  have returns := trace_onBus CanBus.System.returnedFrames start.linked run
  have gives := trace_onBus CanBus.System.driverMessages start.linked run
  rw [returns, gives] at ordered
  obtain ⟨acquiring, dropped, account, short, left⟩ := exec_delivers start (begins.fresh linked) run
  have known : handed <+: returned := by
    refine ⟨t.inHand ++ dropped, ?_⟩
    rw [← List.append_assoc]
    exact account.symm
  refine ⟨ordered, ⟨dropped, account, short, fun some => ?_⟩,
    CanBus.System.framed_of_sublist (known.sublist.trans ordered)⟩
  exact ⟨(left some).requested, ((left some).inHand_nil acquiring.linked).2⟩

/-- A start() of the runtime up to the creation of the bus's task. -/
def creatingRun : List Choice :=
  [.source (.runtime (.begin none .start))] ++
    (System.operates 3 { retrySupported := true }).map .source ++ [.source (.enter 0)] ++
    List.replicate 34 (.source (.call true))

/-- The start() ends, the task queues a message, and receive() returns it. -/
def deliveredRun : List Choice :=
  [.source (.call true)] ++ (System.operates 8 {}).map .source ++
    [.source (.runtime (.worker 0 {})), .enterReceive 0, .source (.bus (.task 0 {})),
      .source (.bus (.task 0 { received := .message { dataLengthCode := 2 } }))] ++
    List.replicate 10 (.source (.bus (.task 0 {}))) ++ List.replicate 8 (.receive true)

/-- The worker takes the frame and hands it to the processor. -/
def processRun : List Choice :=
  .source (.runtime (.worker 0 { received := .frame, frame := { dlc := 2 } })) ::
    List.replicate 3 (.source (.runtime (.worker 0 {})))

theorem frames_to_processor_processed :
    let next' := guarded withinAcquisition (next (w := 32) .host {})
    let created := final (guarded proper (next .host {}))
      (final (guarded proper (next .host {})) ({} : Pipeline 32) creatingRun) [.source (.call true)]
    (trace next' handedFrames created (deliveredRun ++ processRun)).length = 1 ∧
      ∀ frame ∈ trace next' handedFrames created (deliveredRun ++ processRun),
        frame.isValid = true := by
  intro next' created
  have before := exec_eq_final (guarded proper (next .host {})) ({} : Pipeline 32) creatingRun
    (by decide)
  have creates : guarded proper (next .host {})
      (final (guarded proper (next .host {})) ({} : Pipeline 32) creatingRun)
      (.source (.call true)) = some created :=
    next_eq_final (guarded proper (next .host {})) _ (.source (.call true)) (by decide)
  have run := exec_eq_final next' created (deliveredRun ++ processRun) (by decide)
  refine ⟨by decide, ?_⟩
  intro frame mem
  exact ((frames_to_processor (by decide) before ⟨⟨_, rfl⟩, creates⟩ run).2.2.1 frame mem).1

end CanBusSource.Pipeline

end CanTelemetry
