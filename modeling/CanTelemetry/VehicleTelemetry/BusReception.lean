import CanTelemetry.CanBus.FrameOrder
import CanTelemetry.VehicleTelemetry.BusOwnership

/-! The runtime over the CAN bus with the worker's receive() on it as well. The worker is in
the source's receive() while the bus works, and goes on with what the adapter makes of the
bus's result. What statistics() answers stays part of the schedule. Seen from the bus, the
runtime is one caller that keeps the bus's contract: its start() and stop() come one after
the other, and no receive() overlaps a start(), since the worker is there only between
them. -/

namespace CanTelemetry.CanBusSource

open Execution Threads VehicleCore

variable {w : ℕ}

/-! ### The adapter's receive() -/

/-- `CanBusSource::receive` -/
def mapReceiveResult : CanBus.Result → VehicleTelemetry.ReceiveStatus
  | .ok => .frame
  | .timeout => .timeout
  | .notStarted => .notStarted
  | .stopping | .faulted | .driverFailure | .taskFailure | .invalidConfiguration
  | .alreadyStarted => .fault

/-- The worker's call of receive() on the bus. -/
inductive Reception
  | waiting
  | returned (value : CanBus.Result × Option RawCanFrame)
  deriving DecidableEq

structure Pipeline (w : ℕ) extends System w where
  reception : Option Reception := none

/-- A step of the runtime and its start() and stop() on the bus, the worker's entry into
receive(), or a step in there. -/
inductive Pipeline.Choice
  | source (k : CanBusSource.Choice)
  | enterReceive (i : ℕ)
  | receive (granted : Bool)
  deriving DecidableEq

namespace Pipeline

/-- The worker goes on after its call of receive(). -/
def takes (s : Pipeline w) : VehicleTelemetry.Choice → Bool
  | .worker i _ => s.runtime.workers[i]?.any (·.2 = .receive)
  | _ => false

/-- What receive() of the source answers is what the bus has returned. A frame that the bus
has not written is as the worker has initialized it. -/
def received (s : Pipeline w) : VehicleTelemetry.Choice → Bool
  | .worker i answers => match s.runtime.workers[i]? with
    | some (_, .receive) => match s.reception with
      | some (.returned value) =>
        answers.received = mapReceiveResult value.1 && answers.frame = value.2.getD {}
      | _ => false
    | _ => true
  | _ => true

def next (platform : VehicleTelemetry.Platform) (configuration : CanBus.Configuration)
    (s : Pipeline w) : Choice → Option (Pipeline w)
  | .source (.runtime k) =>
    if s.received k then
      (s.toSystem.next platform configuration (.runtime k)).map fun system =>
        { s with toSystem := system, reception := if s.takes k then none else s.reception }
    else none
  | .source k => (s.toSystem.next platform configuration k).map fun system =>
    { s with toSystem := system }
  | .enterReceive i =>
    if s.runtime.workers[i]?.any (fun p => p.2 = .receive && !s.runtime.occupied p.1) ∧
        s.reception = none then
      (s.bus.next (.beginReceive s.runtime.shared.config.receiveTimeoutMs)).map fun bus =>
        { s with bus := bus, reception := some .waiting }
    else none
  | .receive granted => s.bus.consumer.bind fun pc =>
    (pc.step s.bus.shared granted).map fun (shared, control) =>
      { s with
        bus := { s.bus with shared := shared, consumer := control.pc? }
        reception := some ((control.value?.map .returned).getD .waiting) }

variable {platform : VehicleTelemetry.Platform} {configuration : CanBus.Configuration}
  {s t : Pipeline w}

theorem next_source_runtime {k : VehicleTelemetry.Choice}
    (step : s.next platform configuration (.source (.runtime k)) = some t) :
    s.received k = true ∧ ∃ system,
      s.toSystem.next platform configuration (.runtime k) = some system ∧
      t = { s with toSystem := system, reception := if s.takes k then none else s.reception } := by
  obtain ⟨received, step⟩ := Option.ite_none_right_eq_some.mp step
  obtain ⟨system, inner, rfl⟩ := Option.map_eq_some_iff.mp step
  exact ⟨received, system, inner, rfl⟩

theorem next_source {k : CanBusSource.Choice} (other : ∀ k', k ≠ .runtime k')
    (step : s.next platform configuration (.source k) = some t) :
    ∃ system, s.toSystem.next platform configuration k = some system ∧
      t = { s with toSystem := system } := by
  cases k with
  | runtime k => exact absurd rfl (other k)
  | _ =>
    obtain ⟨system, inner, rfl⟩ := Option.map_eq_some_iff.mp step
    exact ⟨system, inner, rfl⟩

theorem next_enterReceive {i : ℕ} (step : s.next platform configuration (.enterReceive i) = some t) :
    s.reception = none ∧ s.bus.consumer = none ∧ (∃ id, s.runtime.workers[i]? = some (id, .receive) ∧
      s.runtime.occupied id = false) ∧
      t = { s with
        bus := { s.bus with
          consumer := some (.checkState s.runtime.shared.config.receiveTimeoutMs) }
        reception := some .waiting } := by
  obtain ⟨⟨at_receive, free⟩, step⟩ := Option.ite_none_right_eq_some.mp step
  obtain ⟨bus, begins, rfl⟩ := Option.map_eq_some_iff.mp step
  obtain ⟨idle, begins⟩ := Option.ite_none_right_eq_some.mp begins
  obtain rfl := Option.some.inj begins
  obtain ⟨⟨id, pc⟩, found, at_receive⟩ := (Option.any_eq_true _ _).mp at_receive
  simp only [Bool.and_eq_true, decide_eq_true_eq, Bool.not_eq_true'] at at_receive
  obtain ⟨rfl, unoccupied⟩ := at_receive
  exact ⟨free, Option.isNone_iff_eq_none.mp idle, ⟨id, found, unoccupied⟩, rfl⟩

theorem next_receive {granted : Bool}
    (step : s.next platform configuration (.receive granted) = some t) :
    ∃ pc shared control, s.bus.consumer = some pc ∧
      pc.step s.bus.shared granted = some (shared, control) ∧
      t = { s with
        bus := { s.bus with shared := shared, consumer := control.pc? }
        reception := some ((control.value?.map .returned).getD .waiting) } := by
  obtain ⟨pc, found, step⟩ := Option.bind_eq_some_iff.mp step
  obtain ⟨⟨shared, control⟩, inner, rfl⟩ := Option.map_eq_some_iff.mp step
  exact ⟨pc, shared, control, found, inner, rfl⟩

/-- A worker that goes on after receive() has what the bus has returned. -/
theorem received_takes {k : VehicleTelemetry.Choice} (received : s.received k = true)
    (takes : s.takes k = true) :
    ∃ i answers id value, k = .worker i answers ∧ s.runtime.workers[i]? = some (id, .receive) ∧
      s.reception = some (.returned value) ∧ answers.received = mapReceiveResult value.1 ∧
      answers.frame = value.2.getD {} := by
  cases k with
  | worker i answers =>
    obtain ⟨⟨id, pc⟩, found, at_receive⟩ := (Option.any_eq_true _ _).mp takes
    obtain rfl := of_decide_eq_true at_receive
    simp only [Pipeline.received, found] at received
    split at received
    · rename_i value present
      simp only [Bool.and_eq_true, decide_eq_true_eq] at received
      exact ⟨i, answers, id, value, rfl, found, present, received⟩
    · cases received
  | _ => cases takes

/-! ### The bus inside -/

/-- The bus with the calls that the runtime makes on it. -/
def busView (s : Pipeline w) : CanBus.System w :=
  { s.bus with calls := (s.call.bind Call.pc?).toList }

def busMoves (configuration : CanBus.Configuration) (s : Pipeline w) :
    Choice → List CanBus.Choice
  | .source (.runtime _) => []
  | .source (.enter i) =>
    match s.runtime.calls[i]?.bind fun p => request (w := w) configuration p.2 with
    | some (.start c _) => [.beginStart c]
    | some (.stop _) => [.beginStop]
    | none => []
  | .source (.call ok) => [.call 0 ok]
  | .source (.bus k) => [k]
  | .enterReceive _ => [.beginReceive s.runtime.shared.config.receiveTimeoutMs]
  | .receive granted => [.consumer granted]

/-- Nobody but the runtime and its worker uses the bus, and no stop() of it takes an earlier
task's token. -/
def proper (s : Pipeline w) : Choice → Bool
  | .source (.bus (.task _ _)) | .source (.bus (.beginStatistics _))
  | .source (.bus (.observer _ _)) | .source (.bus .busOff) => true
  | .source (.bus _) => false
  | .source (.call ok) => s.busView.ownToken (.call 0 ok)
  | _ => true

/-- What holds in every run of the pipeline. -/
structure Linked (platform : VehicleTelemetry.Platform) (s : Pipeline w) : Prop where
  governed : s.runtime.Governed platform
  retained : s.toSystem.Retained
  worker : s.reception ≠ none → ∃ id, s.runtime.workers = [(id, .receive)]
  consumer : s.reception ≠ some .waiting → s.bus.consumer = none
  bus : s.busView.Apart

/-- While the runtime's start() is at the bus, it has no worker. -/
theorem Linked.workers_nil (h : s.Linked platform) {c : CanBus.Configuration}
    {pc : CanBus.StartPc w} (starting : s.call = some (.inside (.start c pc))) :
    s.runtime.workers = [] := by
  cases h.retained.held with
  | free idle rest =>
    rw [starting] at rest
    cases rest.1
  | taken before after p split before_idle after_idle operating stands =>
    obtain ⟨caller, at_pc⟩ := p
    have member : (caller, at_pc) ∈ s.runtime.calls := by simp [split]
    rw [starting] at stands
    cases stands with
    | starting free retries starts =>
      exact (h.governed.fact member operating (by simp)).2.1.none_alive
    | stopping kind retry within owned retries stops => cases stops

theorem Linked.not_starting (h : s.Linked platform) {w' : ℕ × VehicleTelemetry.WorkerPc}
    (alive : w' ∈ s.runtime.workers) {pc : CanBus.CallPc w} (mem : pc ∈ s.busView.calls) :
    ∃ stop, pc = .stop stop := by
  cases pc with
  | stop pc => exact ⟨pc, rfl⟩
  | start c pc =>
    exfalso
    have starting : s.call = some (.inside (.start c pc)) := by
      obtain ⟨call, present, within⟩ := Option.bind_eq_some_iff.mp (Option.mem_toList.mp mem)
      cases call with
      | inside pc' =>
        obtain rfl := Option.some.inj within
        exact present
      | returned result => cases within
    rw [h.workers_nil starting] at alive
    cases alive

theorem Linked.initial : ({} : Pipeline w).Linked platform where
  governed := .initial platform
  retained := by
    have start : exec (guarded System.soleUser (System.next platform {})) ({} : System w) [] =
      some {} := rfl
    exact (System.retained_of_run start).2
  worker := by simp
  consumer := fun _ => rfl
  bus := CanBus.System.exec_apart (exec_nil _)

/-- The worker in receive() goes on, or it stays there. -/
theorem Linked.runtime (h : s.Linked platform) {k : VehicleTelemetry.Choice}
    (step : s.next platform configuration (.source (.runtime k)) = some t) :
    t.Linked platform ∧ t.busView = s.busView := by
  obtain ⟨received, system, inner, rfl⟩ := next_source_runtime step
  have governed := System.next_governed h.governed inner
  have retained := h.retained.next h.governed rfl inner
  obtain ⟨answered, runtime, moved, rfl⟩ := System.next_runtime inner
  have calls : ((if s.resumes k then none else s.call).bind Call.pc?) = s.call.bind Call.pc? := by
    split_ifs with resumes
    · cases k with
      | call i answers =>
        obtain ⟨⟨caller, pc⟩, found, within⟩ := (Option.any_eq_true _ _).mp resumes
        obtain ⟨result, returned, -⟩ := System.answered_inSource answered found within
        rw [returned]
        rfl
      | _ => cases resumes
    · rfl
  have view : ({ s with
      runtime := runtime
      call := if s.resumes k then none else s.call
      reception := if s.takes k then none else s.reception } : Pipeline w).busView = s.busView := by
    simp only [busView, calls]
  refine ⟨⟨governed, retained, ?_, ?_, ?_⟩, view⟩
  · intro waits
    have stays : s.takes k = false := by
      by_contra takes
      rw [eq_true_of_ne_false takes] at waits
      exact waits rfl
    simp only [stays] at waits
    obtain ⟨id, only⟩ := h.worker waits
    refine ⟨id, ?_⟩
    show runtime.workers = _
    cases k with
    | worker i answers =>
      obtain ⟨id', pc, found, -, -⟩ := VehicleTelemetry.System.next_worker moved
      obtain ⟨alone, -⟩ := h.governed.worker_alone found
      have same : (id', pc) = (id, .receive) := List.singleton_inj.mp (alone.symm.trans only)
      obtain ⟨rfl, rfl⟩ := Prod.mk.inj same
      simp [takes, found] at stays
    | call i answers =>
      obtain ⟨caller, pc, shared, control, found, inside, rfl⟩ :=
        VehicleTelemetry.System.next_call moved
      have quiet : pc.spawned s.runtime.created answers = [] := by
        by_contra spawns
        have created : s.runtime.created + (pc.spawned s.runtime.created answers).length ≠
            s.runtime.created := by
          have := List.length_pos_iff.mpr spawns
          omega
        have none := (h.governed.creates moved created).1
        rw [only] at none
        cases none
      simp only [quiet, List.append_nil, only]
    | begin caller operation =>
      obtain ⟨-, rfl⟩ := VehicleTelemetry.System.next_begin moved
      exact only
    | beginDestroy caller =>
      obtain ⟨-, -, -, rfl⟩ := VehicleTelemetry.System.next_beginDestroy moved
      exact only
    | beginDiagnostics caller =>
      obtain ⟨-, rfl⟩ := VehicleTelemetry.System.next_beginDiagnostics moved
      exact only
    | reader i answers =>
      obtain ⟨caller, pc, found, rfl⟩ := VehicleTelemetry.System.next_reader moved
      exact only
  · intro other
    refine h.consumer ?_
    intro waiting
    cases takes : s.takes k with
    | false =>
      simp only [takes] at other
      exact other waiting
    | true =>
      -- the worker does not go on before the bus has returned
      obtain ⟨-, -, -, value, -, -, present, -⟩ := received_takes received takes
      cases present.symm.trans waiting
  · rw [view]
    exact h.bus

/-- A step of the bus that leaves its calls alone does so with any calls. -/
theorem next_with_calls {bus bus' : CanBus.System w} {k : CanBus.Choice}
    (calls : List (CanBus.CallPc w)) (other : ∀ i ok, k ≠ .call i ok)
    (starts : ∀ c, k ≠ .beginStart c) (stops : k ≠ .beginStop) (step : bus.next k = some bus') :
    CanBus.System.next { bus with calls := calls } k = some { bus' with calls := calls } := by
  cases k with
  | beginStart c => exact absurd rfl (starts c)
  | beginStop => exact absurd rfl stops
  | call i ok => exact absurd rfl (other i ok)
  | task i env =>
    obtain ⟨pc, shared, control, found, inside, rfl⟩ := CanBus.System.next_task step
    simp only [CanBus.System.next, found, Option.bind_some, inside, Option.map_some]
  | beginReceive timeoutMs =>
    obtain ⟨free, begins⟩ := Option.ite_none_right_eq_some.mp step
    obtain rfl := Option.some.inj begins
    exact if_pos free
  | consumer granted =>
    obtain ⟨pc, shared, control, found, inside, rfl⟩ := CanBus.System.next_consumer step
    simp only [CanBus.System.next, found, Option.bind_some, inside, Option.map_some]
  | beginStatistics operation =>
    obtain rfl := Option.some.inj step
    rfl
  | observer i cas =>
    obtain ⟨operation, pc, found, rfl⟩ := CanBus.System.next_observer step
    simp only [CanBus.System.next, found, Option.map_some]
  | busOff =>
    obtain ⟨running, rfl⟩ := CanBus.System.next_busOff step
    exact if_pos running

/-- Every step of the pipeline is a step of the bus that keeps its contract, or none. -/
theorem Linked.step_bus (h : s.Linked platform) {k : Choice} (allowed : s.proper k = true)
    (step : s.next platform configuration k = some t) :
    exec (guarded CanBus.System.apart CanBus.System.next) s.busView (s.busMoves configuration k) =
      some t.busView := by
  have one {k' : CanBus.Choice} (within : s.busView.apart k' = true)
      (moved : s.busView.next k' = some t.busView) :
      exec (guarded CanBus.System.apart CanBus.System.next) s.busView [k'] = some t.busView :=
    exec_single (guarded_eq_some.mpr ⟨within, moved⟩)
  cases k with
  | source k =>
    cases k with
    | runtime k =>
      rw [(h.runtime step).2]
      rfl
    | enter i =>
      obtain ⟨system, inner, rfl⟩ := next_source (by simp) step
      obtain ⟨free, caller, pc, entry, found, asks, rfl⟩ := System.next_enter inner
      have idle : s.busView.calls = [] := by simp [busView, free]
      simp only [busMoves, found, Option.bind_some, asks]
      rcases request_eq_some asks with ⟨-, rfl⟩ | ⟨-, rfl⟩
      · refine one (by simp [CanBus.System.apart, CanBus.System.serialized, CanBus.System.ownToken,
          idle]) ?_
        simp [CanBus.System.next, busView, free, Call.pc?]
      · refine one (by simp [CanBus.System.apart, CanBus.System.serialized, CanBus.System.ownToken,
          idle]) ?_
        simp [CanBus.System.next, busView, free, Call.pc?]
    | call ok =>
      obtain ⟨system, inner, rfl⟩ := next_source (by simp) step
      obtain ⟨pc, shared, control, present, inside, rfl⟩ := System.next_call inner
      have single : s.busView.calls = [pc] := by simp [busView, present, Call.pc?]
      refine one ?_ ?_
      · simp only [CanBus.System.apart, CanBus.System.serialized, Bool.true_and, Bool.and_eq_true]
        refine ⟨allowed, ?_⟩
        simp only [single, List.getElem?_cons_zero, Option.any_some, Bool.or_eq_true,
          Bool.not_eq_true']
        cases reserves : pc.reserves s.busView.shared.lifecycle with
        | false => exact .inl rfl
        | true =>
          right
          cases pc with
          | stop pc => cases reserves
          | start c pc =>
            have absent := h.workers_nil present
            have idle : s.reception = none := by
              by_contra waits
              obtain ⟨id, only⟩ := h.worker waits
              rw [absent] at only
              cases only
            have free := h.consumer (by simp [idle])
            show s.bus.consumer.isNone = true
            rw [free]
            rfl
      · have stepped : s.busView.next (.call 0 ok) = some { s.busView with
            shared := shared
            calls := resume [pc] 0 control
            tasks := s.bus.tasks ++ pc.created ok } := by
          simp only [CanBus.System.next, single, List.getElem?_cons_zero, Option.bind_some]
          rw [show s.busView.shared = s.bus.shared from rfl, inside]
          rfl
        rw [stepped]
        cases control <;> rfl
    | bus k =>
      obtain ⟨system, inner, rfl⟩ := next_source (by simp) step
      obtain ⟨bus, moved, rfl⟩ := System.next_bus inner
      refine one ?_ ?_
      · cases k <;> first | rfl | cases allowed
      · refine next_with_calls _ ?_ ?_ ?_ moved <;> (cases k <;> simp_all [proper])
  | enterReceive i =>
    obtain ⟨-, idle, ⟨id, found, -⟩, rfl⟩ := next_enterReceive step
    refine one ?_ ?_
    · simp only [CanBus.System.apart, CanBus.System.serialized, CanBus.System.ownToken,
        Bool.true_and, Bool.not_eq_true', List.any_eq_false]
      intro pc mem
      obtain ⟨stop, rfl⟩ := h.not_starting (List.mem_of_getElem? found) mem
      simp [CanBus.CallPc.preparing]
    · simp only [CanBus.System.next, busView, idle]
      rfl
  | receive granted =>
    obtain ⟨pc, shared, control, found, inside, rfl⟩ := next_receive step
    refine one rfl ?_
    simp only [CanBus.System.next, busView, found, Option.bind_some, inside, Option.map_some]

theorem Linked.next (h : s.Linked platform) {k : Choice} (allowed : s.proper k = true)
    (step : s.next platform configuration k = some t) : t.Linked platform := by
  have apart : t.busView.Apart := by
    refine exec_invariant (P := CanBus.System.Apart) ?_ (h.step_bus allowed step) h.bus
    intro s k t h step
    obtain ⟨allowed, step⟩ := guarded_eq_some.mp step
    exact h.next allowed step
  cases k with
  | source k =>
    cases k with
    | runtime k => exact (h.runtime step).1
    | enter i =>
      obtain ⟨system, inner, rfl⟩ := next_source (by simp) step
      have governed := System.next_governed h.governed inner
      have retained := h.retained.next h.governed rfl inner
      obtain ⟨-, caller, pc, entry, -, -, rfl⟩ := System.next_enter inner
      exact ⟨governed, retained, h.worker, h.consumer, apart⟩
    | call ok =>
      obtain ⟨system, inner, rfl⟩ := next_source (by simp) step
      have governed := System.next_governed h.governed inner
      have retained := h.retained.next h.governed rfl inner
      obtain ⟨pc, shared, control, -, -, rfl⟩ := System.next_call inner
      exact ⟨governed, retained, h.worker, h.consumer, apart⟩
    | bus k =>
      obtain ⟨system, inner, rfl⟩ := next_source (by simp) step
      have sole : s.toSystem.soleUser (.bus k) = true := by
        cases k <;> first | rfl | cases allowed
      have governed := System.next_governed h.governed inner
      have retained := h.retained.next h.governed sole inner
      obtain ⟨bus, moved, rfl⟩ := System.next_bus inner
      have consumer : bus.consumer = s.bus.consumer := by
        cases k with
        | task i env =>
          obtain ⟨pc, shared, control, -, -, rfl⟩ := CanBus.System.next_task moved
          rfl
        | beginStatistics | observer | busOff =>
          obtain ⟨frames, driver, observers, -, rfl⟩ := CanBus.System.next_beside rfl moved
          rfl
        | _ => cases allowed
      exact ⟨governed, retained, h.worker, fun other => consumer.trans (h.consumer other), apart⟩
  | enterReceive i =>
    obtain ⟨-, idle, ⟨id, found, -⟩, rfl⟩ := next_enterReceive step
    exact ⟨h.governed, ⟨h.retained.sound, h.retained.alone, h.retained.held⟩,
      fun _ => ⟨id, (h.governed.worker_alone found).1⟩, fun other => absurd rfl other, apart⟩
  | receive granted =>
    obtain ⟨pc, shared, control, found, inside, rfl⟩ := next_receive step
    have waiting : s.reception = some .waiting := by
      by_contra other
      have free := h.consumer other
      rw [found] at free
      cases free
    have same := CanBus.ReceivePc.step_lifecycle inside
    have retained : ({ s.toSystem with
        bus := { s.bus with shared := shared, consumer := control.pc? } } : System w).Retained := by
      obtain ⟨sound, alone, held⟩ := h.retained
      rw [← same] at sound held
      exact ⟨sound, alone, held⟩
    refine ⟨h.governed, retained, fun _ => h.worker (by simp [waiting]), ?_, apart⟩
    intro other
    cases control with
    | next pc' => exact absurd rfl other
    | ret value => rfl

end Pipeline

end CanTelemetry.CanBusSource
