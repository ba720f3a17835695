import CanTelemetry.CanBus.FrameOrder
import CanTelemetry.CanBus.Wakeup

/-! How an acquisition fails. As long as no driver call of the receive task has failed and no
bus-off has been reported, the task is in its loop and the bus is Running, whatever the
callers of receive() and start() do. The first failure is the last: the task latches it, and
reads and queues nothing any more. -/

namespace CanTelemetry.CanBus

open Execution Threads VehicleCore

variable {w : ℕ}

/-! ### One step of the task -/

/-- The driver call of the step fails, or its alerts show bus-off. -/
def TaskPc.fails (env : TaskEnv) : TaskPc w → Bool
  | .receive => env.received = .failed
  | .readStatus => env.status = none
  | .readAlerts => env.alerts = .failed ∨ env.alerts = .alerts true
  | _ => false

/-- On the way into `latch_terminal_fault`, or inside it. -/
def TaskPc.latching : TaskPc w → Bool
  | .recordBusOff | .latch _ => true
  | _ => false

def TaskPc.looping : TaskPc w → Bool
  | .recordBusOff | .latch _ | .acknowledge | .giveStopped | .delete => false
  | _ => true

theorem TaskPc.live_of_looping {pc : TaskPc w} (loops : pc.looping = true) : pc.live = true := by
  cases pc <;> first | rfl | cases loops

/-- A task that is asked for goes round its loop until a call fails. -/
theorem TaskPc.step_looping {sh sh' : Shared w} {env : TaskEnv} {pc : TaskPc w}
    {control : Control (TaskPc w) Unit} (loops : pc.looping = true)
    (requested : sh.receiveRequested = true) (step : pc.step env sh = some (sh', control)) :
    sh'.lifecycle = sh.lifecycle ∧ sh'.receiveRequested = true ∧
      ∃ pc', control = .next pc' ∧
        (pc.fails env = false ∧ pc'.looping = true ∨
          pc.fails env = true ∧ pc'.latching = true ∧ pc'.looping = false) := by
  cases pc with
  | loopTest =>
    obtain ⟨rfl, rfl⟩ := Prod.mk.inj (Option.some.inj step)
    refine ⟨rfl, requested, _, rfl, .inl ⟨rfl, ?_⟩⟩
    rw [if_pos requested]
    rfl
  | receive =>
    obtain ⟨rfl, rfl⟩ := Prod.mk.inj (Option.some.inj step)
    refine ⟨rfl, requested, _, rfl, ?_⟩
    cases received : env.received <;> simp [fails, received, looping, latching]
  | stamp message =>
    obtain ⟨rfl, rfl⟩ := Prod.mk.inj (Option.some.inj step)
    refine ⟨rfl, requested, _, rfl, .inl ⟨rfl, ?_⟩⟩
    cases (message.frame env.time sh.busId).isValid <;> rfl
  | push pc =>
    obtain ⟨rfl, rfl⟩ := Prod.mk.inj (Option.some.inj step)
    refine ⟨rfl, requested, ?_⟩
    cases (pc.step sh.frames env.cas).2 with
    | next pc => exact ⟨_, rfl, .inl ⟨rfl, rfl⟩⟩
    | ret accepted =>
      refine ⟨_, rfl, .inl ⟨rfl, ?_⟩⟩
      cases accepted <;> rfl
  | giveAvailable =>
    obtain ⟨s, -, same⟩ := Option.map_eq_some_iff.mp step
    obtain ⟨rfl, rfl⟩ := Prod.mk.inj same
    exact ⟨rfl, requested, _, rfl, .inl ⟨rfl, rfl⟩⟩
  | readStatus =>
    obtain ⟨rfl, rfl⟩ := Prod.mk.inj (Option.some.inj step)
    refine ⟨rfl, requested, _, rfl, ?_⟩
    cases status : env.status <;> simp [fails, status, looping, latching]
  | readAlerts =>
    obtain ⟨rfl, rfl⟩ := Prod.mk.inj (Option.some.inj step)
    refine ⟨rfl, requested, _, rfl, ?_⟩
    cases alerts : env.alerts with
    | alerts busOff => cases busOff <;> simp [fails, alerts, looping, latching]
    | _ => simp [fails, alerts, looping, latching]
  | recordInvalid | recordBusErrors | recordMissed | storeLast =>
    obtain ⟨rfl, rfl⟩ := Prod.mk.inj (Option.some.inj step)
    exact ⟨rfl, requested, _, rfl, .inl ⟨rfl, rfl⟩⟩
  | _ => cases loops

/-- Out of its loop the task does not come back, and a latch that is complete has been made. -/
theorem TaskPc.step_leaving {sh sh' : Shared w} {env : TaskEnv} {pc : TaskPc w}
    {control : Control (TaskPc w) Unit} (left : pc.looping = false)
    (active : sh.lifecycle.state = .running ∨ sh.lifecycle.state = .faulted)
    (wakes : pc = .latch .wake → sh.lifecycle.state = .faulted)
    (step : pc.step env sh = some (sh', control)) :
    (∀ pc' ∈ control.live, pc'.looping = false) ∧
      (sh.lifecycle.state = .faulted → sh'.lifecycle.state = .faulted) ∧
      (pc.latching = true → sh'.lifecycle.state = .faulted ∨
        ∃ pc', control = .next pc' ∧ pc'.latching = true) := by
  cases pc with
  | latch pc =>
    obtain ⟨⟨sh'', inner⟩, inside, same⟩ := Option.map_eq_some_iff.mp step
    obtain ⟨rfl, rfl⟩ := Prod.mk.inj same
    refine ⟨by cases inner <;> simp [looping], ?_⟩
    cases pc with
    | unrequest =>
      obtain ⟨rfl, rfl⟩ := Prod.mk.inj (Option.some.inj inside)
      exact ⟨id, fun _ => .inr ⟨_, rfl, rfl⟩⟩
    | wake =>
      obtain ⟨s, -, same⟩ := Option.map_eq_some_iff.mp inside
      obtain ⟨rfl, rfl⟩ := Prod.mk.inj same
      exact ⟨id, fun _ => .inl (wakes rfl)⟩
    | latch pc =>
      obtain ⟨rfl, rfl⟩ := Prod.mk.inj (Option.some.inj inside)
      rcases pc.step_cases sh.lifecycle env.cas with looked | ⟨-, latched⟩
      · rw [looked]
        refine ⟨id, fun _ => ?_⟩
        rcases active with running | faulted
        · rw [running]
          exact .inr ⟨_, rfl, rfl⟩
        · exact .inl faulted
      · rw [latched]
        exact ⟨fun _ => rfl, fun _ => .inl rfl⟩
  | recordBusOff =>
    obtain ⟨rfl, rfl⟩ := Prod.mk.inj (Option.some.inj step)
    exact ⟨by simp [looping], id, fun _ => .inr ⟨_, rfl, rfl⟩⟩
  | acknowledge =>
    obtain ⟨rfl, rfl⟩ := Prod.mk.inj (Option.some.inj step)
    exact ⟨by simp [looping], id, by simp [latching]⟩
  | giveStopped =>
    obtain ⟨s, -, same⟩ := Option.map_eq_some_iff.mp step
    obtain ⟨rfl, rfl⟩ := Prod.mk.inj same
    exact ⟨by simp [looping], id, by simp [latching]⟩
  | delete =>
    obtain ⟨rfl, rfl⟩ := Prod.mk.inj (Option.some.inj step)
    exact ⟨by simp [looping], id, by simp [latching]⟩
  | _ => cases left

/-- A task that has given up the ownership leaves the request alone. -/
theorem TaskPc.step_dead_requested {pc : TaskPc w} {env : TaskEnv} {sh sh' : Shared w}
    {control : Control (TaskPc w) Unit} (dead : pc.live = false)
    (step : pc.step env sh = some (sh', control)) : sh'.receiveRequested = sh.receiveRequested := by
  cases pc with
  | giveStopped =>
    obtain ⟨token, -, same⟩ := Option.map_eq_some_iff.mp step
    obtain ⟨rfl, -⟩ := Prod.mk.inj same
    rfl
  | delete =>
    obtain ⟨rfl, -⟩ := Prod.mk.inj (Option.some.inj step)
    rfl
  | _ => cases dead

/-! ### The request of the task -/

/-- The points of a start() that has asked for the task and not created it. -/
def StartPc.asking : StartPc w → Bool
  | .markTask | .createTask => true
  | _ => false

theorem StartPc.preparing_of_asking {pc : StartPc w} (asks : pc.asking = true) :
    pc.preparing = true := by
  cases pc <;> first | rfl | cases asks

theorem StartPc.step_asking {configuration : Configuration} {sh sh' : Shared w} {ok : Bool}
    {pc pc' : StartPc w} (h : pc.asking = true → sh.receiveRequested = true)
    (step : pc.step configuration sh ok = some (sh', .next pc')) (asks : pc'.asking = true) :
    sh'.receiveRequested = true := by
  cases pc with
  | request =>
    obtain ⟨rfl, -⟩ := Prod.mk.inj (Option.some.inj step)
    rfl
  | markTask =>
    obtain ⟨rfl, -⟩ := Prod.mk.inj (Option.some.inj step)
    exact h rfl
  | createTask =>
    obtain ⟨-, same⟩ := Prod.mk.inj (Option.some.inj step)
    obtain rfl := Control.next.inj same
    cases ok <;> cases asks
  | beginStart =>
    simp only [StartPc.step] at step
    split at step
    · cases (Prod.mk.inj (Option.some.inj step)).2
    · obtain rfl := Control.next.inj (Prod.mk.inj (Option.some.inj step)).2
      split at asks <;> cases asks
  | createTaskStopped =>
    have other (sh : Shared w) : sh.afterCreation.asking = false := by
      unfold Shared.afterCreation
      split <;> rfl
    obtain rfl := Control.next.inj (Prod.mk.inj (Option.some.inj step)).2
    exact absurd asks (by simp [other])
  | drainAvailable | drainTaskStopped =>
    rcases takeNow_eq_some step with ⟨s, s', -, -, same⟩ | ⟨s, -, -, same⟩ <;>
      obtain rfl := Control.next.inj (Prod.mk.inj same).2 <;> cases asks
  | driverInstall | driverStart | driverStop | driverUninstall =>
    cases ok <;> obtain rfl := Control.next.inj (Prod.mk.inj (Option.some.inj step)).2 <;>
      cases asks
  | abort pc result | reconcile pc result =>
    have same := (Prod.mk.inj (Option.some.inj step)).2
    generalize (pc.step sh.lifecycle).2 = control at same
    cases control <;> cases same
    cases asks
  | clear pc =>
    have same := (Prod.mk.inj (Option.some.inj step)).2
    generalize (pc.step sh.frames ok).2 = control at same
    cases control <;> cases same <;> cases asks
  | beginStop pc =>
    have same := (Prod.mk.inj (Option.some.inj step)).2
    generalize (pc.step sh.lifecycle ok).2 = control at same
    cases control <;> cases same <;> cases asks
  | refused | setStartedBefore => cases (Prod.mk.inj (Option.some.inj step)).2
  | _ =>
    obtain rfl := Control.next.inj (Prod.mk.inj (Option.some.inj step)).2
    cases asks

/-- receive() leaves the request alone. -/
theorem ReceivePc.step_requested {sh sh' : Shared w} {granted : Bool} {pc : ReceivePc w}
    {control : Control (ReceivePc w) (Result × Option RawCanFrame)}
    (step : pc.step sh granted = some (sh', control)) :
    sh'.receiveRequested = sh.receiveRequested := by
  cases pc with
  | take timeoutMs =>
    simp only [ReceivePc.step] at step
    split at step
    · rcases takeNow_eq_some step with ⟨s, s', -, -, same⟩ | ⟨s, -, -, same⟩ <;>
        obtain ⟨rfl, -⟩ := Prod.mk.inj same <;> rfl
    · rcases takeWithin_eq_some step with ⟨s, s', -, -, -, same⟩ | ⟨-, same⟩ <;>
        obtain ⟨rfl, -⟩ := Prod.mk.inj same <;> rfl
  | _ =>
    obtain ⟨rfl, -⟩ := Prod.mk.inj (Option.some.inj step)
    rfl

/-- Within a run no call of start() takes the request back. -/
theorem CallPc.step_requested {pc : CallPc w} {sh sh' : Shared w} {ok : Bool}
    {control : Control (CallPc w) Result}
    (within : pc.passive = true ∨ ∃ c, pc = .start c .setStartedBefore)
    (step : pc.step sh ok = some (sh', control)) : sh'.receiveRequested = sh.receiveRequested := by
  rcases within with passive | ⟨c, rfl⟩
  · cases pc with
    | stop pc => cases passive
    | start c pc =>
      obtain ⟨inner, inside, rfl⟩ := CallPc.step_start step
      cases pc with
      | beginStart =>
        simp only [StartPc.step] at inside
        split at inside <;> obtain ⟨rfl, -⟩ := Prod.mk.inj (Option.some.inj inside) <;> rfl
      | refused =>
        obtain ⟨rfl, -⟩ := Prod.mk.inj (Option.some.inj inside)
        rfl
      | _ => cases passive
  · obtain ⟨inner, inside, rfl⟩ := CallPc.step_start step
    obtain ⟨rfl, -⟩ := Prod.mk.inj (Option.some.inj inside)
    rfl

namespace System

variable {s t : System w} {k : Choice} {ks ls : List Choice} {failed : List TaskEnv}

/-- A start() has asked for the task that it is about to create. -/
structure Asking (s : System w) : Prop where
  reserved : s.Reserved
  requested : ∀ c pc, .start c pc ∈ s.calls → pc.asking = true → s.shared.receiveRequested = true

theorem Asking.call (h : s.Asking) {i : ℕ} {ok : Bool} (allowed : s.oneTask (.call i ok) = true)
    (step : s.next (.call i ok) = some t) : t.Asking := by
  have reserved := h.reserved.call allowed step
  obtain ⟨pc, -, -, hpc, -, -⟩ := next_call step
  have member := List.mem_of_getElem? hpc
  obtain ⟨single, -⟩ := h.reserved.outlined.outline member
  obtain ⟨shared, control, hstep, rfl⟩ := next_call_single single step
  refine ⟨reserved, ?_⟩
  intro c pc' hpc' asks
  cases control with
  | ret result => cases hpc'
  | next after =>
    obtain rfl := List.mem_singleton.mp hpc'
    cases pc with
    | stop pc =>
      obtain ⟨inner, -, same⟩ := CallPc.step_stop hstep
      cases inner <;> cases same
    | start configuration pc =>
      obtain ⟨inner, inside, same⟩ := CallPc.step_start hstep
      cases inner with
      | ret result => cases same
      | next inner =>
        obtain ⟨rfl, rfl⟩ := CallPc.start.inj (Control.next.inj same)
        exact StartPc.step_asking (h.requested c pc member) inside asks

theorem Asking.next (h : s.Asking) (allowed : s.oneTask k = true) (step : s.next k = some t) :
    t.Asking := by
  have reserved := h.reserved.next allowed step
  cases k with
  | call i ok => exact h.call allowed step
  | beginStart configuration =>
    obtain rfl := Option.some.inj step
    refine ⟨reserved, ?_⟩
    intro c pc hpc asks
    rcases List.mem_append.mp hpc with old | new
    · exact h.requested c pc old asks
    · obtain ⟨rfl, rfl⟩ := CallPc.start.inj (List.mem_singleton.mp new)
      cases asks
  | beginStop =>
    obtain rfl := Option.some.inj step
    refine ⟨reserved, ?_⟩
    intro c pc hpc asks
    rcases List.mem_append.mp hpc with old | new
    · exact h.requested c pc old asks
    · cases List.mem_singleton.mp new
  | task i env =>
    obtain ⟨pc, shared, control, hpc, hstep, rfl⟩ := next_task step
    refine ⟨reserved, ?_⟩
    intro c call mem asks
    obtain ⟨none, -⟩ := h.reserved.alone c call mem (StartPc.preparing_of_asking asks)
    obtain ⟨dead, -⟩ := TaskPc.step_among_dead none hpc hstep
    exact (TaskPc.step_dead_requested dead hstep).trans (h.requested c call mem asks)
  | beginReceive timeoutMs =>
    obtain ⟨-, step⟩ := Option.ite_none_right_eq_some.mp step
    obtain rfl := Option.some.inj step
    exact ⟨reserved, h.requested⟩
  | consumer granted =>
    obtain ⟨pc, shared, control, -, hstep, rfl⟩ := next_consumer step
    refine ⟨reserved, ?_⟩
    intro c call mem asks
    exact (ReceivePc.step_requested hstep).trans (h.requested c call mem asks)
  | beginStatistics | observer | busOff =>
    obtain ⟨frames, driver, observers, -, rfl⟩ := next_beside rfl step
    exact ⟨reserved, h.requested⟩

theorem exec_asking (run : exec (guarded oneTask next) ({} : System w) ks = some s) : s.Asking := by
  refine exec_invariant (P := Asking) ?_ run ⟨exec_reserved (exec_nil _), by simp⟩
  intro s k t h step
  obtain ⟨allowed, step⟩ := guarded_eq_some.mp step
  exact h.next allowed step

/-! ### The first failure and after it -/

/-- The answers that a step of the task takes for the end of the acquisition. -/
def failures (s : System w) : Choice → List TaskEnv
  | .task i env => match s.tasks[i]? with
    | some pc => if pc.fails env then [env] else []
    | none => []
  | _ => []

/-- A run with the failures so far. -/
structure Terminal (failed : List TaskEnv) (s : System w) : Prop where
  manned : s.Manned
  healthy : failed = [] → s.shared.lifecycle.state = .running ∧
    s.shared.receiveRequested = true ∧ ∃ pc ∈ s.tasks, pc.looping = true
  fallen : failed ≠ [] → failed.length = 1 ∧ (∀ pc ∈ s.tasks, pc.looping = false) ∧
    (s.shared.lifecycle.state = .faulted ∨ ∃ pc ∈ s.tasks, pc.latching = true)

theorem Terminal.task (h : s.Terminal failed) {i : ℕ} {env : TaskEnv}
    (step : s.next (.task i env) = some t) : t.Terminal (failed ++ s.failures (.task i env)) := by
  have manned := h.manned.task step
  obtain ⟨pc, shared, control, found, hstep, rfl⟩ := next_task step
  have member := List.mem_of_getElem? found
  have shown : s.failures (.task i env) = if pc.fails env then [env] else [] := by
    simp only [failures, found]
  cases loops : pc.looping with
  | true =>
    -- this is the task of the run, and nothing has failed so far
    have none : failed = [] := by
      by_contra some
      cases loops.symm.trans ((h.fallen some).2.1 pc member)
    obtain ⟨running, requested, -⟩ := h.healthy none
    obtain ⟨lifecycle, requested', pc', rfl, goesOn⟩ := TaskPc.step_looping loops requested hstep
    have own : pc' ∈ resume s.tasks i (.next pc' : Control (TaskPc w) Unit) :=
      mem_resume_live found (List.mem_singleton_self _)
    have alone (p : TaskPc w) (mem : p ∈ resume s.tasks i (.next pc' : Control (TaskPc w) Unit))
        (live : p.looping = true) : p = pc' :=
      List.mem_singleton.mp (mem_live_of_alone found h.manned.one (TaskPc.live_of_looping loops) mem
        (TaskPc.live_of_looping live))
    rw [shown, none, List.nil_append]
    rcases goesOn with ⟨fine, loops'⟩ | ⟨fails, latching, left⟩
    · rw [if_neg (by simp [fine])]
      refine ⟨manned, fun _ => ⟨?_, requested', pc', own, loops'⟩, fun some => absurd rfl some⟩
      exact (congrArg LifecycleController.state lifecycle).trans running
    · rw [if_pos fails]
      refine ⟨manned, fun none => (by cases none), fun _ => ⟨rfl, ?_, .inr ⟨pc', own, latching⟩⟩⟩
      intro p mem
      cases loops' : p.looping with
      | false => rfl
      | true =>
        obtain rfl := alone p mem loops'
        exact loops'.symm.trans left
  | false =>
    have quiet : pc.fails env = false := by cases pc <;> first | rfl | cases loops
    rw [shown, if_neg (by simp [quiet]), List.append_nil]
    have wakes : pc = .latch .wake → s.shared.lifecycle.state = .faulted := by
      rintro rfl
      exact h.manned.wakes member
    obtain ⟨left, stays, latches⟩ := TaskPc.step_leaving loops h.manned.active wakes hstep
    refine ⟨manned, ?_, ?_⟩
    · intro none
      obtain ⟨running, requested, p, mem, loops'⟩ := h.healthy none
      have other : p ≠ pc := by
        rintro rfl
        cases loops.symm.trans loops'
      have dead : pc.live = false := by
        by_contra alive
        have gone : p ∈ (.ret () : Control (TaskPc w) Unit).live :=
          mem_live_of_alone found h.manned.one (eq_true_of_ne_false alive)
            (mem_resume_of_ne _ found mem other) (TaskPc.live_of_looping loops')
        cases gone
      obtain ⟨-, -, lifecycle, -, -, -⟩ := TaskPc.step_dead dead hstep
      refine ⟨(congrArg LifecycleController.state lifecycle).trans running,
        (TaskPc.step_dead_requested dead hstep).trans requested, p, ?_, loops'⟩
      exact mem_resume_of_ne _ found mem other
    · intro some
      obtain ⟨one, fallen, latched⟩ := h.fallen some
      refine ⟨one, ?_, ?_⟩
      · intro p mem
        rcases mem_of_mem_resume found mem with old | own
        · exact fallen p old
        · exact left p own
      · rcases latched with faulted | ⟨p, mem, latching⟩
        · exact .inl (stays faulted)
        · by_cases same : p = pc
          · subst same
            rcases latches latching with faulted | ⟨pc', rfl, latching'⟩
            · exact .inl faulted
            · have own : pc' ∈ resume s.tasks i (.next pc' : Control (TaskPc w) Unit) :=
                mem_resume_live found (List.mem_singleton_self _)
              exact .inr ⟨pc', own, latching'⟩
          · exact .inr ⟨p, mem_resume_of_ne _ found mem same, latching⟩

theorem Terminal.next (h : s.Terminal failed) (within : s.unstopped k = true)
    (step : s.next k = some t) : t.Terminal (failed ++ s.failures k) := by
  have manned := h.manned.next within step
  have quiet (silent : s.failures k = []) (tasks : t.tasks = s.tasks)
      (lifecycle : t.shared.lifecycle = s.shared.lifecycle)
      (requested : t.shared.receiveRequested = s.shared.receiveRequested) :
      t.Terminal (failed ++ s.failures k) := by
    rw [silent, List.append_nil]
    refine ⟨manned, ?_, ?_⟩
    · rw [tasks, lifecycle, requested]
      exact h.healthy
    · rw [tasks, lifecycle]
      exact h.fallen
  cases k with
  | task i env => exact h.task step
  | beginStart c =>
    obtain rfl := Option.some.inj step
    exact quiet rfl rfl rfl rfl
  | beginStop => simp [unstopped] at within
  | call i ok =>
    obtain ⟨pc, shared, control, found, hstep, rfl⟩ := next_call step
    have active : s.shared.lifecycle.state ≠ .stopped := by
      rcases h.manned.active with state | state <;> simp [state]
    have passive := h.manned.calls pc (List.mem_of_getElem? found)
    obtain ⟨-, -, lifecycle, created, -⟩ := call_within active passive hstep
    exact quiet rfl (by rw [created, List.append_nil]) lifecycle
      (CallPc.step_requested passive hstep)
  | beginReceive timeoutMs =>
    obtain ⟨-, step⟩ := Option.ite_none_right_eq_some.mp step
    obtain rfl := Option.some.inj step
    exact quiet rfl rfl rfl rfl
  | consumer granted =>
    obtain ⟨pc, shared, control, -, hstep, rfl⟩ := next_consumer step
    exact quiet rfl rfl (ReceivePc.step_lifecycle hstep) (ReceivePc.step_requested hstep)
  | beginStatistics | observer | busOff =>
    obtain ⟨frames, driver, observers, -, rfl⟩ := next_beside rfl step
    exact quiet rfl rfl rfl rfl

/-- The task that start() creates finds the request for it. -/
theorem Asking.terminal (h : s.Asking) (provided : s.Provided) {c : Configuration}
    (creating : s.calls = [.start c .createTask]) (step : s.next (.call 0 true) = some t) :
    t.Terminal [] := by
  have manned := h.reserved.manned provided creating step
  have asks : s.shared.receiveRequested = true :=
    h.requested c .createTask (by rw [creating]; exact List.mem_singleton_self _) rfl
  obtain ⟨-, running⟩ := h.reserved.alone c .createTask (by simp [creating]) rfl
  obtain ⟨shared, control, hstep, rfl⟩ := next_call_single creating step
  obtain ⟨inner, inside, rfl⟩ := CallPc.step_start hstep
  obtain ⟨rfl, rfl⟩ := Prod.mk.inj (Option.some.inj inside)
  refine ⟨manned, fun _ => ⟨running, asks, .loopTest, ?_, rfl⟩, fun some => absurd rfl some⟩
  exact List.mem_append_right _ (List.mem_singleton_self _)

/-- Out of its loop a task reads no message and queues none. -/
theorem silent_of_left (left : ∀ pc ∈ s.tasks, pc.looping = false) (k : Choice) :
    s.driverMessages k = [] ∧ s.acceptedFrames k = [] := by
  cases k with
  | task i env =>
    simp only [driverMessages, acceptedFrames]
    cases found : s.tasks[i]? with
    | none => exact ⟨rfl, rfl⟩
    | some pc =>
      have out := left pc (List.mem_of_getElem? found)
      cases pc <;> first | exact ⟨rfl, rfl⟩ | cases out
  | _ => exact ⟨rfl, rfl⟩

/-- From the creation of its task by start() until a stop() begins, with one task at a time: at
most one step of the task meets a failed driver call or a bus-off alert. Before it the bus is
Running and the task in its loop. After it the bus is Faulted or the task about to latch the
fault, and no message is read and no frame queued any more. -/
theorem terminal_fault {c : Configuration} {first : System w}
    (before : exec (guarded oneTask next) ({} : System w) ks = some s)
    (creating : s.calls = [.start c .createTask]) (creates : s.next (.call 0 true) = some first)
    (run : exec (guarded unstopped next) first ls = some t) :
    let failed := trace (guarded unstopped next) failures first ls
    failed.length ≤ 1 ∧
      (failed = [] → t.shared.lifecycle.state = .running ∧ ∃ pc ∈ t.tasks, pc.looping = true) ∧
      (failed ≠ [] →
        (t.shared.lifecycle.state = .faulted ∨
          t.shared.lifecycle.state = .running ∧ ∃ pc ∈ t.tasks, pc.latching = true) ∧
        ∀ k, t.driverMessages k = [] ∧ t.acceptedFrames k = []) := by
  intro failed
  have provided : s.Provided := by
    refine exec_provided (exec_guarded_mono (fun s k allowed => ?_) before)
    simp only [oneTask, Bool.and_eq_true] at allowed
    exact allowed.1
  have terminal : t.Terminal failed := by
    refine exec_history (P := fun ls t =>
      t.Terminal (trace (guarded unstopped next) failures first ls))
      ((exec_asking before).terminal provided creating creates) ?_ run
    intro ls t k u run h step
    obtain ⟨within, moved⟩ := guarded_eq_some.mp step
    rw [trace_concat run]
    exact h.next within moved
  obtain ⟨manned, healthy, fallen⟩ := terminal
  refine ⟨?_, ?_, ?_⟩
  · by_cases none : failed = []
    · rw [none]
      exact Nat.zero_le _
    · exact (fallen none).1.le
  · intro none
    obtain ⟨running, -, loops⟩ := healthy none
    exact ⟨running, loops⟩
  · intro some
    obtain ⟨-, left, latched⟩ := fallen some
    refine ⟨?_, silent_of_left left⟩
    rcases latched with faulted | latching
    · exact .inl faulted
    · exact manned.active.symm.imp_right fun running => ⟨running, latching⟩

theorem terminal_fault_blocked :
    let t := final (guarded unstopped next) (final next creating [.call 0 true]) blockedFaultRun
    (trace (guarded unstopped next) failures (final next creating [.call 0 true])
        blockedFaultRun).length = 1 ∧ t.shared.lifecycle.state = .faulted := by
  intro t
  have before := exec_eq_final (guarded oneTask next) ({} : System 32) creatingRun (by decide)
  have atCreation : ∃ c, creating.calls = [.start c .createTask] := ⟨_, rfl⟩
  obtain ⟨c, atCreation⟩ := atCreation
  have creates := next_eq_final next creating (.call 0 true) (by decide)
  have run := exec_eq_final (guarded unstopped next) (final next creating [.call 0 true])
    blockedFaultRun (by decide)
  have one : (trace (guarded unstopped next) failures (final next creating [.call 0 true])
      blockedFaultRun).length = 1 := by decide
  obtain ⟨-, -, latched⟩ := terminal_fault before atCreation creates run
  obtain ⟨faulted | ⟨running, -⟩, -⟩ := latched (by rintro none; rw [none] at one; cases one)
  · exact ⟨one, faulted⟩
  · have state : t.shared.lifecycle.state ≠ .running := by decide
    exact absurd running state

end System

end CanTelemetry.CanBus
