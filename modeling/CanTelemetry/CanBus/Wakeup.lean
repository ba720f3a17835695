import CanTelemetry.CanBus.Receive
import CanTelemetry.CanBus.BusOff

/-! The wakeup of a terminal fault. The task latches the fault before it gives the token,
and receive() looks at the state before it waits: whoever still waits after the latch has
looked before it, and the token is for them. Afterwards no check lets anyone through until
a start() reserves the controller again. -/

namespace CanTelemetry.CanBus

open Execution Threads VehicleCore

variable {w : ℕ}

/-! ### One step -/

/-- A start() that prepares a run leaves the state as it is. -/
theorem StartPc.preparing_state {configuration : Configuration} {sh sh' : Shared w} {ok : Bool}
    {pc : StartPc w} {control : Control (StartPc w) Result} (prepares : pc.preparing = true)
    (step : pc.step configuration sh ok = some (sh', control)) :
    sh'.lifecycle.state = sh.lifecycle.state := by
  cases pc with
  | drainAvailable =>
    rcases takeNow_eq_some step with ⟨s, s', -, -, same⟩ | ⟨s, -, -, same⟩ <;>
      obtain ⟨rfl, -⟩ := Prod.mk.inj same <;>
      rfl
  | drainTaskStopped =>
    rcases takeNow_eq_some step with ⟨s, s', -, -, same⟩ | ⟨s, -, -, same⟩ <;>
      obtain ⟨rfl, -⟩ := Prod.mk.inj same <;>
      rfl
  | driverInstall => cases ok <;> obtain ⟨rfl, -⟩ := Prod.mk.inj (Option.some.inj step) <;> rfl
  | driverStart => cases ok <;> obtain ⟨rfl, -⟩ := Prod.mk.inj (Option.some.inj step) <;> rfl
  | createAvailable | createTaskStopped | markInstalled | markStarted | clear | setBusId
  | recordReset | resetLastCounters | request | markTask | createTask =>
    obtain ⟨rfl, -⟩ := Prod.mk.inj (Option.some.inj step)
    rfl
  | _ => cases prepares

/-- While it runs, a live task only leaves the running state for the wakeup. -/
theorem TaskPc.step_running {sh sh' : Shared w} {env : TaskEnv} {pc : TaskPc w}
    {control : Control (TaskPc w) Unit} (equipped : sh.available.isSome = true)
    (running : sh.lifecycle.state = .running) (awake : pc ≠ .latch .wake)
    (step : pc.step env sh = some (sh', control)) :
    sh'.lifecycle.state = .faulted ∧ control = .next (.latch .wake) ∨
      sh'.lifecycle.state = .running ∧ .latch .wake ∉ control.live := by
  cases pc with
  | latch pc =>
    obtain ⟨⟨sh'', inner⟩, inside, same⟩ := Option.map_eq_some_iff.mp step
    obtain ⟨rfl, rfl⟩ := Prod.mk.inj same
    cases pc with
    | unrequest =>
      obtain ⟨rfl, rfl⟩ := Prod.mk.inj (Option.some.inj inside)
      exact .inr ⟨running, by simp⟩
    | latch pc =>
      obtain ⟨rfl, rfl⟩ := Prod.mk.inj (Option.some.inj inside)
      rcases pc.step_cases sh.lifecycle env.cas with looked | ⟨-, latched⟩
      · rw [looked, running]
        exact .inr ⟨rfl, by simp [LatchFaultPc.test]⟩
      · rw [latched]
        exact .inl ⟨rfl, by simp [equipped]⟩
    | wake => exact absurd rfl awake
  | giveAvailable =>
    obtain ⟨s, -, same⟩ := Option.map_eq_some_iff.mp step
    obtain ⟨rfl, rfl⟩ := Prod.mk.inj same
    exact .inr ⟨running, by simp⟩
  | giveStopped =>
    obtain ⟨s, -, same⟩ := Option.map_eq_some_iff.mp step
    obtain ⟨rfl, rfl⟩ := Prod.mk.inj same
    exact .inr ⟨running, by simp⟩
  | push pc =>
    obtain ⟨rfl, rfl⟩ := Prod.mk.inj (Option.some.inj step)
    refine .inr ⟨running, ?_⟩
    cases (pc.step sh.frames env.cas).2 with
    | next pc => simp
    | ret accepted => cases accepted <;> simp
  | loopTest =>
    obtain ⟨rfl, rfl⟩ := Prod.mk.inj (Option.some.inj step)
    refine .inr ⟨running, ?_⟩
    cases sh.receiveRequested <;> simp
  | receive =>
    obtain ⟨rfl, rfl⟩ := Prod.mk.inj (Option.some.inj step)
    refine .inr ⟨running, ?_⟩
    cases env.received <;> simp
  | stamp message =>
    obtain ⟨rfl, rfl⟩ := Prod.mk.inj (Option.some.inj step)
    refine .inr ⟨running, ?_⟩
    cases (message.frame env.time sh.busId).isValid <;> simp
  | readStatus =>
    obtain ⟨rfl, rfl⟩ := Prod.mk.inj (Option.some.inj step)
    refine .inr ⟨running, ?_⟩
    cases env.status <;> simp
  | readAlerts =>
    obtain ⟨rfl, rfl⟩ := Prod.mk.inj (Option.some.inj step)
    refine .inr ⟨running, ?_⟩
    cases env.alerts with
    | alerts busOff => cases busOff <;> simp
    | _ => simp
  | _ =>
    obtain ⟨rfl, rfl⟩ := Prod.mk.inj (Option.some.inj step)
    exact .inr ⟨running, by simp⟩

/-- No step of a task takes a token. -/
theorem TaskPc.step_tokens {sh sh' : Shared w} {env : TaskEnv} {pc : TaskPc w}
    {control : Control (TaskPc w) Unit} (step : pc.step env sh = some (sh', control))
    {s : Semaphore queueCapacity} (available : sh.available = some s) :
    ∃ s', sh'.available = some s' ∧ s.tokens ≤ s'.tokens := by
  cases pc with
  | latch pc =>
    obtain ⟨⟨sh'', inner⟩, inside, same⟩ := Option.map_eq_some_iff.mp step
    obtain ⟨rfl, -⟩ := Prod.mk.inj same
    cases pc with
    | wake =>
      obtain ⟨s', held, same⟩ := Option.map_eq_some_iff.mp inside
      obtain ⟨rfl, -⟩ := Prod.mk.inj same
      obtain rfl := Option.some.inj (available.symm.trans held)
      exact ⟨_, rfl, s.le_give_tokens⟩
    | _ =>
      obtain ⟨rfl, -⟩ := Prod.mk.inj (Option.some.inj inside)
      exact ⟨s, available, le_refl _⟩
  | giveAvailable =>
    obtain ⟨s', held, same⟩ := Option.map_eq_some_iff.mp step
    obtain ⟨rfl, -⟩ := Prod.mk.inj same
    obtain rfl := Option.some.inj (available.symm.trans held)
    exact ⟨_, rfl, s.le_give_tokens⟩
  | giveStopped =>
    obtain ⟨s', -, same⟩ := Option.map_eq_some_iff.mp step
    obtain ⟨rfl, -⟩ := Prod.mk.inj same
    exact ⟨s, available, le_refl _⟩
  | _ =>
    obtain ⟨rfl, -⟩ := Prod.mk.inj (Option.some.inj step)
    exact ⟨s, available, le_refl _⟩

/-- A receive() that waits has found the controller running; a step of it that leaves the
wait does not come back to it. -/
theorem ReceivePc.step_take {sh sh' : Shared w} {granted : Bool} {pc : ReceivePc w}
    {control : Control (ReceivePc w) (Result × Option RawCanFrame)}
    (step : pc.step sh granted = some (sh', control)) {timeoutMs : BitVec 32}
    (waits : control.pc? = some (.take timeoutMs)) :
    sh' = sh ∧ sh.lifecycle.state = .running := by
  cases pc with
  | checkState timeoutMs =>
    obtain ⟨rfl, rfl⟩ := Prod.mk.inj (Option.some.inj step)
    cases state : sh.lifecycle.state with
    | running => exact ⟨rfl, rfl⟩
    | _ => simp [refuseOr, receiveRefusal, state] at waits
  | take timeoutMs =>
    simp only [ReceivePc.step] at step
    split at step
    · rcases takeNow_eq_some step with ⟨s, s', -, -, same⟩ | ⟨s, -, -, same⟩ <;>
        obtain ⟨-, rfl⟩ := Prod.mk.inj same <;> cases waits
    · rcases takeWithin_eq_some step with ⟨s, s', -, -, -, same⟩ | ⟨-, same⟩ <;>
        obtain ⟨-, rfl⟩ := Prod.mk.inj same <;> cases waits
  | checkAfterTimeout =>
    obtain ⟨-, rfl⟩ := Prod.mk.inj (Option.some.inj step)
    cases state : sh.lifecycle.state <;> simp [refuseOr, receiveRefusal, state] at waits
  | checkAfterTake =>
    obtain ⟨-, rfl⟩ := Prod.mk.inj (Option.some.inj step)
    cases state : sh.lifecycle.state <;> simp [refuseOr, receiveRefusal, state] at waits
  | pop pc =>
    obtain ⟨-, rfl⟩ := Prod.mk.inj (Option.some.inj step)
    generalize (pc.step sh.frames).2 = inner at waits
    cases inner <;> cases waits

/-! ### The running state is only ever reserved -/

/-- `reconcile` decides on any state but Running. -/
def ReconcilePc.settles : ReconcilePc → Bool
  | .store target => target ≠ .running
  | _ => true

def CallPc.settles : CallPc w → Bool
  | .start _ (.reconcile pc _) | .stop (.reconcile pc _ _ _) => pc.settles
  | _ => true

theorem ReconcilePc.step_settles {c : LifecycleController} {pc : ReconcilePc}
    (h : pc.settles = true) :
    (∀ pc' ∈ (pc.step c).2.live, pc'.settles = true) ∧
      ((pc.step c).1.state = .running → c.state = .running) := by
  cases pc with
  | loadOwned =>
    refine ⟨?_, id⟩
    cases owned : c.taskOwned <;> simp [step, owned, settles]
  | loadInstalled =>
    refine ⟨?_, id⟩
    cases installed : c.driverInstalled <;> simp [step, installed, settles]
  | store target =>
    refine ⟨by simp [step], ?_⟩
    rintro rfl
    cases h

theorem BeginStopPc.step_settles (c : LifecycleController) (cas : Bool) (pc : BeginStopPc) :
    (pc.step c cas).1.state = .running → c.state = .running := by
  rcases pc.step_cases c cas with looked | ⟨-, marked⟩
  · rw [looked]
    exact id
  · rw [marked]
    rintro ⟨⟩

/-- Where a step of a start() leads, and when it makes the state Running. -/
theorem StartPc.step_settles {configuration : Configuration} {sh sh' : Shared w} {ok : Bool}
    {pc : StartPc w} {control : Control (StartPc w) Result}
    (h : (CallPc.start configuration pc).settles = true)
    (step : pc.step configuration sh ok = some (sh', control)) :
    (∀ pc' ∈ control.live, (CallPc.start configuration pc').settles = true) ∧
      (sh'.lifecycle.state = .running → sh.lifecycle.state = .running ∨
        (CallPc.start configuration pc).reserves sh.lifecycle = true) := by
  cases pc with
  | beginStart =>
    simp only [StartPc.step] at step
    split at step
    case isTrue =>
      obtain ⟨rfl, rfl⟩ := Prod.mk.inj (Option.some.inj step)
      exact ⟨by simp, .inl⟩
    case isFalse valid =>
      obtain ⟨rfl, rfl⟩ := Prod.mk.inj (Option.some.inj step)
      by_cases stopped : sh.lifecycle.state = .stopped
      · refine ⟨by simp [LifecycleController.beginStart, stopped, CallPc.settles], fun _ => .inr ?_⟩
        simp [CallPc.reserves, stopped, by simpa using valid]
      · have refused : sh.lifecycle.beginStart = (sh.lifecycle, false) := if_neg stopped
        rw [refused]
        exact ⟨by simp [CallPc.settles], .inl⟩
  | createTaskStopped =>
    obtain ⟨rfl, rfl⟩ := Prod.mk.inj (Option.some.inj step)
    refine ⟨?_, .inl⟩
    rcases Shared.afterCreation_cases
      { sh with taskStopped := sh.taskStopped.or (if ok then some .empty else none) } with
      same | ⟨same, -⟩ <;> rw [same] <;> simp [CallPc.settles]
  | abort pc result =>
    obtain ⟨rfl, rfl⟩ := Prod.mk.inj (Option.some.inj step)
    refine ⟨?_, ?_⟩
    · cases (pc.step sh.lifecycle).2 <;> simp [CallPc.settles]
    · cases pc with
      | storeStopped => rintro ⟨⟩
      | _ => exact .inl
  | drainAvailable =>
    rcases takeNow_eq_some step with ⟨s, s', -, -, same⟩ | ⟨s, -, -, same⟩ <;>
      obtain ⟨rfl, rfl⟩ := Prod.mk.inj same <;>
      exact ⟨by simp [CallPc.settles], .inl⟩
  | drainTaskStopped =>
    rcases takeNow_eq_some step with ⟨s, s', -, -, same⟩ | ⟨s, -, -, same⟩ <;>
      obtain ⟨rfl, rfl⟩ := Prod.mk.inj same <;>
      exact ⟨by simp [CallPc.settles], .inl⟩
  | clear pc =>
    obtain ⟨rfl, rfl⟩ := Prod.mk.inj (Option.some.inj step)
    refine ⟨?_, .inl⟩
    cases (pc.step sh.frames ok).2 <;> simp [CallPc.settles]
  | beginStop pc =>
    obtain ⟨rfl, rfl⟩ := Prod.mk.inj (Option.some.inj step)
    refine ⟨?_, fun running => .inl (pc.step_settles sh.lifecycle ok running)⟩
    cases (pc.step sh.lifecycle ok).2 <;> simp [CallPc.settles]
  | reconcile pc result =>
    obtain ⟨rfl, rfl⟩ := Prod.mk.inj (Option.some.inj step)
    obtain ⟨goesOn, state⟩ := ReconcilePc.step_settles (c := sh.lifecycle) h
    refine ⟨?_, fun running => .inl (state running)⟩
    cases control : (pc.step sh.lifecycle).2 with
    | next pc' => simpa [control, CallPc.settles] using goesOn
    | ret u => simp
  | driverInstall | driverStart | driverStop | driverUninstall | createTask =>
    cases ok <;> obtain ⟨rfl, rfl⟩ := Prod.mk.inj (Option.some.inj step) <;>
      exact ⟨by simp [CallPc.settles, ReconcilePc.settles], .inl⟩
  | _ =>
    obtain ⟨rfl, rfl⟩ := Prod.mk.inj (Option.some.inj step)
    exact ⟨by simp [CallPc.settles, ReconcilePc.settles], .inl⟩

theorem StopPc.step_settles {sh sh' : Shared w} {ok : Bool} {pc : StopPc}
    {control : Control StopPc Result} (h : (CallPc.stop (w := w) pc).settles = true)
    (step : pc.step sh ok = some (sh', control)) :
    (∀ pc' ∈ control.live, (CallPc.stop (w := w) pc').settles = true) ∧
      (sh'.lifecycle.state = .running → sh.lifecycle.state = .running) := by
  cases pc with
  | begin pc =>
    obtain ⟨rfl, rfl⟩ := Prod.mk.inj (Option.some.inj step)
    refine ⟨?_, pc.step_settles sh.lifecycle ok⟩
    cases (pc.step sh.lifecycle ok).2 with
    | next pc => simp [CallPc.settles]
    | ret begun => cases begun <;> simp [CallPc.settles]
  | loadStarted =>
    obtain ⟨rfl, rfl⟩ := Prod.mk.inj (Option.some.inj step)
    refine ⟨?_, id⟩
    cases sh.lifecycle.driverStarted <;> simp [CallPc.settles]
  | driverStop | driverUninstall =>
    cases ok <;> obtain ⟨rfl, rfl⟩ := Prod.mk.inj (Option.some.inj step) <;>
      exact ⟨by simp [CallPc.settles, ReconcilePc.settles], id⟩
  | loadOwned driverStopped =>
    obtain ⟨rfl, rfl⟩ := Prod.mk.inj (Option.some.inj step)
    refine ⟨?_, id⟩
    cases sh.lifecycle.taskOwned <;> simp [CallPc.settles]
  | awaitTask driverStopped =>
    rcases takeWithin_eq_some step with ⟨s, s', -, -, -, same⟩ | ⟨-, same⟩ <;>
      obtain ⟨rfl, rfl⟩ := Prod.mk.inj same <;>
      exact ⟨by simp [CallPc.settles], id⟩
  | dropToken driverStopped =>
    rcases takeNow_eq_some step with ⟨s, s', -, -, same⟩ | ⟨s, -, -, same⟩ <;>
      obtain ⟨rfl, rfl⟩ := Prod.mk.inj same <;>
      exact ⟨by simp [CallPc.settles], id⟩
  | loadInstalled driverStopped taskStopped =>
    obtain ⟨rfl, rfl⟩ := Prod.mk.inj (Option.some.inj step)
    refine ⟨?_, id⟩
    by_cases ready : driverStopped ∧ taskStopped ∧ sh.lifecycle.driverInstalled <;>
      simp [ready, CallPc.settles, ReconcilePc.settles]
  | reconcile pc driverStopped taskStopped driverUninstalled =>
    obtain ⟨rfl, rfl⟩ := Prod.mk.inj (Option.some.inj step)
    obtain ⟨goesOn, state⟩ := ReconcilePc.step_settles (c := sh.lifecycle) h
    refine ⟨?_, state⟩
    cases control : (pc.step sh.lifecycle).2 with
    | next pc' => simpa [control, CallPc.settles] using goesOn
    | ret u =>
      by_cases done : driverStopped ∧ taskStopped ∧ driverUninstalled <;>
        simp [done, CallPc.settles]
  | drainAvailable =>
    simp only [StopPc.step] at step
    split at step
    · obtain ⟨rfl, rfl⟩ := Prod.mk.inj (Option.some.inj step)
      exact ⟨by simp, id⟩
    · rcases takeNow_eq_some step with ⟨s, s', -, -, same⟩ | ⟨s, -, -, same⟩ <;>
        obtain ⟨rfl, rfl⟩ := Prod.mk.inj same <;>
        exact ⟨by simp [CallPc.settles], id⟩
  | _ =>
    obtain ⟨rfl, rfl⟩ := Prod.mk.inj (Option.some.inj step)
    exact ⟨by simp [CallPc.settles, ReconcilePc.settles], id⟩

theorem CallPc.step_settles {sh sh' : Shared w} {ok : Bool} {pc : CallPc w}
    {control : Control (CallPc w) Result} (h : pc.settles = true)
    (step : pc.step sh ok = some (sh', control)) :
    (∀ pc' ∈ control.live, pc'.settles = true) ∧
      (sh'.lifecycle.state = .running → sh.lifecycle.state = .running ∨
        pc.reserves sh.lifecycle = true) := by
  cases pc with
  | start configuration pc =>
    obtain ⟨inner, inside, rfl⟩ := CallPc.step_start step
    obtain ⟨goesOn, state⟩ := StartPc.step_settles h inside
    refine ⟨?_, state⟩
    cases inner with
    | next pc' => simpa using goesOn
    | ret result => simp
  | stop pc =>
    obtain ⟨inner, inside, rfl⟩ := CallPc.step_stop step
    obtain ⟨goesOn, state⟩ := StopPc.step_settles h inside
    refine ⟨?_, fun running => .inl (state running)⟩
    cases inner with
    | next pc' => simpa using goesOn
    | ret result => simp

/-- Outside of Running, receive() refuses at its first check. -/
theorem ReceivePc.step_refused {sh : Shared w} (state : sh.lifecycle.state ≠ .running)
    (granted : Bool) (timeoutMs : BitVec 32) :
    ∃ result, (ReceivePc.checkState timeoutMs : ReceivePc w).step sh granted =
        some (sh, .ret (result, none)) ∧ result ≠ .ok ∧ result ≠ .timeout := by
  cases current : sh.lifecycle.state with
  | running => exact absurd current state
  | stopped => exact ⟨.notStarted, by simp [step, refuseOr, receiveRefusal, current], by simp, by simp⟩
  | stopping => exact ⟨.stopping, by simp [step, refuseOr, receiveRefusal, current], by simp, by simp⟩
  | faulted => exact ⟨.faulted, by simp [step, refuseOr, receiveRefusal, current], by simp, by simp⟩

namespace System

variable {s t u : System w} {k : Choice} {ks ls : List Choice}

/-! ### The state when the task is created -/

/-- One task at a time: a start() reserves the controller only when no earlier task is live. -/
def oneTask (s : System w) (k : Choice) : Bool :=
  s.serialized k && match k with
    | .call i _ => match s.calls[i]? with
      | some pc => !pc.reserves s.shared.lifecycle || s.liveTasks = 0
      | none => true
    | _ => true

/-- While a start() prepares a run, no task is live and the state is the one it reserved. -/
structure Reserved (s : System w) : Prop where
  outlined : s.Outlined
  alone : ∀ c pc, .start c pc ∈ s.calls → pc.preparing = true →
    s.liveTasks = 0 ∧ s.shared.lifecycle.state = .running

theorem Reserved.call (h : s.Reserved) {i : ℕ} {ok : Bool} (allowed : s.oneTask (.call i ok) = true)
    (step : s.next (.call i ok) = some t) : t.Reserved := by
  have outlined := next_outlined h.outlined (by simp [serialized]) step
  obtain ⟨pc, -, -, hpc, -, -⟩ := next_call step
  have member := List.mem_of_getElem? hpc
  obtain ⟨single, -⟩ := h.outlined.outline member
  obtain ⟨shared, control, hstep, rfl⟩ := next_call_single single step
  refine ⟨outlined, ?_⟩
  intro c pc' hpc' prepares
  cases control with
  | ret result => cases hpc'
  | next after =>
    obtain rfl := List.mem_singleton.mp hpc'
    cases pc with
    | stop pc =>
      obtain ⟨inner, -, same⟩ := CallPc.step_stop hstep
      cases inner <;> cases same
    | start configuration pc =>
      obtain ⟨inner, inside, same⟩ := CallPc.step_start hstep
      cases inner with
      | ret result => cases same
      | next inner =>
        obtain ⟨rfl, rfl⟩ := CallPc.start.inj (Control.next.inj same)
        have created : (CallPc.start c pc).created ok = [] := by
          rcases CallPc.created_cases (.start c pc) ok with nothing | ⟨c', creating, rfl, -⟩
          · exact nothing
          · obtain ⟨rfl, rfl⟩ := CallPc.start.inj creating
            obtain rfl := Control.next.inj (Prod.mk.inj (Option.some.inj inside)).2
            cases prepares
        rw [created, List.append_nil]
        cases before : pc.preparing with
        | true =>
          obtain ⟨none, running⟩ := h.alone c pc member before
          exact ⟨none, (StartPc.preparing_state before inside).trans running⟩
        | false =>
          obtain ⟨ready, entered⟩ := StartPc.step_ready (by simp [before]) inside prepares
          have reserving := entered.resolve_left (by simp [before])
          have none : s.liveTasks = 0 := by
            simpa [oneTask, serialized, hpc, reserving] using allowed
          exact ⟨none, ready.running⟩

theorem Reserved.next (h : s.Reserved) (allowed : s.oneTask k = true) (step : s.next k = some t) :
    t.Reserved := by
  have serial : s.serialized k = true := by
    simp only [oneTask, Bool.and_eq_true] at allowed
    exact allowed.1
  have outlined := next_outlined h.outlined serial step
  cases k with
  | call i ok => exact h.call allowed step
  | beginStart configuration =>
    obtain rfl := Option.some.inj step
    have empty : s.calls = [] := List.isEmpty_iff.mp serial
    refine ⟨outlined, ?_⟩
    intro c pc hpc prepares
    obtain ⟨rfl, rfl⟩ : c = configuration ∧ pc = .beginStart := by simpa [empty] using hpc
    cases prepares
  | beginStop =>
    obtain rfl := Option.some.inj step
    have empty : s.calls = [] := List.isEmpty_iff.mp serial
    exact ⟨outlined, by simp [empty]⟩
  | task i env =>
    obtain ⟨pc, shared, control, hpc, hstep, rfl⟩ := next_task step
    refine ⟨outlined, ?_⟩
    intro c pc' hpc' prepares
    obtain ⟨none, running⟩ := h.alone c pc' hpc' prepares
    obtain ⟨dead, nobody⟩ := TaskPc.step_among_dead none hpc hstep
    obtain ⟨-, -, lifecycle, -, -, -⟩ := TaskPc.step_dead dead hstep
    exact ⟨nobody, (congrArg LifecycleController.state lifecycle).trans running⟩
  | beginReceive timeoutMs =>
    obtain ⟨-, step⟩ := Option.ite_none_right_eq_some.mp step
    obtain rfl := Option.some.inj step
    exact ⟨outlined, h.alone⟩
  | consumer granted =>
    obtain ⟨pc, shared, control, -, hstep, rfl⟩ := next_consumer step
    refine ⟨outlined, ?_⟩
    intro c pc' hpc' prepares
    obtain ⟨none, running⟩ := h.alone c pc' hpc' prepares
    refine ⟨none, ?_⟩
    show shared.lifecycle.state = .running
    rw [ReceivePc.step_lifecycle hstep]
    exact running
  | beginStatistics | observer | busOff =>
    obtain ⟨frames, driver, observers, -, rfl⟩ := next_beside rfl step
    exact ⟨outlined, h.alone⟩

/-! ### From the creation of the task to its latch -/

/-- No stop() begins. -/
def unstopped (s : System w) (k : Choice) : Bool :=
  s.oneTask k && match k with
    | .beginStop => false
    | _ => true

/-- The step completes `latch_terminal_fault`. -/
def latches (s : System w) : Choice → Bool
  | .task i env => match s.tasks[i]? with
    | some (.latch pc) => ((pc.step s.shared env.cas).bind (·.2.value?)).isSome
    | _ => false
  | _ => false

/-- A run with its task: the state is Faulted once the task is on its way to the wakeup. -/
structure Manned (s : System w) : Prop where
  available : s.shared.available.isSome = true
  active : s.shared.lifecycle.state = .running ∨ s.shared.lifecycle.state = .faulted
  one : s.liveTasks ≤ 1
  latched : s.shared.lifecycle.state = .faulted →
    ∀ pc ∈ s.tasks, pc.live = true → pc = .latch .wake ∨ pc = .acknowledge
  wakes : .latch .wake ∈ s.tasks → s.shared.lifecycle.state = .faulted
  calls : ∀ pc ∈ s.calls, pc.passive = true ∨ ∃ c, pc = .start c .setStartedBefore

/-- The fault is latched, and a receive() that still waits has a token. -/
structure Awake (s : System w) : Prop where
  faulted : s.shared.lifecycle.state = .faulted
  calls : ∀ pc ∈ s.calls, pc.passive = true ∨ ∃ c, pc = .start c .setStartedBefore
  token : ∀ timeoutMs, s.consumer = some (.take timeoutMs) →
    ∃ available, s.shared.available = some available ∧ 0 < available.tokens

theorem Manned.task (h : s.Manned) {i : ℕ} {env : TaskEnv} (step : s.next (.task i env) = some t) :
    t.Manned := by
  obtain ⟨pc, shared, control, found, hstep, rfl⟩ := next_task step
  have member := List.mem_of_getElem? found
  have available : shared.available.isSome = true :=
    (TaskPc.step_keeps hstep).available.trans h.available
  have count : (resume s.tasks i control).countP TaskPc.live + [pc].countP TaskPc.live =
      s.liveTasks + control.live.countP TaskPc.live := countP_resume TaskPc.live found control
  have fewer : control.live.countP TaskPc.live ≤ [pc].countP TaskPc.live := by
    rcases TaskPc.step_live hstep with ⟨rfl, rfl, -⟩ | ⟨-, equal⟩
    · exact Nat.zero_le _
    · exact equal.le
  have one : (resume s.tasks i control).countP TaskPc.live ≤ 1 := by
    have before := h.one
    omega
  cases live : pc.live with
  | false =>
    obtain ⟨-, -, lifecycle, -, -, dead⟩ := TaskPc.step_dead live hstep
    have old : ∀ pc' ∈ resume s.tasks i control, pc'.live = true → pc' ∈ s.tasks := by
      intro pc' mem alive
      refine (mem_of_mem_resume found mem).resolve_right fun own => ?_
      have left : pc' ∈ control.live.filter TaskPc.live := List.mem_filter.mpr ⟨own, alive⟩
      rw [dead] at left
      cases left
    refine ⟨available, ?_, one, ?_, ?_, h.calls⟩ <;> show _ <;> dsimp only <;> rw [lifecycle]
    · exact h.active
    · exact fun faulted pc' mem alive => h.latched faulted pc' (old pc' mem alive) alive
    · exact fun mem => h.wakes (old _ mem rfl)
  | true =>
    -- the other tasks have left their loops
    have others : ∀ pc' ∈ resume s.tasks i control, pc'.live = true → pc' ∈ control.live :=
      fun pc' mem alive => mem_live_of_alone found h.one live mem alive
    rcases h.active with running | faulted
    · have notWake : pc ≠ .latch .wake := by
        rintro rfl
        cases running.symm.trans (h.wakes member)
      rcases TaskPc.step_running h.available running notWake hstep with
        ⟨faulted, rfl⟩ | ⟨running, asleep⟩
      · refine ⟨available, .inr faulted, one, ?_, fun _ => faulted, h.calls⟩
        intro _ pc' mem alive
        exact .inl (List.mem_singleton.mp (others pc' mem alive))
      · refine ⟨available, .inl running, one, ?_, ?_, h.calls⟩
        · intro faulted
          cases running.symm.trans faulted
        · intro mem
          exact absurd (others _ mem rfl) asleep
    · rcases h.latched faulted pc member live with rfl | rfl
      · obtain ⟨⟨sh, inner⟩, inside, same⟩ := Option.map_eq_some_iff.mp hstep
        obtain ⟨rfl, rfl⟩ := Prod.mk.inj same
        obtain ⟨s', -, same⟩ := Option.map_eq_some_iff.mp inside
        obtain ⟨rfl, rfl⟩ := Prod.mk.inj same
        refine ⟨available, .inr faulted, one, ?_, fun _ => faulted, h.calls⟩
        intro _ pc' mem alive
        exact .inr (List.mem_singleton.mp (others pc' mem alive))
      · obtain ⟨rfl, rfl⟩ := Prod.mk.inj (Option.some.inj hstep)
        refine ⟨available, .inr faulted, one, ?_, fun _ => faulted, h.calls⟩
        intro _ pc' mem alive
        obtain rfl := List.mem_singleton.mp (others pc' mem alive)
        cases alive

theorem Manned.next (h : s.Manned) (within : s.unstopped k = true) (step : s.next k = some t) :
    t.Manned := by
  cases k with
  | beginStart c =>
    obtain rfl := Option.some.inj step
    refine ⟨h.available, h.active, h.one, h.latched, h.wakes, ?_⟩
    intro pc mem
    rcases List.mem_append.mp mem with old | new
    · exact h.calls pc old
    · obtain rfl := List.mem_singleton.mp new
      exact .inl rfl
  | beginStop => simp [unstopped] at within
  | call i ok =>
    obtain ⟨pc, shared, control, found, hstep, rfl⟩ := next_call step
    have active : s.shared.lifecycle.state ≠ .stopped := by
      rcases h.active with state | state <;> simp [state]
    obtain ⟨-, available, lifecycle, created, passive⟩ :=
      call_within active (h.calls pc (List.mem_of_getElem? found)) hstep
    refine ⟨?_, ?_, ?_, ?_, ?_, calls_within h.calls found passive⟩
    · rw [available]
      exact h.available
    · rw [lifecycle]
      exact h.active
    · rw [liveTasks, created, List.append_nil]
      exact h.one
    · rw [lifecycle, created, List.append_nil]
      exact h.latched
    · rw [lifecycle, created, List.append_nil]
      exact h.wakes
  | task i env => exact h.task step
  | beginReceive timeoutMs =>
    obtain ⟨-, step⟩ := Option.ite_none_right_eq_some.mp step
    obtain rfl := Option.some.inj step
    exact ⟨h.available, h.active, h.one, h.latched, h.wakes, h.calls⟩
  | consumer granted =>
    obtain ⟨pc, shared, control, -, hstep, rfl⟩ := next_consumer step
    have lifecycle := ReceivePc.step_lifecycle hstep
    refine ⟨?_, ?_, h.one, ?_, ?_, h.calls⟩
    · exact (ReceivePc.step_keeps hstep).available.trans h.available
    · rw [lifecycle]
      exact h.active
    · rw [lifecycle]
      exact h.latched
    · rw [lifecycle]
      exact h.wakes
  | beginStatistics | observer | busOff =>
    obtain ⟨frames, driver, observers, -, rfl⟩ := next_beside rfl step
    exact ⟨h.available, h.active, h.one, h.latched, h.wakes, h.calls⟩

/-- The task that start() creates is the only one, and the controller is running. -/
theorem Reserved.manned (h : s.Reserved) (provided : s.Provided) {c : Configuration}
    (creating : s.calls = [.start c .createTask]) (step : s.next (.call 0 true) = some t) :
    t.Manned := by
  obtain ⟨none, running⟩ := h.alone c .createTask (by simp [creating]) rfl
  have equipped := (provided.calls _ (by rw [creating]; exact List.mem_singleton_self _)).used rfl
  obtain ⟨shared, control, hstep, rfl⟩ := next_call_single creating step
  obtain ⟨inner, inside, rfl⟩ := CallPc.step_start hstep
  obtain ⟨rfl, rfl⟩ := Prod.mk.inj (Option.some.inj inside)
  have dead : ∀ pc ∈ s.tasks, ¬ pc.live = true := List.countP_eq_zero.mp none
  refine ⟨equipped.1, .inl running, ?_, ?_, ?_, ?_⟩
  · show (s.tasks ++ [TaskPc.loopTest]).countP TaskPc.live ≤ 1
    unfold liveTasks at none
    rw [List.countP_append, none]
    rfl
  · intro faulted
    cases running.symm.trans faulted
  · intro mem
    rcases List.mem_append.mp mem with old | new
    · exact absurd rfl (dead _ old)
    · cases List.mem_singleton.mp new
  · intro pc hpc
    obtain rfl := List.mem_singleton.mp hpc
    exact .inr ⟨c, rfl⟩

/-- Completing the latch gives the token. -/
theorem Manned.awake (h : s.Manned) (completes : s.latches k = true) (step : s.next k = some t) :
    t.Awake := by
  cases k with
  | task i env =>
    obtain ⟨pc, shared, control, found, hstep, rfl⟩ := next_task step
    have member := List.mem_of_getElem? found
    simp only [latches, found] at completes
    split at completes
    case h_2 => cases completes
    case h_1 pc' same =>
      obtain rfl := Option.some.inj same
      obtain ⟨⟨sh, inner⟩, inside, same⟩ := Option.map_eq_some_iff.mp hstep
      obtain ⟨rfl, rfl⟩ := Prod.mk.inj same
      rw [inside] at completes
      cases pc' with
      | wake =>
        obtain ⟨available, held, same⟩ := Option.map_eq_some_iff.mp inside
        obtain ⟨rfl, rfl⟩ := Prod.mk.inj same
        refine ⟨h.wakes member, h.calls, fun _ _ => ⟨available.give, rfl, ?_⟩⟩
        unfold Semaphore.give
        split
        case isTrue => exact Nat.succ_pos _
        case isFalse full => exact lt_of_lt_of_le (by decide : 0 < queueCapacity) (Nat.le_of_not_lt full)
      | unrequest =>
        obtain ⟨rfl, rfl⟩ := Prod.mk.inj (Option.some.inj inside)
        cases completes
      | latch pc =>
        have running : s.shared.lifecycle.state = .running := by
          refine h.active.resolve_right fun faulted => ?_
          rcases h.latched faulted _ member rfl with same | same <;> cases same
        rcases TaskPc.step_running h.available running (by simp) hstep with
          ⟨-, same⟩ | ⟨stays, -⟩
        · cases inner with
          | next pc => cases completes
          | ret u => cases same
        · obtain ⟨rfl, rfl⟩ := Prod.mk.inj (Option.some.inj inside)
          rcases pc.step_cases s.shared.lifecycle env.cas with looked | ⟨-, latched⟩
          · rw [looked, running] at completes
            cases completes
          · rw [latched] at stays
            cases stays
  | _ => cases completes

theorem Awake.next (h : s.Awake) (within : s.unstopped k = true) (step : s.next k = some t) :
    t.Awake := by
  cases k with
  | beginStart c =>
    obtain rfl := Option.some.inj step
    refine ⟨h.faulted, ?_, h.token⟩
    intro pc mem
    rcases List.mem_append.mp mem with old | new
    · exact h.calls pc old
    · obtain rfl := List.mem_singleton.mp new
      exact .inl rfl
  | beginStop => simp [unstopped] at within
  | call i ok =>
    obtain ⟨pc, shared, control, found, hstep, rfl⟩ := next_call step
    obtain ⟨-, available, lifecycle, -, passive⟩ :=
      call_within (by simp [h.faulted]) (h.calls pc (List.mem_of_getElem? found)) hstep
    refine ⟨?_, calls_within h.calls found passive, ?_⟩ <;> dsimp only
    · rw [lifecycle]
      exact h.faulted
    · rw [available]
      exact h.token
  | task i env =>
    obtain ⟨pc, shared, control, -, hstep, rfl⟩ := next_task step
    refine ⟨?_, h.calls, ?_⟩
    · rcases (TaskPc.step_interference hstep).state with same | ⟨-, faulted⟩
      · exact same.trans h.faulted
      · exact faulted
    · intro timeoutMs waits
      obtain ⟨available, held, some⟩ := h.token timeoutMs waits
      obtain ⟨available', held', more⟩ := TaskPc.step_tokens hstep held
      exact ⟨available', held', lt_of_lt_of_le some more⟩
  | beginReceive timeoutMs =>
    obtain ⟨-, step⟩ := Option.ite_none_right_eq_some.mp step
    obtain rfl := Option.some.inj step
    exact ⟨h.faulted, h.calls, by simp⟩
  | consumer granted =>
    obtain ⟨pc, shared, control, -, hstep, rfl⟩ := next_consumer step
    refine ⟨?_, h.calls, ?_⟩
    · show shared.lifecycle.state = .faulted
      rw [ReceivePc.step_lifecycle hstep]
      exact h.faulted
    · intro timeoutMs waits
      cases (ReceivePc.step_take hstep waits).2.symm.trans h.faulted
  | beginStatistics | observer | busOff =>
    obtain ⟨frames, driver, observers, -, rfl⟩ := next_beside rfl step
    exact ⟨h.faulted, h.calls, h.token⟩

/-! ### After the latch -/

/-- No start() reserves the controller. -/
def unreserved (s : System w) : Choice → Bool
  | .call i _ => match s.calls[i]? with
    | some pc => !pc.reserves s.shared.lifecycle
    | none => true
  | _ => true

def Settling (s : System w) : Prop := ∀ pc ∈ s.calls, pc.settles = true

/-- Whatever the calls decide, only a reservation leads to Running. -/
theorem Settling.next (h : s.Settling) (step : s.next k = some t) :
    t.Settling ∧ (s.unreserved k = true → t.shared.lifecycle.state = .running →
      s.shared.lifecycle.state = .running) := by
  cases k with
  | beginStart c =>
    obtain rfl := Option.some.inj step
    refine ⟨?_, fun _ => id⟩
    intro pc mem
    rcases List.mem_append.mp mem with old | new
    · exact h pc old
    · obtain rfl := List.mem_singleton.mp new
      rfl
  | beginStop =>
    obtain rfl := Option.some.inj step
    refine ⟨?_, fun _ => id⟩
    intro pc mem
    rcases List.mem_append.mp mem with old | new
    · exact h pc old
    · obtain rfl := List.mem_singleton.mp new
      rfl
  | call i ok =>
    obtain ⟨pc, shared, control, found, hstep, rfl⟩ := next_call step
    obtain ⟨settles, state⟩ := CallPc.step_settles (h pc (List.mem_of_getElem? found)) hstep
    refine ⟨?_, ?_⟩
    · intro pc' mem
      rcases mem_of_mem_resume found mem with old | own
      · exact h pc' old
      · exact settles pc' own
    · intro kept running
      refine (state running).resolve_right fun reserves => ?_
      simp [unreserved, found, reserves] at kept
  | _ =>
    obtain ⟨calls, other⟩ := next_interference step (by simp) (by simp) (by simp)
    refine ⟨by rw [Settling, calls]; exact h, ?_⟩
    intro _ running
    rcases other.state with same | ⟨-, faulted⟩
    · exact same.symm.trans running
    · cases faulted.symm.trans running

theorem exec_settling (run : exec (guarded oneTask next) ({} : System w) ks = some s) :
    s.Settling := by
  refine exec_invariant (P := Settling) ?_ run ?_
  · intro s k t h step
    exact (h.next (guarded_eq_some.mp step).2).1
  · intro pc mem
    cases mem

theorem exec_reserved (run : exec (guarded oneTask next) ({} : System w) ks = some s) :
    s.Reserved := by
  refine exec_invariant (P := Reserved) ?_ run ?_
  · intro s k t h step
    obtain ⟨allowed, step⟩ := guarded_eq_some.mp step
    exact h.next allowed step
  · exact ⟨⟨by simp, by simp, fun _ => ⟨rfl, rfl, rfl⟩⟩, by simp⟩

/-- A receive() that begins its checks in this state is refused. -/
theorem receive_refused (state : s.shared.lifecycle.state ≠ .running) {timeoutMs : BitVec 32}
    {granted : Bool} (checks : s.consumer = some (.checkState timeoutMs)) :
    ∃ result, s.received (.consumer granted) = some (result, none) ∧ result ≠ .ok ∧
      result ≠ .timeout := by
  obtain ⟨result, step, notOk, notTimeout⟩ := ReceivePc.step_refused state granted timeoutMs
  refine ⟨result, ?_, notOk, notTimeout⟩
  rw [received, checks, Option.bind_some, step]
  rfl

/-- From the creation of its task by start(), with one task at a time: once the task has
completed its latch, a receive() that waits has a token as long as no stop() is called, and
until a start() reserves the controller every receive() that makes its first check returns
neither Ok nor Timeout. -/
theorem latched_fault_wakes {c : Configuration} {first : System w}
    (before : exec (guarded oneTask next) ({} : System w) ks = some s)
    (creating : s.calls = [.start c .createTask]) (creates : s.next (.call 0 true) = some first)
    (run : exec (guarded unstopped next) first ls = some t) (completes : t.latches k = true)
    (latch : t.next k = some u) :
    (∀ later v, exec (guarded unstopped next) u later = some v →
        ∀ timeoutMs, v.consumer = some (.take timeoutMs) →
          ∃ available, v.shared.available = some available ∧ 0 < available.tokens) ∧
      ∀ later v, exec (guarded unreserved next) u later = some v →
        ∀ timeoutMs granted, v.consumer = some (.checkState timeoutMs) →
          ∃ result, v.received (.consumer granted) = some (result, none) ∧ result ≠ .ok ∧
            result ≠ .timeout := by
  have provided : s.Provided := by
    refine exec_provided (exec_guarded_mono (fun s k allowed => ?_) before)
    simp only [oneTask, Bool.and_eq_true] at allowed
    exact allowed.1
  have manned : t.Manned := by
    refine exec_invariant (P := Manned) ?_ run ((exec_reserved before).manned provided creating creates)
    intro s k t h step
    obtain ⟨within, step⟩ := guarded_eq_some.mp step
    exact h.next within step
  have awake : u.Awake := manned.awake completes latch
  refine ⟨?_, ?_⟩
  · intro later v rest
    have stays : v.Awake := by
      refine exec_invariant (P := Awake) ?_ rest awake
      intro s k t h step
      obtain ⟨within, step⟩ := guarded_eq_some.mp step
      exact h.next within step
    exact stays.token
  · intro later v rest timeoutMs granted checks
    have settling : t.Settling := by
      have created := ((exec_settling before).next creates).1
      refine exec_invariant (P := Settling) ?_ run created
      intro s k t h step
      exact (h.next (guarded_eq_some.mp step).2).1
    have past : v.Settling ∧ v.shared.lifecycle.state ≠ .running := by
      refine exec_invariant (P := fun v : System w => v.Settling ∧
        v.shared.lifecycle.state ≠ .running) ?_ rest ⟨(settling.next latch).1, by simp [awake.faulted]⟩
      intro s k t h step
      obtain ⟨kept, step⟩ := guarded_eq_some.mp step
      obtain ⟨settles, state⟩ := h.1.next step
      exact ⟨settles, fun running => h.2 (state kept running)⟩
    exact receive_refused past.2 checks

/-- The consumer waits; then the driver's receive call fails and the task latches the fault. -/
def blockedFaultRun : List Choice :=
  [.call 0 true, .beginReceive 1000, .consumer true, .task 0 {}, .task 0 { received := .failed },
    .task 0 {}, .task 0 {}, .task 0 {}]

def creating : System 32 := final (guarded oneTask next) {} creatingRun

def blocked : System 32 := final (guarded unstopped next) (final next creating [.call 0 true])
  blockedFaultRun

def woken : System 32 := final next blocked [.task 0 {}]

theorem latched_fault_wakes_blocked :
    woken.consumer = some (.take 1000) ∧
      ∃ available, woken.shared.available = some available ∧ 0 < available.tokens := by
  have before := exec_eq_final (guarded oneTask next) ({} : System 32) creatingRun (by decide)
  have atCreation : ∃ c, creating.calls = [.start c .createTask] := ⟨_, rfl⟩
  obtain ⟨c, atCreation⟩ := atCreation
  have creates := next_eq_final next creating (.call 0 true) (by decide)
  have run := exec_eq_final (guarded unstopped next) (final next creating [.call 0 true])
    blockedFaultRun (by decide)
  have latch := next_eq_final next blocked (.task 0 {}) (by decide)
  have waits : woken.consumer = some (.take 1000) := by decide
  have wakes := latched_fault_wakes before atCreation creates run (by decide) latch
  exact ⟨waits, wakes.1 [] woken rfl 1000 waits⟩

end System

end CanTelemetry.CanBus
