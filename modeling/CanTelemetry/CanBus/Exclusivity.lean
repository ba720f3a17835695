import CanTelemetry.CanBus.Cleanup

/-! Exclusivity of the receive task. A task is live until it has executed
acknowledge_task() itself. A stop() takes its ownership away on a token of
`g_task_stopped` as well, and an earlier task may still owe that token when start()
has already drained the semaphore: then the token speaks for the wrong task. As long
as no stop() is granted such a token, ownership follows the live task. -/

namespace CanTelemetry.CanBus

open Execution Threads

variable {w : ℕ}

def TaskPc.live : TaskPc w → Bool
  | .giveStopped | .delete => false
  | _ => true

/-- The points of a call at which a task cannot be live although ownership is marked. -/
def CallPc.noTask : CallPc w → Bool
  | .start _ .createTask | .start _ .unrequest | .start _ .disown | .stop (.acknowledge _) => true
  | _ => false

namespace System

def liveTasks (s : System w) : ℕ := s.tasks.countP TaskPc.live

/-- A stop() is not granted a token while a task is still live, so the token is not one
that an earlier task had left behind. -/
def ownToken (s : System w) : Choice → Bool
  | .call i true => match s.calls[i]? with
    | some (.stop (.awaitTask _)) => s.liveTasks = 0
    | _ => true
  | _ => true

end System

/-! ### One step -/

theorem StartPc.step_owned {configuration : Configuration} {sh sh' : Shared w} {ok : Bool}
    {pc : StartPc w} {control : Control (StartPc w) Result}
    (step : pc.step configuration sh ok = some (sh', control)) :
    pc = .markTask ∧ sh'.lifecycle.taskOwned = true ∨
      pc = .disown ∧ sh'.lifecycle.taskOwned = false ∨
      sh'.lifecycle.taskOwned = sh.lifecycle.taskOwned := by
  cases pc with
  | markTask =>
    obtain ⟨rfl, -⟩ := Prod.mk.inj (Option.some.inj step)
    exact .inl ⟨rfl, rfl⟩
  | disown =>
    obtain ⟨rfl, -⟩ := Prod.mk.inj (Option.some.inj step)
    exact .inr (.inl ⟨rfl, rfl⟩)
  | beginStart =>
    simp only [StartPc.step] at step
    split at step
    · obtain ⟨rfl, -⟩ := Prod.mk.inj (Option.some.inj step)
      exact .inr (.inr rfl)
    · obtain ⟨rfl, -⟩ := Prod.mk.inj (Option.some.inj step)
      refine .inr (.inr ?_)
      show sh.lifecycle.beginStart.1.taskOwned = _
      unfold LifecycleController.beginStart
      split <;> rfl
  | abort pc result =>
    obtain ⟨rfl, -⟩ := Prod.mk.inj (Option.some.inj step)
    cases pc <;> exact .inr (.inr rfl)
  | reconcile pc result =>
    obtain ⟨rfl, -⟩ := Prod.mk.inj (Option.some.inj step)
    cases pc <;> exact .inr (.inr rfl)
  | beginStop pc =>
    obtain ⟨rfl, -⟩ := Prod.mk.inj (Option.some.inj step)
    refine .inr (.inr ?_)
    show (pc.step sh.lifecycle ok).1.taskOwned = _
    rcases pc.step_cases sh.lifecycle ok with looked | ⟨-, marked⟩
    · rw [looked]
    · rw [marked]
  | drainAvailable =>
    rcases takeNow_eq_some step with ⟨s, s', -, -, same⟩ | ⟨s, -, -, same⟩ <;>
      obtain ⟨rfl, -⟩ := Prod.mk.inj same <;>
      exact .inr (.inr rfl)
  | drainTaskStopped =>
    rcases takeNow_eq_some step with ⟨s, s', -, -, same⟩ | ⟨s, -, -, same⟩ <;>
      obtain ⟨rfl, -⟩ := Prod.mk.inj same <;>
      exact .inr (.inr rfl)
  | driverInstall =>
    cases ok <;> obtain ⟨rfl, -⟩ := Prod.mk.inj (Option.some.inj step) <;> exact .inr (.inr rfl)
  | driverStart =>
    cases ok <;> obtain ⟨rfl, -⟩ := Prod.mk.inj (Option.some.inj step) <;> exact .inr (.inr rfl)
  | driverStop =>
    cases ok <;> obtain ⟨rfl, -⟩ := Prod.mk.inj (Option.some.inj step) <;> exact .inr (.inr rfl)
  | driverUninstall result =>
    cases ok <;> obtain ⟨rfl, -⟩ := Prod.mk.inj (Option.some.inj step) <;> exact .inr (.inr rfl)
  | _ =>
    obtain ⟨rfl, -⟩ := Prod.mk.inj (Option.some.inj step)
    exact .inr (.inr rfl)

theorem StopPc.step_owned {sh sh' : Shared w} {ok : Bool} {pc : StopPc}
    {control : Control StopPc Result} (step : pc.step sh ok = some (sh', control)) :
    (∃ d, pc = .acknowledge d ∧ sh'.lifecycle.taskOwned = false) ∨
      sh'.lifecycle.taskOwned = sh.lifecycle.taskOwned := by
  cases pc with
  | acknowledge driverStopped =>
    obtain ⟨rfl, -⟩ := Prod.mk.inj (Option.some.inj step)
    exact .inl ⟨_, rfl, rfl⟩
  | begin pc =>
    obtain ⟨rfl, -⟩ := Prod.mk.inj (Option.some.inj step)
    right
    show (pc.step sh.lifecycle ok).1.taskOwned = _
    rcases pc.step_cases sh.lifecycle ok with looked | ⟨-, marked⟩
    · rw [looked]
    · rw [marked]
  | reconcile pc driverStopped taskStopped driverUninstalled =>
    obtain ⟨rfl, -⟩ := Prod.mk.inj (Option.some.inj step)
    cases pc <;> exact .inr rfl
  | driverStop =>
    cases ok <;> obtain ⟨rfl, -⟩ := Prod.mk.inj (Option.some.inj step) <;> exact .inr rfl
  | driverUninstall =>
    cases ok <;> obtain ⟨rfl, -⟩ := Prod.mk.inj (Option.some.inj step) <;> exact .inr rfl
  | awaitTask driverStopped =>
    rcases takeWithin_eq_some step with ⟨s, s', -, -, -, same⟩ | ⟨-, same⟩ <;>
      obtain ⟨rfl, -⟩ := Prod.mk.inj same <;>
      exact .inr rfl
  | dropToken driverStopped =>
    rcases takeNow_eq_some step with ⟨s, s', -, -, same⟩ | ⟨s, -, -, same⟩ <;>
      obtain ⟨rfl, -⟩ := Prod.mk.inj same <;>
      exact .inr rfl
  | drainAvailable =>
    simp only [StopPc.step] at step
    split at step
    · obtain ⟨rfl, -⟩ := Prod.mk.inj (Option.some.inj step)
      exact .inr rfl
    · rcases takeNow_eq_some step with ⟨s, s', -, -, same⟩ | ⟨s, -, -, same⟩ <;>
        obtain ⟨rfl, -⟩ := Prod.mk.inj same <;>
        exact .inr rfl
  | _ =>
    obtain ⟨rfl, -⟩ := Prod.mk.inj (Option.some.inj step)
    exact .inr rfl

/-- start() goes on past the creation only with both semaphores. -/
theorem Shared.afterCreation_cases (sh : Shared w) :
    sh.afterCreation = .abort .loadInstalled .taskFailure ∨
      sh.afterCreation = .drainAvailable ∧ sh.available.isSome ∧ sh.taskStopped.isSome := by
  unfold Shared.afterCreation
  split
  case isTrue missing => exact .inl rfl
  case isFalse both =>
    have created : sh.available.isSome ∧ sh.taskStopped.isSome := by
      simpa [not_or, Option.isSome_iff_ne_none] using both
    exact .inr ⟨rfl, created⟩

/-- Where the points without a task are entered from. -/
theorem StartPc.step_noTask {configuration : Configuration} {sh sh' : Shared w} {ok : Bool}
    {pc pc' : StartPc w} (step : pc.step configuration sh ok = some (sh', .next pc'))
    (none : (CallPc.start configuration pc').noTask = true) :
    pc = .markTask ∧ pc' = .createTask ∧ sh'.lifecycle.taskOwned = true ∨
      pc' ≠ .createTask ∧ (CallPc.start configuration pc).noTask = true := by
  cases pc with
  | markTask =>
    obtain ⟨rfl, same⟩ := Prod.mk.inj (Option.some.inj step)
    exact .inl ⟨rfl, (Control.next.inj same).symm, rfl⟩
  | createTask =>
    obtain ⟨-, same⟩ := Prod.mk.inj (Option.some.inj step)
    cases ok with
    | true =>
      obtain rfl := Control.next.inj same
      cases none
    | false =>
      obtain rfl := Control.next.inj same
      exact .inr ⟨by simp, rfl⟩
  | unrequest =>
    obtain ⟨-, same⟩ := Prod.mk.inj (Option.some.inj step)
    obtain rfl := Control.next.inj same
    exact .inr ⟨by simp, rfl⟩
  | beginStart =>
    simp only [StartPc.step] at step
    split at step
    · cases (Prod.mk.inj (Option.some.inj step)).2
    · obtain rfl := Control.next.inj (Prod.mk.inj (Option.some.inj step)).2
      split at none <;> cases none
  | createTaskStopped =>
    obtain rfl := Control.next.inj (Prod.mk.inj (Option.some.inj step)).2
    rcases Shared.afterCreation_cases
      { sh with taskStopped := sh.taskStopped.or (if ok then some .empty else .none) } with
      same | ⟨same, -⟩ <;> rw [same] at none <;> cases none
  | abort pc result =>
    have same := (Prod.mk.inj (Option.some.inj step)).2
    generalize (pc.step sh.lifecycle).2 = control at same
    cases control with
    | next pc => obtain rfl := Control.next.inj same; cases none
    | ret value => cases same
  | clear pc =>
    have same := (Prod.mk.inj (Option.some.inj step)).2
    generalize (pc.step sh.frames ok).2 = control at same
    cases control <;> obtain rfl := Control.next.inj same <;> cases none
  | beginStop pc =>
    have same := (Prod.mk.inj (Option.some.inj step)).2
    generalize (pc.step sh.lifecycle ok).2 = control at same
    cases control <;> obtain rfl := Control.next.inj same <;> cases none
  | reconcile pc result =>
    have same := (Prod.mk.inj (Option.some.inj step)).2
    generalize (pc.step sh.lifecycle).2 = control at same
    cases control with
    | next pc => obtain rfl := Control.next.inj same; cases none
    | ret value => cases same
  | drainAvailable =>
    rcases takeNow_eq_some step with ⟨s, s', -, -, same⟩ | ⟨s, -, -, same⟩ <;>
      obtain rfl := Control.next.inj (Prod.mk.inj same).2 <;>
      cases none
  | drainTaskStopped =>
    rcases takeNow_eq_some step with ⟨s, s', -, -, same⟩ | ⟨s, -, -, same⟩ <;>
      obtain rfl := Control.next.inj (Prod.mk.inj same).2 <;>
      cases none
  | driverInstall =>
    cases ok <;> obtain rfl := Control.next.inj (Prod.mk.inj (Option.some.inj step)).2 <;>
      cases none
  | driverStart =>
    cases ok <;> obtain rfl := Control.next.inj (Prod.mk.inj (Option.some.inj step)).2 <;>
      cases none
  | driverStop =>
    cases ok <;> obtain rfl := Control.next.inj (Prod.mk.inj (Option.some.inj step)).2 <;>
      cases none
  | driverUninstall result =>
    cases ok <;> obtain rfl := Control.next.inj (Prod.mk.inj (Option.some.inj step)).2 <;>
      cases none
  | refused => cases (Prod.mk.inj (Option.some.inj step)).2
  | setStartedBefore => cases (Prod.mk.inj (Option.some.inj step)).2
  | _ =>
    obtain rfl := Control.next.inj (Prod.mk.inj (Option.some.inj step)).2
    cases none

theorem CallPc.created_cases (pc : CallPc w) (ok : Bool) :
    pc.created ok = [] ∨ ∃ c, pc = .start c .createTask ∧ ok = true ∧ pc.created ok = [.loopTest] := by
  cases pc with
  | start configuration pc =>
    cases pc with
    | createTask =>
      cases ok with
      | true => exact .inr ⟨_, rfl, rfl, rfl⟩
      | false => exact .inl rfl
    | _ => exact .inl rfl
  | stop pc => exact .inl rfl

theorem StopPc.step_noTask {sh sh' : Shared w} {ok : Bool} {pc pc' : StopPc}
    (step : pc.step sh ok = some (sh', .next pc'))
    (none : (CallPc.stop (w := w) pc').noTask = true) : ok = true ∧ ∃ d, pc = .awaitTask d := by
  cases pc with
  | awaitTask driverStopped =>
    rcases takeWithin_eq_some step with ⟨s, s', granted, -, -, same⟩ | ⟨-, same⟩
    · exact ⟨granted, _, rfl⟩
    · obtain rfl := Control.next.inj (Prod.mk.inj same).2
      cases none
  | begin pc =>
    have same := (Prod.mk.inj (Option.some.inj step)).2
    generalize (pc.step sh.lifecycle ok).2 = control at same
    cases control with
    | next pc => obtain rfl := Control.next.inj same; cases none
    | ret begun =>
      cases begun with
      | true => obtain rfl := Control.next.inj same; cases none
      | false => cases same
  | loadStarted =>
    obtain rfl := Control.next.inj (Prod.mk.inj (Option.some.inj step)).2
    split at none <;> cases none
  | driverStop =>
    cases ok <;> obtain rfl := Control.next.inj (Prod.mk.inj (Option.some.inj step)).2 <;>
      cases none
  | loadOwned driverStopped =>
    obtain rfl := Control.next.inj (Prod.mk.inj (Option.some.inj step)).2
    split at none <;> cases none
  | dropToken driverStopped =>
    rcases takeNow_eq_some step with ⟨s, s', -, -, same⟩ | ⟨s, -, -, same⟩ <;>
      obtain rfl := Control.next.inj (Prod.mk.inj same).2 <;>
      cases none
  | loadInstalled driverStopped taskStopped =>
    obtain rfl := Control.next.inj (Prod.mk.inj (Option.some.inj step)).2
    split at none <;> cases none
  | driverUninstall =>
    cases ok <;> obtain rfl := Control.next.inj (Prod.mk.inj (Option.some.inj step)).2 <;>
      cases none
  | reconcile pc driverStopped taskStopped driverUninstalled =>
    have same := (Prod.mk.inj (Option.some.inj step)).2
    generalize (pc.step sh.lifecycle).2 = control at same
    cases control with
    | next pc => obtain rfl := Control.next.inj same; cases none
    | ret value =>
      simp only [Control.call_ret] at same
      split at same
      · obtain rfl := Control.next.inj same
        cases none
      · cases same
  | drainAvailable =>
    simp only [StopPc.step] at step
    split at step
    · cases (Prod.mk.inj (Option.some.inj step)).2
    · rcases takeNow_eq_some step with ⟨s, s', -, -, same⟩ | ⟨s, -, -, same⟩
      · obtain rfl := Control.next.inj (Prod.mk.inj same).2
        cases none
      · cases (Prod.mk.inj same).2
  | _ =>
    obtain rfl := Control.next.inj (Prod.mk.inj (Option.some.inj step)).2
    cases none

/-- A task that gives up the ownership has left its loop; no other step of a task does. -/
theorem TaskPc.step_live {sh sh' : Shared w} {env : TaskEnv} {pc : TaskPc w}
    {control : Control (TaskPc w) Unit} (step : pc.step env sh = some (sh', control)) :
    pc = .acknowledge ∧ control = .next .giveStopped ∧ sh'.lifecycle.taskOwned = false ∨
      sh'.lifecycle.taskOwned = sh.lifecycle.taskOwned ∧
        control.live.countP TaskPc.live = [pc].countP TaskPc.live := by
  cases pc with
  | acknowledge =>
    obtain ⟨rfl, rfl⟩ := Prod.mk.inj (Option.some.inj step)
    exact .inl ⟨rfl, rfl, rfl⟩
  | latch pc =>
    obtain ⟨⟨sh'', inner⟩, inside, same⟩ := Option.map_eq_some_iff.mp step
    obtain ⟨rfl, rfl⟩ := Prod.mk.inj same
    refine .inr ⟨?_, ?_⟩
    · cases pc with
      | unrequest =>
        obtain ⟨rfl, -⟩ := Prod.mk.inj (Option.some.inj inside)
        rfl
      | latch pc =>
        obtain ⟨rfl, -⟩ := Prod.mk.inj (Option.some.inj inside)
        show (pc.step sh.lifecycle env.cas).1.taskOwned = _
        rcases pc.step_cases sh.lifecycle env.cas with looked | ⟨-, latched⟩
        · rw [looked]
        · rw [latched]
      | wake =>
        obtain ⟨s, -, same⟩ := Option.map_eq_some_iff.mp inside
        obtain ⟨rfl, -⟩ := Prod.mk.inj same
        rfl
    · cases inner <;> simp [TaskPc.live]
  | giveAvailable =>
    obtain ⟨s, -, same⟩ := Option.map_eq_some_iff.mp step
    obtain ⟨rfl, rfl⟩ := Prod.mk.inj same
    exact .inr ⟨rfl, rfl⟩
  | giveStopped =>
    obtain ⟨s, -, same⟩ := Option.map_eq_some_iff.mp step
    obtain ⟨rfl, rfl⟩ := Prod.mk.inj same
    exact .inr ⟨rfl, rfl⟩
  | delete =>
    obtain ⟨rfl, rfl⟩ := Prod.mk.inj (Option.some.inj step)
    exact .inr ⟨rfl, rfl⟩
  | push pc =>
    obtain ⟨rfl, rfl⟩ := Prod.mk.inj (Option.some.inj step)
    refine .inr ⟨rfl, ?_⟩
    cases (pc.step sh.frames env.cas).2 with
    | next pc => rfl
    | ret accepted => cases accepted <;> rfl
  | loopTest =>
    obtain ⟨rfl, rfl⟩ := Prod.mk.inj (Option.some.inj step)
    refine .inr ⟨rfl, ?_⟩
    cases sh.receiveRequested <;> rfl
  | receive =>
    obtain ⟨rfl, rfl⟩ := Prod.mk.inj (Option.some.inj step)
    refine .inr ⟨rfl, ?_⟩
    cases env.received <;> rfl
  | stamp message =>
    obtain ⟨rfl, rfl⟩ := Prod.mk.inj (Option.some.inj step)
    refine .inr ⟨rfl, ?_⟩
    cases (message.frame env.time sh.busId).isValid <;> rfl
  | readStatus =>
    obtain ⟨rfl, rfl⟩ := Prod.mk.inj (Option.some.inj step)
    refine .inr ⟨rfl, ?_⟩
    cases env.status <;> rfl
  | readAlerts =>
    obtain ⟨rfl, rfl⟩ := Prod.mk.inj (Option.some.inj step)
    refine .inr ⟨rfl, ?_⟩
    cases env.alerts with
    | alerts busOff => cases busOff <;> rfl
    | _ => rfl
  | _ =>
    obtain ⟨rfl, rfl⟩ := Prod.mk.inj (Option.some.inj step)
    exact .inr ⟨rfl, rfl⟩

/-! ### Runs -/

namespace System

variable {s t : System w} {k : Choice} {ks : List Choice}

/-- Ownership is marked as long as a task is live, and there is at most one. -/
structure Exclusive (s : System w) : Prop where
  outlined : s.Outlined
  atMostOne : s.liveTasks ≤ 1
  owned : 0 < s.liveTasks → s.shared.lifecycle.taskOwned = true
  alone : ∀ pc ∈ s.calls, pc.noTask = true → s.liveTasks = 0
  created : ∀ c, .start c .createTask ∈ s.calls → s.shared.lifecycle.taskOwned = true

theorem Exclusive.none (h : s.Exclusive) (free : s.shared.lifecycle.taskOwned = false) :
    s.liveTasks = 0 := by
  by_contra some
  have owned := h.owned (Nat.pos_of_ne_zero some)
  rw [free] at owned
  cases owned

theorem Exclusive.call (h : s.Exclusive) {ok : Bool} {pc : CallPc w} {shared : Shared w}
    {control : Control (CallPc w) Result} (member : pc ∈ s.calls)
    (outline : pc.Outline s.shared.lifecycle)
    (outlined : ({ s with
      shared := shared
      calls := control.live
      tasks := s.tasks ++ pc.created ok } : System w).Outlined)
    (own : ok = true → (∃ d, pc = .stop (.awaitTask d)) → s.liveTasks = 0)
    (hstep : pc.step s.shared ok = some (shared, control)) :
    ({ s with
      shared := shared
      calls := control.live
      tasks := s.tasks ++ pc.created ok } : System w).Exclusive := by
  rcases pc.created_cases ok with nothing | ⟨c, rfl, rfl, created⟩
  · have count : s.liveTasks = (s.tasks ++ pc.created ok).countP TaskPc.live := by
      rw [nothing, List.append_nil, liveTasks]
    cases pc with
    | start configuration pc =>
      obtain ⟨inner, inside, rfl⟩ := CallPc.step_start hstep
      have none (free : pc = .markTask) : s.liveTasks = 0 := by
        subst free
        exact h.none (outline.knows.disowned rfl)
      refine ⟨outlined, le_of_eq_of_le count.symm h.atMostOne, ?_, ?_, ?_⟩
      · show 0 < (s.tasks ++ _).countP TaskPc.live → _
        rw [← count]
        intro some
        rcases StartPc.step_owned inside with ⟨-, marked⟩ | ⟨rfl, -⟩ | same
        · exact marked
        · have := h.alone _ member rfl
          omega
        · exact same.trans (h.owned some)
      · show ∀ pc' ∈ _, _ → (s.tasks ++ _).countP TaskPc.live = 0
        rw [← count]
        intro pc' hpc' quiet
        cases inner with
        | ret result => cases hpc'
        | next pc' =>
          obtain rfl := List.mem_singleton.mp hpc'
          rcases StartPc.step_noTask inside quiet with ⟨marking, -, -⟩ | ⟨-, quiet'⟩
          · exact none marking
          · exact h.alone _ member quiet'
      · intro c hc
        cases inner with
        | ret result => cases hc
        | next pc' =>
          obtain ⟨rfl, rfl⟩ := CallPc.start.inj (List.mem_singleton.mp hc)
          rcases StartPc.step_noTask inside rfl with ⟨-, -, marked⟩ | ⟨absurd, -⟩
          · exact marked
          · exact absurd.elim rfl
    | stop pc =>
      obtain ⟨inner, inside, rfl⟩ := CallPc.step_stop hstep
      refine ⟨outlined, le_of_eq_of_le count.symm h.atMostOne, ?_, ?_, ?_⟩
      · show 0 < (s.tasks ++ _).countP TaskPc.live → _
        rw [← count]
        intro some
        rcases StopPc.step_owned inside with ⟨d, rfl, -⟩ | same
        · have := h.alone _ member rfl
          omega
        · exact same.trans (h.owned some)
      · show ∀ pc' ∈ _, _ → (s.tasks ++ _).countP TaskPc.live = 0
        rw [← count]
        intro pc' hpc' quiet
        cases inner with
        | ret result => cases hpc'
        | next pc' =>
          obtain rfl := List.mem_singleton.mp hpc'
          obtain ⟨granted, d, rfl⟩ := StopPc.step_noTask inside quiet
          exact own granted ⟨d, rfl⟩
      · intro c hc
        cases inner <;> simp at hc
  · -- the new task is the only live one, and its ownership has been marked before
    have alone := h.alone _ member rfl
    have marked := h.created _ member
    obtain ⟨inner, inside, rfl⟩ := CallPc.step_start hstep
    obtain ⟨rfl, rfl⟩ := Prod.mk.inj (Option.some.inj inside)
    have one :
        (s.tasks ++ (CallPc.start (w := w) c .createTask).created true).countP TaskPc.live = 1 := by
      rw [created, List.countP_append]
      unfold liveTasks at alone
      rw [alone]
      rfl
    refine ⟨outlined, one.le, fun _ => marked, ?_, ?_⟩
    · intro pc' hpc' quiet
      obtain rfl := List.mem_singleton.mp hpc'
      cases quiet
    · intro c' hc'
      cases List.mem_singleton.mp hc'

theorem Exclusive.task (h : s.Exclusive) {i : ℕ} {env : TaskEnv} {pc : TaskPc w}
    {shared : Shared w} {control : Control (TaskPc w) Unit}
    (outlined : ({ s with shared := shared, tasks := resume s.tasks i control } : System w).Outlined)
    (hpc : s.tasks[i]? = some pc) (hstep : pc.step env s.shared = some (shared, control)) :
    ({ s with shared := shared, tasks := resume s.tasks i control } : System w).Exclusive := by
  have count : (resume s.tasks i control).countP TaskPc.live + [pc].countP TaskPc.live =
      s.liveTasks + control.live.countP TaskPc.live := countP_resume TaskPc.live hpc control
  have atMostOne := h.atMostOne
  have owned := h.owned
  rcases TaskPc.step_live hstep with ⟨rfl, rfl, -⟩ | ⟨same, equal⟩
  · have nobody : (resume s.tasks i (.next .giveStopped : Control (TaskPc w) Unit)).countP
        TaskPc.live = 0 := by
      have self : [TaskPc.acknowledge (w := w)].countP TaskPc.live = 1 := rfl
      have left : (Control.next .giveStopped : Control (TaskPc w) Unit).live.countP TaskPc.live = 0 :=
        rfl
      omega
    have alive : 0 < s.liveTasks :=
      List.countP_pos_iff.mpr ⟨_, List.mem_of_getElem? hpc, rfl⟩
    refine ⟨outlined, nobody.le.trans zero_le_one, ?_, fun _ _ _ => nobody, ?_⟩
    · intro some
      exact absurd nobody (Nat.pos_iff_ne_zero.mp some)
    · intro c hc
      have := h.alone _ hc rfl
      omega
  · have fewer : (resume s.tasks i control).countP TaskPc.live ≤ s.liveTasks := by omega
    refine ⟨outlined, fewer.trans atMostOne, ?_, ?_, ?_⟩
    · intro some
      exact same.trans (owned (lt_of_lt_of_le some fewer))
    · intro pc' hpc' quiet
      have none := h.alone pc' hpc' quiet
      exact Nat.le_zero.mp (none ▸ fewer)
    · intro c hc
      exact same.trans (h.created c hc)

theorem Exclusive.next (h : s.Exclusive) (serial : s.serialized k = true)
    (own : s.ownToken k = true) (step : s.next k = some t) : t.Exclusive := by
  have outlined := next_outlined h.outlined serial step
  cases k with
  | beginStart configuration =>
    obtain rfl := Option.some.inj step
    have empty : s.calls = [] := List.isEmpty_iff.mp serial
    refine ⟨outlined, h.atMostOne, h.owned, ?_, ?_⟩
    · simp [empty, CallPc.noTask]
    · simp [empty]
  | beginStop =>
    obtain rfl := Option.some.inj step
    have empty : s.calls = [] := List.isEmpty_iff.mp serial
    refine ⟨outlined, h.atMostOne, h.owned, ?_, ?_⟩
    · simp [empty, CallPc.noTask]
    · simp [empty]
  | call i ok =>
    obtain ⟨pc, -, -, hpc, -, -⟩ := next_call step
    have member := List.mem_of_getElem? hpc
    obtain ⟨single, outline⟩ := h.outlined.outline member
    obtain ⟨shared, control, hstep, rfl⟩ := next_call_single single step
    refine h.call member outline outlined ?_ hstep
    rintro rfl ⟨d, rfl⟩
    simpa [ownToken, hpc] using own
  | task i env =>
    obtain ⟨pc, shared, control, hpc, hstep, rfl⟩ := next_task step
    exact h.task outlined hpc hstep
  | beginReceive timeoutMs =>
    obtain ⟨-, step⟩ := Option.ite_none_right_eq_some.mp step
    obtain rfl := Option.some.inj step
    exact ⟨outlined, h.atMostOne, h.owned, h.alone, h.created⟩
  | consumer granted =>
    obtain ⟨pc, shared, control, -, hstep, rfl⟩ := next_consumer step
    have same := ReceivePc.step_lifecycle hstep
    refine ⟨outlined, h.atMostOne, ?_, h.alone, ?_⟩
    · show _ → shared.lifecycle.taskOwned = true
      rw [same]
      exact h.owned
    · show ∀ c, _ → shared.lifecycle.taskOwned = true
      rw [same]
      exact h.created
  | beginStatistics | observer | busOff =>
    obtain ⟨frames, driver, observers, -, rfl⟩ := next_beside rfl step
    exact ⟨outlined, h.atMostOne, h.owned, h.alone, h.created⟩

/-- What the component promises about its receive task, in a state and for its next step. -/
def TaskExclusive (s : System w) : Prop :=
  s.liveTasks ≤ 1 ∧
    (∀ pc ∈ s.calls, pc.driverCall = some .uninstall → s.liveTasks = 0) ∧
    ∀ pc k t, s.calls = [.stop pc] → s.returned k = some .ok → s.next k = some t → t.liveTasks = 0

theorem Exclusive.taskExclusive (h : s.Exclusive) : s.TaskExclusive := by
  refine ⟨h.atMostOne, ?_, ?_⟩
  · intro pc hpc uninstalling
    exact h.none ((h.outlined.driverCall hpc).2.2 uninstalling).2.2
  · intro pc k t single returned step
    obtain ⟨ok, pc', shared, single', outline, hstep, rfl⟩ := returned_call h.outlined returned step
    obtain rfl := List.singleton_inj.mp (single.symm.trans single')
    obtain ⟨inner, inside, same⟩ := CallPc.step_stop hstep
    cases inner with
    | next pc => cases same
    | ret value =>
      obtain rfl := Control.ret.inj same
      rcases StopPc.step_returns outline inside with ⟨-, absurd, -⟩ | ⟨-, -, finished⟩
      · cases absurd
      · have sound : shared.lifecycle.Sound := CallPc.step_outline outline hstep
        have free := (sound.stopped (finished.mp rfl)).2.2
        rcases StopPc.step_owned inside with ⟨d, rfl, -⟩ | unchanged
        · cases (Prod.mk.inj (Option.some.inj inside)).2
        · show (s.tasks ++ []).countP TaskPc.live = 0
          rw [List.append_nil]
          exact h.none (unchanged.symm.trans free)

/-- In every serialized run in which no stop() is granted the token of an earlier task, at
most one receive task is live, the driver is never uninstalled under it, and no stop()
returns Ok while it is. -/
theorem task_exclusive_of_own_tokens
    (run : exec (guarded (fun s k => serialized s k && ownToken s k) next) ({} : System w) ks =
      some s) : s.TaskExclusive := by
  refine Exclusive.taskExclusive (exec_invariant (P := Exclusive) ?_ run ?_)
  · intro s k t h step
    obtain ⟨cond, step⟩ := guarded_eq_some.mp step
    rw [Bool.and_eq_true] at cond
    exact h.next cond.1 cond.2 step
  · exact ⟨⟨by simp, by simp, fun _ => ⟨rfl, rfl, rfl⟩⟩, Nat.zero_le 1,
      by rintro ⟨⟩, by simp, by simp⟩

/-- A start(), and a stop() up to its last step that waits for the task and takes its token. -/
def cleanRun : List Choice :=
  startRun ++ .beginStop :: List.replicate 7 (.call 0 true) ++ List.replicate 4 (.task 0 {}) ++
    List.replicate 8 (.call 0 true)

theorem task_exclusive_of_own_tokens_clean :
    let s := final (guarded (fun s k => serialized s k && ownToken s k) next) ({} : System 32)
      cleanRun
    s.TaskExclusive ∧ s.returned (.call 0 true) = some .ok ∧
      ∀ t, s.next (.call 0 true) = some t → t.liveTasks = 0 := by
  intro s
  have exclusive : s.TaskExclusive :=
    task_exclusive_of_own_tokens (exec_eq_final _ _ cleanRun (by decide))
  have last : s.calls = [.stop .drainAvailable] := rfl
  have returned : s.returned (.call 0 true) = some .ok := by decide
  exact ⟨exclusive, returned, fun t step => exclusive.2.2 _ _ t last returned step⟩

/-- The first task acknowledges, and a stop() that sees this returns Ok before the task
has given its token. -/
def owedTokenRun : List Choice :=
  startRun ++ .beginStop :: List.replicate 3 (.call 0 true) ++ List.replicate 2 (.task 0 {}) ++
    List.replicate 12 (.call 0 true)

/-- After the next start() the token arrives, and a stop() takes it for the second task's,
up to its call of `twai_driver_uninstall`. -/
def staleTokenRun : List Choice :=
  owedTokenRun ++ startRun ++ List.replicate 2 (.task 0 {}) ++
    .beginStop :: List.replicate 10 (.call 0 true)

/-- The law fails in all its parts on one run: the driver is uninstalled under the second
task, stop() returns Ok, and a third start() creates another task beside it. -/
theorem stale_token_breaks_exclusivity :
    let uninstalling := final (guarded serialized next) ({} : System 32) staleTokenRun
    let returning := final (guarded serialized next) uninstalling (List.replicate 5 (.call 0 true))
    let stopped := final (guarded serialized next) returning [.call 0 true]
    let restarted := final (guarded serialized next) stopped startRun
    exec (guarded serialized next) ({} : System 32)
        (staleTokenRun ++ List.replicate 5 (.call 0 true) ++ [.call 0 true] ++ startRun) =
      some restarted ∧
    (uninstalling.calls.map CallPc.driverCall = [some .uninstall] ∧ uninstalling.liveTasks = 1) ∧
    (returning.returned (.call 0 true) = some .ok ∧ stopped.liveTasks = 1) ∧
    restarted.liveTasks = 2 := by
  refine ⟨?_, by decide, by decide, by decide⟩
  have first := exec_eq_final (guarded serialized next) ({} : System 32) staleTokenRun (by decide)
  have second := exec_eq_final (guarded serialized next)
    (final (guarded serialized next) ({} : System 32) staleTokenRun)
    (List.replicate 5 (.call 0 true)) (by decide)
  have third := exec_eq_final (guarded serialized next)
    (final (guarded serialized next) (final (guarded serialized next) ({} : System 32)
      staleTokenRun) (List.replicate 5 (.call 0 true))) [.call 0 true] (by decide)
  have fourth := exec_eq_final (guarded serialized next)
    (final (guarded serialized next) (final (guarded serialized next)
      (final (guarded serialized next) ({} : System 32) staleTokenRun)
      (List.replicate 5 (.call 0 true))) [.call 0 true]) startRun (by decide)
  exact exec_trans (exec_trans (exec_trans first second) third) fourth

end System

end CanTelemetry.CanBus
