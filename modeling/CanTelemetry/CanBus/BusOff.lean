import CanTelemetry.CanBus.Driver
import CanTelemetry.CanBus.Exclusivity
import CanTelemetry.Foundation.Progress

/-! Recovery from bus-off. stop() uninstalls the driver only after `twai_stop` has
succeeded or `driver_started` is cleared, and a driver that has gone bus-off meets neither.
Between calls, therefore, stop() can recover the component exactly while the driver has
not entered bus-off. -/

namespace CanTelemetry.CanBus

open Execution Threads

variable {w : ℕ}

/-- Both semaphores exist. -/
def Shared.equipped (sh : Shared w) : Prop := sh.available.isSome ∧ sh.taskStopped.isSome

/-- The points of a start() at which the state may be reserved without the semaphores. -/
def CallPc.creating : CallPc w → Bool
  | .start _ .createAvailable | .start _ .createTaskStopped | .start _ (.abort _ _) => true
  | _ => false

/-- The points of a call that are reached without the semaphores. -/
def CallPc.unequipped : CallPc w → Bool
  | .start _ .beginStart | .start _ .refused | .stop (.begin _) => true
  | pc => pc.creating

/-- The points of a start() between marking the ownership and creating the task or undoing it. -/
def CallPc.owesTask : CallPc w → Bool
  | .start _ .createTask | .start _ .unrequest | .start _ .disown => true
  | _ => false

theorem StartPc.step_equipped {configuration : Configuration} {sh sh' : Shared w} {ok : Bool}
    {pc : StartPc w} {control : Control (StartPc w) Result} (equipped : sh.equipped)
    (step : pc.step configuration sh ok = some (sh', control)) : sh'.equipped := by
  obtain ⟨available, taskStopped⟩ := equipped
  cases pc with
  | beginStart =>
    simp only [StartPc.step] at step
    split at step <;> obtain ⟨rfl, -⟩ := Prod.mk.inj (Option.some.inj step) <;>
      exact ⟨available, taskStopped⟩
  | createAvailable =>
    obtain ⟨rfl, -⟩ := Prod.mk.inj (Option.some.inj step)
    exact ⟨by simp [available], taskStopped⟩
  | createTaskStopped =>
    obtain ⟨rfl, -⟩ := Prod.mk.inj (Option.some.inj step)
    exact ⟨available, by simp [taskStopped]⟩
  | drainAvailable =>
    rcases takeNow_eq_some step with ⟨s, s', -, -, same⟩ | ⟨s, -, -, same⟩ <;>
      obtain ⟨rfl, -⟩ := Prod.mk.inj same
    · exact ⟨rfl, taskStopped⟩
    · exact ⟨available, taskStopped⟩
  | drainTaskStopped =>
    rcases takeNow_eq_some step with ⟨s, s', -, -, same⟩ | ⟨s, -, -, same⟩ <;>
      obtain ⟨rfl, -⟩ := Prod.mk.inj same
    · exact ⟨available, rfl⟩
    · exact ⟨available, taskStopped⟩
  | driverInstall =>
    cases ok <;> obtain ⟨rfl, -⟩ := Prod.mk.inj (Option.some.inj step) <;>
      exact ⟨available, taskStopped⟩
  | driverStart =>
    cases ok <;> obtain ⟨rfl, -⟩ := Prod.mk.inj (Option.some.inj step) <;>
      exact ⟨available, taskStopped⟩
  | driverStop =>
    cases ok <;> obtain ⟨rfl, -⟩ := Prod.mk.inj (Option.some.inj step) <;>
      exact ⟨available, taskStopped⟩
  | driverUninstall result =>
    cases ok <;> obtain ⟨rfl, -⟩ := Prod.mk.inj (Option.some.inj step) <;>
      exact ⟨available, taskStopped⟩
  | _ =>
    obtain ⟨rfl, -⟩ := Prod.mk.inj (Option.some.inj step)
    exact ⟨available, taskStopped⟩

theorem StopPc.step_equipped {sh sh' : Shared w} {ok : Bool} {pc : StopPc}
    {control : Control StopPc Result} (equipped : sh.equipped)
    (step : pc.step sh ok = some (sh', control)) : sh'.equipped := by
  obtain ⟨available, taskStopped⟩ := equipped
  cases pc with
  | driverStop =>
    cases ok <;> obtain ⟨rfl, -⟩ := Prod.mk.inj (Option.some.inj step) <;>
      exact ⟨available, taskStopped⟩
  | driverUninstall =>
    cases ok <;> obtain ⟨rfl, -⟩ := Prod.mk.inj (Option.some.inj step) <;>
      exact ⟨available, taskStopped⟩
  | awaitTask driverStopped =>
    rcases takeWithin_eq_some step with ⟨s, s', -, -, -, same⟩ | ⟨-, same⟩ <;>
      obtain ⟨rfl, -⟩ := Prod.mk.inj same
    · exact ⟨available, rfl⟩
    · exact ⟨available, taskStopped⟩
  | dropToken driverStopped =>
    rcases takeNow_eq_some step with ⟨s, s', -, -, same⟩ | ⟨s, -, -, same⟩ <;>
      obtain ⟨rfl, -⟩ := Prod.mk.inj same
    · exact ⟨available, rfl⟩
    · exact ⟨available, taskStopped⟩
  | drainAvailable =>
    simp only [StopPc.step] at step
    split at step
    · obtain ⟨rfl, -⟩ := Prod.mk.inj (Option.some.inj step)
      exact ⟨available, taskStopped⟩
    · rcases takeNow_eq_some step with ⟨s, s', -, -, same⟩ | ⟨s, -, -, same⟩ <;>
        obtain ⟨rfl, -⟩ := Prod.mk.inj same
      · exact ⟨rfl, taskStopped⟩
      · exact ⟨available, taskStopped⟩
  | _ =>
    obtain ⟨rfl, -⟩ := Prod.mk.inj (Option.some.inj step)
    exact ⟨available, taskStopped⟩

theorem CallPc.step_equipped {sh sh' : Shared w} {ok : Bool} {pc : CallPc w}
    {control : Control (CallPc w) Result} (equipped : sh.equipped)
    (step : pc.step sh ok = some (sh', control)) : sh'.equipped := by
  cases pc with
  | start configuration pc =>
    obtain ⟨inner, inside, rfl⟩ := CallPc.step_start step
    exact StartPc.step_equipped equipped inside
  | stop pc =>
    obtain ⟨inner, inside, rfl⟩ := CallPc.step_stop step
    exact StopPc.step_equipped equipped inside

/-- The semaphores exist wherever a call uses them, and outside of a start() that is
creating them whenever the controller is not stopped. -/
structure CallPc.Supplied (pc : CallPc w) (sh : Shared w) : Prop where
  used : pc.unequipped = false → sh.equipped
  active : pc.creating = false → sh.lifecycle.state ≠ .stopped → sh.equipped

theorem CallPc.Supplied.of_equipped {pc : CallPc w} {sh : Shared w} (equipped : sh.equipped) :
    pc.Supplied sh := ⟨fun _ => equipped, fun _ _ => equipped⟩

theorem CallPc.Supplied.of_creating {pc : CallPc w} {sh : Shared w}
    (creating : pc.creating = true) : pc.Supplied sh := by
  have unequipped : pc.unequipped = true := by
    unfold CallPc.unequipped
    split
    · rfl
    · rfl
    · rfl
    · exact creating
  exact ⟨fun absurd => by simp [unequipped] at absurd, fun absurd => by simp [creating] at absurd⟩

/-- The semaphores after a step: for the call that goes on, or between calls. -/
def CallPc.StaysSupplied (sh : Shared w) : Control (CallPc w) Result → Prop
  | .next pc => pc.Supplied sh
  | .ret _ => sh.lifecycle.state ≠ .stopped → sh.equipped

theorem CallPc.StaysSupplied.of_equipped {sh : Shared w} {control : Control (CallPc w) Result}
    (equipped : sh.equipped) : CallPc.StaysSupplied sh control := by
  cases control with
  | next pc => exact CallPc.Supplied.of_equipped equipped
  | ret result => exact fun _ => equipped

theorem Shared.afterCreation_supplied (configuration : Configuration) (sh : Shared w) :
    (CallPc.start configuration sh.afterCreation).Supplied sh := by
  rcases sh.afterCreation_cases with aborting | ⟨-, equipped⟩
  · rw [aborting]
    exact .of_creating rfl
  · exact .of_equipped equipped

theorem StartPc.step_supplied {configuration : Configuration} {sh sh' : Shared w} {ok : Bool}
    {pc : StartPc w} {control : Control (StartPc w) Result}
    (h : (CallPc.start configuration pc).Supplied sh)
    (outline : (CallPc.start configuration pc).Outline sh.lifecycle)
    (step : pc.step configuration sh ok = some (sh', control)) :
    CallPc.StaysSupplied sh' (control.call (.start configuration) .ret) := by
  cases pc with
  | beginStart =>
    simp only [StartPc.step] at step
    split at step
    · obtain ⟨rfl, rfl⟩ := Prod.mk.inj (Option.some.inj step)
      exact h.active rfl
    · obtain ⟨rfl, rfl⟩ := Prod.mk.inj (Option.some.inj step)
      by_cases stopped : sh.lifecycle.state = .stopped
      · simp only [LifecycleController.beginStart, if_pos stopped]
        exact .of_creating rfl
      · simp only [LifecycleController.beginStart, if_neg stopped]
        exact ⟨by intros; contradiction, fun _ => h.active rfl⟩
  | refused =>
    obtain ⟨rfl, rfl⟩ := Prod.mk.inj (Option.some.inj step)
    exact h.active rfl
  | createAvailable =>
    obtain ⟨rfl, rfl⟩ := Prod.mk.inj (Option.some.inj step)
    exact .of_creating rfl
  | createTaskStopped =>
    obtain ⟨rfl, rfl⟩ := Prod.mk.inj (Option.some.inj step)
    exact Shared.afterCreation_supplied configuration _
  | abort pc result =>
    obtain ⟨rfl, rfl⟩ := Prod.mk.inj (Option.some.inj step)
    have uninstalled := outline.knows.installed false rfl
    have free := outline.knows.disowned rfl
    cases pc with
    | loadInstalled =>
      simp only [AbortPc.step, uninstalled]
      exact .of_creating rfl
    | loadOwned =>
      simp only [AbortPc.step, free]
      exact .of_creating rfl
    | storeStopped => exact fun active => absurd rfl active
  | _ => exact .of_equipped (StartPc.step_equipped (h.used rfl) step)

theorem StopPc.step_supplied {sh sh' : Shared w} {ok : Bool} {pc : StopPc}
    {control : Control StopPc Result} (h : (CallPc.stop pc).Supplied sh)
    (step : pc.step sh ok = some (sh', control)) :
    CallPc.StaysSupplied sh' (control.call .stop .ret) := by
  cases pc with
  | begin pc =>
    obtain ⟨rfl, rfl⟩ := Prod.mk.inj (Option.some.inj step)
    have active := h.active rfl
    rcases pc.step_cases sh.lifecycle ok with looked | ⟨live, marked⟩
    · rw [looked]
      cases state : sh.lifecycle.state with
      | stopped => exact fun live => absurd state live
      | stopping => exact .of_equipped (active (by simp [state]))
      | running => exact .of_equipped (active (by simp [state]))
      | faulted => exact .of_equipped (active (by simp [state]))
    · rw [marked]
      exact .of_equipped (active live)
  | _ => exact .of_equipped (StopPc.step_equipped (h.used rfl) step)

theorem CallPc.step_supplied {sh sh' : Shared w} {ok : Bool} {pc : CallPc w}
    {control : Control (CallPc w) Result} (h : pc.Supplied sh) (outline : pc.Outline sh.lifecycle)
    (step : pc.step sh ok = some (sh', control)) : CallPc.StaysSupplied sh' control := by
  cases pc with
  | start configuration pc =>
    obtain ⟨inner, inside, rfl⟩ := CallPc.step_start step
    exact StartPc.step_supplied h outline inside
  | stop pc =>
    obtain ⟨inner, inside, rfl⟩ := CallPc.step_stop step
    exact StopPc.step_supplied h inside

/-- Ownership that a call has marked leads to a task or is taken back. -/
theorem CallPc.step_owesTask {sh sh' : Shared w} {ok : Bool} {pc : CallPc w}
    {control : Control (CallPc w) Result} (step : pc.step sh ok = some (sh', control))
    (owned : sh'.lifecycle.taskOwned = true) :
    (∀ pc' ∈ control.live, pc'.owesTask = true) ∧ control.live ≠ [] ∨
      pc.created ok = [.loopTest] ∨
      pc.owesTask = false ∧ sh'.lifecycle.taskOwned = sh.lifecycle.taskOwned := by
  cases pc with
  | start configuration pc =>
    obtain ⟨inner, inside, rfl⟩ := CallPc.step_start step
    rcases StartPc.step_owned inside with ⟨rfl, -⟩ | ⟨rfl, freed⟩ | same
    · obtain ⟨rfl, rfl⟩ := Prod.mk.inj (Option.some.inj inside)
      exact .inl ⟨by simp [owesTask], by simp⟩
    · cases freed.symm.trans owned
    · cases pc with
      | createTask =>
        obtain ⟨rfl, rfl⟩ := Prod.mk.inj (Option.some.inj inside)
        cases ok with
        | true => exact .inr (.inl rfl)
        | false => exact .inl ⟨by simp [owesTask], by simp⟩
      | unrequest =>
        obtain ⟨rfl, rfl⟩ := Prod.mk.inj (Option.some.inj inside)
        exact .inl ⟨by simp [owesTask], by simp⟩
      | disown =>
        obtain ⟨rfl, rfl⟩ := Prod.mk.inj (Option.some.inj inside)
        cases owned
      | _ => exact .inr (.inr ⟨rfl, same⟩)
  | stop pc =>
    obtain ⟨inner, inside, rfl⟩ := CallPc.step_stop step
    rcases StopPc.step_owned inside with ⟨d, -, freed⟩ | same
    · cases freed.symm.trans owned
    · exact .inr (.inr ⟨rfl, same⟩)

/-! ### What every serialized run provides -/

namespace System

variable {s t : System w} {k : Choice} {ks : List Choice}

/-- What the calls and the tasks need to go on. -/
structure Provided (s : System w) : Prop where
  coupled : s.Coupled
  tasks : s.tasks ≠ [] → s.shared.equipped
  calls : ∀ pc ∈ s.calls, pc.Supplied s.shared
  between : s.calls = [] → s.shared.lifecycle.state ≠ .stopped → s.shared.equipped
  owner : s.shared.lifecycle.taskOwned = true →
    0 < s.liveTasks ∨ ∃ pc ∈ s.calls, pc.owesTask = true

theorem DriverMoves.equipped (h : DriverMoves s t) : t.shared.equipped ↔ s.shared.equipped := by
  unfold Shared.equipped
  rw [h.available, h.taskStopped]

/-- A step of another thread than a call adds no task, and a live task that leaves its loop
gives up the ownership. -/
theorem next_tasks (step : s.next k = some t) (other : ∀ i ok, k ≠ .call i ok) :
    (t.tasks ≠ [] → s.tasks ≠ []) ∧
      (t.shared.lifecycle.taskOwned = true → 0 < s.liveTasks → 0 < t.liveTasks) := by
  cases k with
  | call i ok => exact absurd rfl (other i ok)
  | task i env =>
    obtain ⟨pc, shared, control, hpc, hstep, rfl⟩ := next_task step
    have member := List.mem_of_getElem? hpc
    refine ⟨fun _ => List.ne_nil_of_mem member, ?_⟩
    intro owned some
    rcases TaskPc.step_live hstep with ⟨-, -, freed⟩ | ⟨-, equal⟩
    · cases freed.symm.trans owned
    · show 0 < (resume s.tasks i control).countP TaskPc.live
      have count : (resume s.tasks i control).countP TaskPc.live + [pc].countP TaskPc.live =
          s.liveTasks + control.live.countP TaskPc.live := countP_resume TaskPc.live hpc control
      omega
  | beginStart c =>
    obtain rfl := Option.some.inj step
    exact ⟨id, fun _ => id⟩
  | beginStop =>
    obtain rfl := Option.some.inj step
    exact ⟨id, fun _ => id⟩
  | beginReceive timeoutMs =>
    obtain ⟨-, step⟩ := Option.ite_none_right_eq_some.mp step
    obtain rfl := Option.some.inj step
    exact ⟨id, fun _ => id⟩
  | consumer granted =>
    obtain ⟨pc, shared, control, -, -, rfl⟩ := next_consumer step
    exact ⟨id, fun _ => id⟩
  | beginStatistics | observer | busOff =>
    obtain ⟨frames, driver, observers, -, rfl⟩ := next_beside rfl step
    exact ⟨id, fun _ => id⟩

theorem Provided.call (h : s.Provided) {ok : Bool} {pc : CallPc w} {shared : Shared w}
    {control : Control (CallPc w) Result} (single : s.calls = [pc])
    (coupled : ({ s with
      shared := shared
      calls := control.live
      tasks := s.tasks ++ pc.created ok } : System w).Coupled)
    (hstep : pc.step s.shared ok = some (shared, control)) :
    ({ s with
      shared := shared
      calls := control.live
      tasks := s.tasks ++ pc.created ok } : System w).Provided := by
  have member : pc ∈ s.calls := by simp [single]
  have outline := (h.coupled.outlined.outline member).2
  have supplied := h.calls pc member
  have stays := CallPc.step_supplied supplied outline hstep
  refine ⟨coupled, ?_, ?_, ?_, ?_⟩
  · intro some
    rcases pc.created_cases ok with nothing | ⟨c, rfl, -, -⟩
    · have some' : s.tasks ≠ [] := by
        simpa [nothing] using some
      exact CallPc.step_equipped (h.tasks some') hstep
    · exact CallPc.step_equipped (supplied.used rfl) hstep
  · intro pc' hpc'
    cases control with
    | next pc'' =>
      obtain rfl := List.mem_singleton.mp hpc'
      exact stays
    | ret result => cases hpc'
  · intro empty
    cases control with
    | next pc'' => cases empty
    | ret result => exact stays
  · intro owned
    have count : ({ s with
        shared := shared
        calls := control.live
        tasks := s.tasks ++ pc.created ok } : System w).liveTasks =
        s.liveTasks + (pc.created ok).countP TaskPc.live := List.countP_append
    rcases CallPc.step_owesTask hstep owned with ⟨owing, goesOn⟩ | created | ⟨quiet, same⟩
    · right
      obtain ⟨pc', hpc'⟩ := List.exists_mem_of_ne_nil _ goesOn
      exact ⟨pc', hpc', owing pc' hpc'⟩
    · left
      rw [count, created]
      exact Nat.succ_pos _
    · rcases h.owner (same.symm.trans owned) with some | ⟨pc', hpc', owing⟩
      · left
        rw [count]
        omega
      · rw [single, List.mem_singleton] at hpc'
        rw [hpc', quiet] at owing
        cases owing

theorem Provided.next (h : s.Provided) (serial : s.serialized k = true) (step : s.next k = some t) :
    t.Provided := by
  have coupled := h.coupled.next serial step
  cases k with
  | call i ok =>
    obtain ⟨pc, -, -, hpc, -, -⟩ := next_call step
    obtain ⟨single, -⟩ := h.coupled.outlined.outline (List.mem_of_getElem? hpc)
    obtain ⟨shared, control, hstep, rfl⟩ := next_call_single single step
    exact h.call single coupled hstep
  | beginStart c =>
    have empty : s.calls = [] := List.isEmpty_iff.mp serial
    obtain rfl := Option.some.inj step
    refine ⟨coupled, h.tasks, ?_, by simp, ?_⟩
    · intro pc hpc
      obtain rfl : pc = .start c .beginStart := by simpa [empty] using hpc
      exact ⟨by intros; contradiction, fun _ => h.between empty⟩
    · exact fun owned => .inl ((h.owner owned).resolve_right (by simp [empty]))
  | beginStop =>
    have empty : s.calls = [] := List.isEmpty_iff.mp serial
    obtain rfl := Option.some.inj step
    refine ⟨coupled, h.tasks, ?_, by simp, ?_⟩
    · intro pc hpc
      obtain rfl : pc = .stop (.begin .load) := by simpa [empty] using hpc
      exact ⟨by intros; contradiction, fun _ => h.between empty⟩
    · exact fun owned => .inl ((h.owner owned).resolve_right (by simp [empty]))
  | _ =>
    obtain ⟨calls, interference⟩ := next_interference step (by simp) (by simp) (by simp)
    obtain ⟨tasks, lives⟩ := next_tasks step (by simp)
    have moves := next_driverMoves step (by simp)
    have active : t.shared.lifecycle.state ≠ .stopped → s.shared.lifecycle.state ≠ .stopped :=
      mt interference.stopped_iff.mpr
    refine ⟨coupled, ?_, ?_, ?_, ?_⟩
    · exact fun some => moves.equipped.mpr (h.tasks (tasks some))
    · rw [calls]
      intro pc hpc
      obtain ⟨used, creating⟩ := h.calls pc hpc
      exact ⟨fun uses => moves.equipped.mpr (used uses),
        fun done live => moves.equipped.mpr (creating done (active live))⟩
    · rw [calls]
      exact fun empty live => moves.equipped.mpr (h.between empty (active live))
    · rw [calls]
      intro owned
      exact (h.owner (interference.owned owned)).imp_left (lives owned)

/-- Every serialized run provides it. -/
theorem exec_provided (run : exec (guarded serialized next) ({} : System w) ks = some s) :
    s.Provided := by
  refine exec_invariant (P := Provided) ?_ run ?_
  · intro s k t h step
    obtain ⟨serial, step⟩ := guarded_eq_some.mp step
    exact h.next serial step
  · exact ⟨exec_coupled (exec_nil _), by simp, by simp, fun _ live => absurd rfl live, by simp⟩

end System

/-! ### A task that is no longer requested leaves its loop -/

/-- How many undisturbed steps are left at most. -/
def WatermarkPc.variant (watermark : BitVec 32) : WatermarkPc → ℕ
  | .load _ => 2
  | .exchange _ expected => if watermark = expected then 1 else 2

def PushPc.variant (watermark : BitVec 32) : PushPc w VehicleCore.RawCanFrame → ℕ
  | .countQueued | .countOverflow => 1
  | .countDropped => 2
  | .updateWatermark pc => 1 + pc.variant watermark
  | .storeHead _ _ _ => 4
  | .writeSlot _ _ _ => 5
  | .loadTail _ _ => 6
  | .loadHead _ => 7
  | .countReceived _ => 8

def LatchFaultPc.variant (state : LifecycleState) : LatchFaultPc → ℕ
  | .load => 2
  | .exchange current _ => if state = current then 1 else 2

def LatchPc.variant (state : LifecycleState) : LatchPc → ℕ
  | .wake => 1
  | .latch pc => 1 + pc.variant state
  | .unrequest => 4

def TaskPc.variant (sh : Shared w) : TaskPc w → ℕ
  | .giveStopped | .delete => 0
  | .acknowledge => 1
  | .loopTest => 2
  | .readAlerts => 3
  | .storeLast _ => 4
  | .recordMissed _ => 5
  | .recordBusErrors _ => 6
  | .readStatus => 7
  | .receive | .giveAvailable | .recordInvalid => 8
  | .push pc => 8 + pc.variant sh.frames.queueHighWatermark
  | .stamp _ => 17
  | .latch pc => 1 + pc.variant sh.lifecycle.state
  | .recordBusOff => 6

theorem WatermarkPc.step_variant (ring : FrameRing w queueCapacity VehicleCore.RawCanFrame)
    (pc : WatermarkPc) :
    ∀ pc' ∈ (pc.step ring true).2.live,
      pc'.variant (pc.step ring true).1.queueHighWatermark < pc.variant ring.queueHighWatermark := by
  have tested (depth : BitVec 32) : ∀ pc' ∈ (test depth ring.queueHighWatermark).live,
      pc'.variant ring.queueHighWatermark = 1 := by
    unfold test
    split <;> simp [variant]
  intro pc' hpc'
  cases pc with
  | load depth =>
    rw [show (step ring true (.load depth)).1 = ring from rfl, tested depth pc' hpc']
    exact Nat.lt_succ_self 1
  | exchange depth expected =>
    by_cases same : ring.queueHighWatermark = expected
    · simp [step, same] at hpc'
    · simp only [step, same, and_false, if_false] at hpc' ⊢
      rw [tested depth pc' hpc', variant, if_neg same]
      exact Nat.lt_succ_self 1

theorem PushPc.step_variant (ring : FrameRing w queueCapacity VehicleCore.RawCanFrame)
    (pc : PushPc w VehicleCore.RawCanFrame) :
    ∀ pc' ∈ (pc.step ring true).2.live,
      pc'.variant (pc.step ring true).1.queueHighWatermark < pc.variant ring.queueHighWatermark := by
  cases pc with
  | updateWatermark pc =>
    have falls := pc.step_variant ring
    have least : 0 < pc.variant ring.queueHighWatermark := by
      cases pc with
      | load depth => exact Nat.zero_lt_two
      | exchange depth expected =>
        simp only [WatermarkPc.variant]
        split <;> simp
    simp only [PushPc.step]
    generalize pc.step ring true = after at falls ⊢
    obtain ⟨ring', control⟩ := after
    cases control with
    | next pc' => simpa [PushPc.variant] using falls
    | ret value =>
      simp only [Control.call_ret, Control.live_next, List.mem_singleton, forall_eq, PushPc.variant]
      omega
  | loadTail frame head =>
    simp only [PushPc.step, Control.live_next, List.mem_singleton, forall_eq]
    split <;> simp [PushPc.variant]
  | _ => simp [PushPc.step, PushPc.variant, WatermarkPc.variant, WatermarkPc.update]

theorem LatchFaultPc.step_variant (c : LifecycleController) (pc : LatchFaultPc) :
    ∀ pc' ∈ (pc.step c true).2.live,
      pc'.variant (pc.step c true).1.state < pc.variant c.state := by
  have tested : ∀ pc' ∈ (test c.state).live, pc'.variant c.state = 1 := by
    cases c.state <;> simp [test, variant]
  intro pc' hpc'
  cases pc with
  | load =>
    rw [show (step c true .load).1 = c from rfl, tested pc' hpc']
    exact Nat.lt_succ_self 1
  | exchange current live =>
    by_cases same : c.state = current
    · simp [step, same] at hpc'
    · simp only [step, same, and_false, if_false] at hpc' ⊢
      rw [tested pc' hpc', variant, if_neg same]
      exact Nat.lt_succ_self 1

theorem LatchPc.step_variant {sh : Shared w} {pc : LatchPc} (equipped : sh.equipped) :
    ∃ sh' control, pc.step sh true = some (sh', control) ∧
      ∀ pc' ∈ control.live, pc'.variant sh'.lifecycle.state < pc.variant sh.lifecycle.state := by
  cases pc with
  | unrequest => exact ⟨_, _, rfl, by simp [variant, LatchFaultPc.variant]⟩
  | latch pc =>
    refine ⟨_, _, rfl, ?_⟩
    have falls := pc.step_variant sh.lifecycle
    have least : 0 < pc.variant sh.lifecycle.state := by
      cases pc with
      | load => exact Nat.zero_lt_two
      | exchange current live =>
        simp only [LatchFaultPc.variant]
        split <;> simp
    dsimp only
    generalize pc.step sh.lifecycle true = after at falls ⊢
    obtain ⟨c, control⟩ := after
    cases control with
    | next pc' => simpa [variant] using falls
    | ret new =>
      simp only [Control.call_ret]
      split
      · simp only [Control.live_next, List.mem_singleton, forall_eq, variant]
        omega
      · simp
  | wake =>
    obtain ⟨s, hs⟩ := Option.isSome_iff_exists.mp equipped.1
    have woken : wake.step sh true = some ({ sh with available := some s.give }, .ret ()) := by
      simp only [step, hs, Option.map_some]
    exact ⟨_, _, woken, by simp⟩

/-- With no message, no failure and no bus-off alert, a live task goes on towards its exit
once it is not requested any more. -/
theorem TaskPc.step_variant {sh : Shared w} {pc : TaskPc w} (equipped : sh.equipped)
    (released : sh.receiveRequested = false) (live : pc.live = true) :
    ∃ sh' control, pc.step {} sh = some (sh', control) ∧
      (control = .next .giveStopped ∧ sh'.lifecycle.taskOwned = false ∨
        ∃ pc', control = .next pc' ∧ pc'.live = true ∧ pc'.variant sh' < pc.variant sh) := by
  cases pc with
  | acknowledge => exact ⟨_, _, rfl, .inl ⟨rfl, rfl⟩⟩
  | loopTest =>
    refine ⟨_, _, rfl, .inr ⟨.acknowledge, ?_, rfl, Nat.lt_succ_self 1⟩⟩
    rw [released]
    rfl
  | stamp message =>
    refine ⟨_, _, rfl, .inr ?_⟩
    dsimp only
    split
    case isTrue valid => exact ⟨.push (.countReceived _), rfl, rfl, Nat.lt_succ_self 16⟩
    case isFalse invalid => exact ⟨.recordInvalid, rfl, rfl, by simp [variant]⟩
  | push pc =>
    have falls := pc.step_variant sh.frames
    refine ⟨_, _, rfl, .inr ?_⟩
    have least : 0 < pc.variant sh.frames.queueHighWatermark := by
      cases pc <;> simp only [PushPc.variant] <;> omega
    dsimp only
    generalize pc.step sh.frames true = after at falls ⊢
    obtain ⟨ring, control⟩ := after
    cases control with
    | next pc' => exact ⟨.push pc', rfl, rfl, by simpa [variant] using falls⟩
    | ret accepted =>
      cases accepted with
      | true => exact ⟨.giveAvailable, rfl, rfl, by simp [variant, least]⟩
      | false => exact ⟨.readStatus, rfl, rfl, by simp only [variant]; omega⟩
  | giveAvailable =>
    obtain ⟨s, hs⟩ := Option.isSome_iff_exists.mp equipped.1
    have given : giveAvailable.step {} sh =
        some ({ sh with available := some s.give }, .next .readStatus) := by
      simp only [step, hs, Option.map_some]
    exact ⟨_, _, given, .inr ⟨.readStatus, rfl, rfl, by simp [variant]⟩⟩
  | latch pc =>
    obtain ⟨sh', control, inside, falls⟩ := pc.step_variant equipped
    have outer : (TaskPc.latch pc).step {} sh =
        some (sh', control.call .latch fun _ => .next .acknowledge) := by
      simp only [step, inside, Option.map_some]
    refine ⟨_, _, outer, .inr ?_⟩
    have least : 0 < pc.variant sh.lifecycle.state := by
      cases pc <;> simp only [LatchPc.variant] <;> omega
    cases control with
    | next pc' => exact ⟨.latch pc', rfl, rfl, by simpa [variant] using falls⟩
    | ret value => exact ⟨.acknowledge, rfl, rfl, by simp only [variant]; omega⟩
  | giveStopped => cases live
  | delete => cases live
  | _ => exact ⟨_, _, rfl, .inr ⟨_, rfl, rfl, by simp [variant, LatchPc.variant]⟩⟩

/-! ### A stop() with nothing to wait for finishes -/

/-- The points after `unrequest` of a stop() that has not had to wait for the task. -/
def StopPc.finishing : StopPc → Bool
  | .begin _ | .unrequest | .awaitTask _ | .acknowledge _ => false
  | pc => pc.onTrack

theorem StopPc.of_finishing {pc : StopPc} (finishing : pc.finishing = true) :
    pc.onTrack = true ∧ ∀ p, pc ≠ .begin p := by
  cases pc with
  | begin pc => cases finishing
  | unrequest => cases finishing
  | awaitTask driverStopped => cases finishing
  | acknowledge driverStopped => cases finishing
  | _ => exact ⟨finishing, by simp⟩

def StopPc.variant (sh : Shared w) : StopPc → ℕ
  | .drainAvailable => (sh.available.map Semaphore.tokens).getD 0
  | .reconcile (.store _) _ _ _ => queueCapacity + 1
  | .reconcile .loadInstalled _ _ _ => queueCapacity + 2
  | .reconcile .loadOwned _ _ _ => queueCapacity + 3
  | .markUninstalled => queueCapacity + 4
  | .driverUninstall => queueCapacity + 5
  | .loadInstalled _ _ => queueCapacity + 6
  | .dropToken _ => queueCapacity + 7
  | .loadOwned _ => queueCapacity + 8
  | .markStopped => queueCapacity + 9
  | .driverStop => queueCapacity + 10
  | .loadStarted => queueCapacity + 11
  | _ => 0

theorem StopPc.variant_drainAvailable (sh : Shared w) :
    StopPc.drainAvailable.variant sh ≤ queueCapacity := by
  cases available : sh.available with
  | none => simp [variant, available]
  | some s => simpa [variant, available] using s.within

theorem StopPc.step_finishing {sh : Shared w} {pc : StopPc} (equipped : sh.equipped)
    (free : sh.lifecycle.taskOwned = false) (finishing : pc.finishing = true) :
    ∃ sh' control, pc.step sh true = some (sh', control) ∧ sh'.lifecycle.taskOwned = false ∧
      ∀ pc' ∈ control.live, pc'.finishing = true ∧ pc'.variant sh' < pc.variant sh := by
  cases pc with
  | begin pc => cases finishing
  | unrequest => cases finishing
  | awaitTask driverStopped => cases finishing
  | acknowledge driverStopped => cases finishing
  | loadStarted =>
    refine ⟨_, _, rfl, free, ?_⟩
    cases sh.lifecycle.driverStarted <;> simp [StopPc.finishing, onTrack, variant]
  | loadOwned driverStopped =>
    refine ⟨_, _, rfl, free, ?_⟩
    obtain rfl : driverStopped = true := finishing
    simp [free, StopPc.finishing, onTrack, variant]
  | dropToken driverStopped =>
    obtain rfl : driverStopped = true := finishing
    obtain ⟨s, hs⟩ := Option.isSome_iff_exists.mp equipped.2
    cases taken : s.take? with
    | none =>
      have step : (dropToken true).step sh true = some (sh, .next (.loadInstalled true true)) := by
        simp [StopPc.step, takeNow, hs, taken]
      exact ⟨_, _, step, free, by simp [StopPc.finishing, onTrack, variant]⟩
    | some s' =>
      have step : (dropToken true).step sh true =
          some ({ sh with taskStopped := some s' }, .next (.loadInstalled true true)) := by
        simp [StopPc.step, takeNow, hs, taken]
      exact ⟨_, _, step, free, by simp [StopPc.finishing, onTrack, variant]⟩
  | loadInstalled driverStopped taskStopped =>
    obtain ⟨rfl, rfl⟩ : driverStopped = true ∧ taskStopped = true := by
      simpa [StopPc.finishing, onTrack] using finishing
    refine ⟨_, _, rfl, free, ?_⟩
    cases sh.lifecycle.driverInstalled <;> simp [StopPc.finishing, onTrack, variant]
  | reconcile pc driverStopped taskStopped driverUninstalled =>
    obtain ⟨⟨rfl, rfl⟩, rfl⟩ :
        (driverStopped = true ∧ taskStopped = true) ∧ driverUninstalled = true := by
      simpa [StopPc.finishing, onTrack] using finishing
    cases pc with
    | loadOwned =>
      exact ⟨_, _, rfl, free, by simp [ReconcilePc.step, free, StopPc.finishing, onTrack, variant]⟩
    | loadInstalled =>
      exact ⟨_, _, rfl, free, by simp [ReconcilePc.step, StopPc.finishing, onTrack, variant]⟩
    | store target =>
      refine ⟨_, _, rfl, free, ?_⟩
      simp only [ReconcilePc.step, Control.call_ret, and_self, if_true, Control.live_next,
        List.mem_singleton, forall_eq]
      exact ⟨rfl, Nat.lt_succ_of_le (StopPc.variant_drainAvailable _)⟩
  | drainAvailable =>
    obtain ⟨s, hs⟩ := Option.isSome_iff_exists.mp equipped.1
    cases taken : s.take? with
    | none =>
      have step : drainAvailable.step sh true = some (sh, .ret .ok) := by
        simp [StopPc.step, takeNow, hs, taken]
      exact ⟨_, _, step, free, by simp⟩
    | some s' =>
      have step : drainAvailable.step sh true =
          some ({ sh with available := some s' }, .next .drainAvailable) := by
        simp [StopPc.step, takeNow, hs, taken]
      have fewer := Semaphore.take?_eq_some.mp taken
      refine ⟨_, _, step, free, ?_⟩
      simp only [Control.live_next, List.mem_singleton, forall_eq]
      refine ⟨rfl, ?_⟩
      simp only [variant, hs, Option.map_some, Option.getD_some]
      omega
  | _ => exact ⟨_, _, rfl, free, by simp [StopPc.finishing, onTrack, variant]⟩

namespace System

variable {s t : System w} {k : Choice} {ks : List Choice}

/-- Only stop() calls begin, the driver follows its automaton, and it never fails where the
automaton lets a call succeed. -/
def recovering (s : System w) (k : Choice) : Bool :=
  (match k with | .beginStart _ => false | _ => true) &&
    (s.serialized k && s.documented k && s.noSpurious k)

/-- Some further stop() calls leave the driver uninstalled and the controller stopped. -/
def Recoverable (s : System w) : Prop :=
  Reaches (guarded recovering next) s fun t =>
    t.calls = [] ∧ t.shared.driver = .uninstalled ∧ t.shared.lifecycle.state = .stopped

/-- The component as every serialized run leaves it, and its driver has not gone bus-off. -/
structure Healthy (s : System w) : Prop extends Provided s where
  driver : s.shared.driver ≠ .busOff

/-- While a healthy stop() is alone, every call of the driver it makes may succeed. -/
theorem Healthy.permitted (h : s.Healthy) {pc : StopPc} (member : .stop pc ∈ s.calls)
    {d : DriverCall} (call : (CallPc.stop (w := w) pc).driverCall = some d) :
    d.permitted s.shared.driver = true := by
  have coupled := h.coupled.calls _ member
  unfold CallPc.Coupled at coupled
  rw [CallPc.expects_of_driverCall call] at coupled
  cases pc with
  | driverStop =>
    obtain rfl := Option.some.inj call
    have started := (h.coupled.outlined.driverCall member).2.1 rfl
    have running := (coupled.started started).resolve_right h.driver
    simp [DriverCall.permitted, running]
  | driverUninstall =>
    obtain rfl := Option.some.inj call
    obtain ⟨installed, idle, -⟩ := (h.coupled.outlined.driverCall member).2.2 rfl
    simp [DriverCall.permitted, coupled.stopped installed idle]
  | _ => cases call

/-- One successful step of the stop() in progress. -/
theorem Healthy.stop_step (h : s.Healthy) {pc : StopPc} {shared : Shared w}
    {control : Control StopPc Result} (single : s.calls = [.stop pc])
    (inside : pc.step s.shared true = some (shared, control)) :
    ∃ t, guarded recovering next s (.call 0 true) = some t ∧ t.Healthy ∧ t.shared = shared ∧
      t.calls = (control.call .stop .ret : Control (CallPc w) Result).live := by
  have member : .stop pc ∈ s.calls := by simp [single]
  have first : s.calls[0]? = some (.stop pc) := by rw [single]; rfl
  obtain ⟨-, outline⟩ := h.coupled.outlined.outline member
  have outer : (CallPc.stop pc).step s.shared true = some (shared, control.call .stop .ret) := by
    simp only [CallPc.step, inside, Option.map_some]
  have documented : s.documented (.call 0 true) = true := by
    simp only [System.documented, first, Option.bind_some]
    cases call : (CallPc.stop (w := w) pc).driverCall with
    | none => rfl
    | some d => simpa using h.permitted member call
  have step : s.next (.call 0 true) = some { s with
      shared := shared
      calls := resume s.calls 0 (control.call .stop .ret : Control (CallPc w) Result)
      tasks := s.tasks ++ (CallPc.stop (w := w) pc).created true } := by
    simp only [next, first, outer, Option.bind_some, Option.map_some]
  refine ⟨_, guarded_eq_some.mpr ⟨?_, step⟩, ⟨h.toProvided.next rfl step, ?_⟩, rfl, ?_⟩
  · simp [recovering, documented, serialized, noSpurious]
  · cases CallPc.step_driver outline outer with
    | unrelated driver => exact fun off => h.driver (driver.symm.trans off)
    | recorded expected before driver => exact fun off => h.driver (driver.symm.trans off)
    | called d call succeeds driver =>
      show shared.driver ≠ .busOff
      rw [driver]
      cases d <;> simp [DriverCall.leadsTo]
  · show resume s.calls 0 _ = _
    rw [single]
    exact (resume_singleton (ρ := Result) (rfl : [CallPc.stop pc][0]? = some (.stop pc))).2 _

/-- A stop() that has given its driver calls and waits for nobody, or is over. -/
inductive Finishing (s : System w) : Prop
  | ended (calls : s.calls = []) (stopped : s.shared.lifecycle.state = .stopped)
  | within (pc : StopPc) (calls : s.calls = [.stop pc]) (finishing : pc.finishing = true)
      (equipped : s.shared.equipped)

def stopVariant (s : System w) : ℕ :=
  match s.calls with
  | [.stop pc] => pc.variant s.shared + 1
  | _ => 0

/-- A stop() that finds the ownership given up runs to its end. -/
theorem Healthy.finishes (h : s.Healthy) (calls : s.calls = [.stop .loadStarted])
    (free : s.shared.lifecycle.taskOwned = false) : s.Recoverable := by
  have start : s.Finishing :=
    .within .loadStarted calls rfl ((h.calls (.stop .loadStarted) (by simp [calls])).used rfl)
  refine Reaches.of_variant stopVariant
    (P := fun s => s.Healthy ∧ s.shared.lifecycle.taskOwned = false ∧ s.Finishing) ?_ ⟨h, free, start⟩
  rintro s ⟨h, free, ⟨empty, stopped⟩ | ⟨pc, calls, finishing, equipped⟩⟩
  · have clear := (h.coupled.outlined.sound.stopped stopped).1
    exact .inl ⟨empty, (h.coupled.between empty).uninstalled clear, stopped⟩
  · right
    obtain ⟨shared, control, inside, free', falls⟩ := StopPc.step_finishing equipped free finishing
    obtain ⟨t, step, healthy, rfl, calls'⟩ := h.stop_step calls inside
    refine ⟨_, t, step, ⟨healthy, free', ?_⟩, ?_⟩
    · cases control with
      | next pc' =>
        exact .within pc' calls' (falls pc' (by simp)).1 (StopPc.step_equipped equipped inside)
      | ret result =>
        have outline := (h.coupled.outlined.outline (by rw [calls]; exact List.mem_singleton_self _)).2
        obtain ⟨track, working⟩ := StopPc.of_finishing finishing
        refine .ended calls' ?_
        rcases StopPc.step_returns outline inside with ⟨⟨p, begin⟩, -⟩ | ⟨-, live, done⟩
        · exact absurd begin (working p)
        · have well : StopPc.StaysOnTrack (.ret result) :=
            StopPc.step_onTrack track (Bool.or_true _) inside
          exact done.mp (well.resolve_left live)
    · simp only [stopVariant, calls, calls']
      cases control with
      | next pc' => exact Nat.succ_lt_succ (falls pc' (by simp)).2
      | ret result => exact Nat.succ_pos _

/-- A stop() has taken back the request and stands aside; task `i` is live while it owns. -/
structure Leaving (i : ℕ) (s : System w) : Prop extends Healthy s where
  aside : s.calls = [.stop .loadStarted]
  released : s.shared.receiveRequested = false
  live : s.shared.lifecycle.taskOwned = true → ∃ pc, s.tasks[i]? = some pc ∧ pc.live = true

def taskVariant (i : ℕ) (s : System w) : ℕ :=
  if s.shared.lifecycle.taskOwned then (s.tasks[i]?.map fun pc => pc.variant s.shared + 1).getD 0
  else 0

theorem Leaving.step {i : ℕ} (h : s.Leaving i) (owned : s.shared.lifecycle.taskOwned = true) :
    ∃ t, guarded recovering next s (.task i {}) = some t ∧ t.Leaving i ∧
      t.taskVariant i < s.taskVariant i := by
  obtain ⟨pc, hpc, live⟩ := h.live owned
  have equipped : s.shared.equipped := h.tasks (by rintro none; simp [none] at hpc)
  obtain ⟨shared, control, hstep, goesOn⟩ := TaskPc.step_variant equipped h.released live
  have step : s.next (.task i {}) = some
      { s with shared := shared, tasks := resume s.tasks i control } := by
    simp only [next, hpc, hstep, Option.bind_some, Option.map_some]
  have documented : s.documented (.task i {}) = true := by
    simp only [System.documented]
    split <;> rfl
  have allowed : s.recovering (.task i {}) = true := by
    unfold recovering
    rw [documented]
    rfl
  have keeps := TaskPc.step_keeps hstep
  have inside : i < s.tasks.length := (List.getElem?_eq_some_iff.mp hpc).1
  have healthy : shared.driver ≠ .busOff := fun off => h.driver (keeps.driver.symm.trans off)
  refine ⟨_, guarded_eq_some.mpr ⟨allowed, step⟩, ⟨⟨h.toProvided.next rfl step, healthy⟩, h.aside,
    stays_cleared keeps.requested h.released, ?_⟩, ?_⟩
  · intro owned'
    rcases goesOn with ⟨-, freed⟩ | ⟨pc', rfl, live', -⟩
    · cases freed.symm.trans owned'
    · exact ⟨pc', List.getElem?_set_self inside, live'⟩
  · rcases goesOn with ⟨-, freed⟩ | ⟨pc', rfl, -, falls⟩
    · simp [taskVariant, owned, freed, hpc]
    · have at_i : (resume s.tasks i (.next pc' : Control (TaskPc w) Unit))[i]? = some pc' :=
        List.getElem?_set_self inside
      simp only [taskVariant, owned, hpc, at_i, if_true, Option.map_some, Option.getD_some]
      split
      · exact Nat.succ_lt_succ falls
      · exact Nat.succ_pos _

/-- A task that is not requested any more gives up the ownership while the stop() stands aside. -/
theorem Healthy.releases (h : s.Healthy) (calls : s.calls = [.stop .loadStarted])
    (released : s.shared.receiveRequested = false) : s.Recoverable := by
  have task : ∃ i, s.Leaving i := by
    by_cases owned : s.shared.lifecycle.taskOwned = true
    · have some : 0 < s.liveTasks :=
        (h.owner owned).resolve_right (by simp [calls, CallPc.owesTask])
      obtain ⟨pc, member, live⟩ := List.countP_pos_iff.mp some
      obtain ⟨i, hpc⟩ := List.mem_iff_getElem?.mp member
      exact ⟨i, h, calls, released, fun _ => ⟨pc, hpc, live⟩⟩
    · exact ⟨0, h, calls, released, fun owned' => absurd owned' owned⟩
  obtain ⟨i, leaving⟩ := task
  have left : Reaches (guarded recovering next) s fun t =>
      t.Leaving i ∧ t.shared.lifecycle.taskOwned = false := by
    refine Reaches.of_variant (taskVariant i) ?_ leaving
    intro s leaving
    cases owned : s.shared.lifecycle.taskOwned with
    | false => exact .inl ⟨leaving, rfl⟩
    | true =>
      obtain ⟨t, step, leaving', falls⟩ := leaving.step owned
      exact .inr ⟨_, t, step, leaving', falls⟩
  refine left.trans ?_
  rintro t ⟨leaving, free⟩
  exact leaving.toHealthy.finishes leaving.aside free

/-- A stop() that has found the component not stopped recovers it. -/
theorem Healthy.unrequests (h : s.Healthy) (calls : s.calls = [.stop .unrequest]) :
    s.Recoverable := by
  obtain ⟨t, step, healthy, same, calls'⟩ := h.stop_step calls rfl
  exact .step step (healthy.releases calls' (by rw [same]))

/-- Between calls a healthy component can be recovered. -/
theorem Healthy.recoverable (h : s.Healthy) (quiescent : s.calls = []) : s.Recoverable := by
  by_cases stopped : s.shared.lifecycle.state = .stopped
  · have clear := (h.coupled.outlined.sound.stopped stopped).1
    exact .here ⟨quiescent, (h.coupled.between quiescent).uninstalled clear, stopped⟩
  · have begin : s.next .beginStop = some { s with calls := s.calls ++ [.stop (.begin .load)] } := rfl
    have serial : s.serialized .beginStop = true := List.isEmpty_iff.mpr quiescent
    have allowed : s.recovering .beginStop = true := by
      unfold recovering
      rw [serial]
      rfl
    have first := guarded_eq_some.mpr ⟨allowed, begin⟩
    have healthy : ({ s with calls := s.calls ++ [.stop (.begin .load)] } : System w).Healthy :=
      ⟨h.toProvided.next serial begin, h.driver⟩
    refine .step first ?_
    have looked : (StopPc.begin .load).step s.shared true = some (s.shared,
        (BeginStopPc.test s.shared.lifecycle.state).call .begin fun begun =>
          if begun then .next .unrequest else .ret .notStarted) := rfl
    obtain ⟨t, step, healthy', same, calls⟩ :=
      healthy.stop_step (by rw [quiescent]; rfl) looked
    refine .step step ?_
    have exchange (current : LifecycleState) (live : current ≠ .stopped)
        (state : s.shared.lifecycle.state = current)
        (calls : t.calls = [.stop (.begin (.exchange current live))]) : t.Recoverable := by
      have won : (StopPc.begin (.exchange current live)).step t.shared true =
          some ({ t.shared with lifecycle := { t.shared.lifecycle with state := .stopping } },
            .next .unrequest) := by
        simp [StopPc.step, BeginStopPc.step, same, state]
      obtain ⟨u, step, healthy, -, calls'⟩ := healthy'.stop_step calls won
      exact .step step (healthy.unrequests calls')
    cases state : s.shared.lifecycle.state with
    | stopped => exact absurd state stopped
    | stopping =>
      rw [state] at calls
      exact healthy'.unrequests calls
    | running =>
      rw [state] at calls
      exact exchange .running (by simp) state calls
    | faulted =>
      rw [state] at calls
      exact exchange .faulted (by simp) state calls

end System

/-! ### After bus-off -/

/-- The points of the calls that are made while the driver is bus-off and no task is owned. -/
def CallPc.stuck : CallPc w → Bool
  | .start _ .beginStart | .start _ .refused => true
  | .stop (.begin _) | .stop .unrequest | .stop .loadStarted | .stop .driverStop => true
  | .stop (.loadOwned driverStopped) | .stop (.dropToken driverStopped) => !driverStopped
  | .stop (.loadInstalled driverStopped taskStopped) => !driverStopped && taskStopped
  | .stop (.reconcile _ driverStopped taskStopped driverUninstalled) =>
    !driverStopped && taskStopped && !driverUninstalled
  | _ => false

def CallPc.isStop : CallPc w → Bool
  | .stop _ => true
  | .start _ _ => false

/-- Where a stuck call goes: on among the stuck points, or a stop() reports the driver. -/
def CallPc.StaysStuck (pc : CallPc w) : Control (CallPc w) Result → Prop
  | .next pc' => pc'.stuck = true
  | .ret result => pc.isStop = true → result = .driverFailure

theorem CallPc.step_stuck {sh sh' : Shared w} {ok : Bool} {pc : CallPc w}
    {control : Control (CallPc w) Result} (stuck : pc.stuck = true)
    (active : sh.lifecycle.state ≠ .stopped) (installed : sh.lifecycle.driverInstalled = true)
    (started : sh.lifecycle.driverStarted = true) (free : sh.lifecycle.taskOwned = false)
    (fails : pc.driverCall = some .stop → ok = false)
    (step : pc.step sh ok = some (sh', control)) :
    sh'.lifecycle.taskOwned = false ∧ pc.StaysStuck control := by
  cases pc with
  | start configuration pc =>
    obtain ⟨inner, inside, rfl⟩ := CallPc.step_start step
    cases pc with
    | beginStart =>
      simp only [StartPc.step] at inside
      split at inside
      · obtain ⟨rfl, rfl⟩ := Prod.mk.inj (Option.some.inj inside)
        exact ⟨free, by rintro ⟨⟩⟩
      · obtain ⟨rfl, rfl⟩ := Prod.mk.inj (Option.some.inj inside)
        simp only [LifecycleController.beginStart, if_neg active]
        exact ⟨free, rfl⟩
    | refused =>
      obtain ⟨rfl, rfl⟩ := Prod.mk.inj (Option.some.inj inside)
      exact ⟨free, by rintro ⟨⟩⟩
    | _ => cases stuck
  | stop pc =>
    obtain ⟨inner, inside, rfl⟩ := CallPc.step_stop step
    cases pc with
    | begin pc =>
      obtain ⟨rfl, rfl⟩ := Prod.mk.inj (Option.some.inj inside)
      rcases pc.step_cases sh.lifecycle ok with looked | ⟨-, marked⟩
      · rw [looked]
        refine ⟨free, ?_⟩
        cases state : sh.lifecycle.state with
        | stopped => exact absurd state active
        | _ => rfl
      · rw [marked]
        exact ⟨free, rfl⟩
    | unrequest =>
      obtain ⟨rfl, rfl⟩ := Prod.mk.inj (Option.some.inj inside)
      exact ⟨free, rfl⟩
    | loadStarted =>
      obtain ⟨rfl, rfl⟩ := Prod.mk.inj (Option.some.inj inside)
      rw [started]
      exact ⟨free, rfl⟩
    | driverStop =>
      obtain rfl := fails rfl
      obtain ⟨rfl, rfl⟩ := Prod.mk.inj (Option.some.inj inside)
      exact ⟨free, rfl⟩
    | loadOwned driverStopped =>
      obtain ⟨rfl, rfl⟩ := Prod.mk.inj (Option.some.inj inside)
      refine ⟨free, ?_⟩
      rw [free]
      exact stuck
    | dropToken driverStopped =>
      obtain rfl : driverStopped = false := by simpa [CallPc.stuck] using stuck
      rcases takeNow_eq_some inside with ⟨s, s', -, -, same⟩ | ⟨s, -, -, same⟩ <;>
        obtain ⟨rfl, rfl⟩ := Prod.mk.inj same <;>
        exact ⟨free, rfl⟩
    | loadInstalled driverStopped taskStopped =>
      obtain ⟨rfl, rfl⟩ : driverStopped = false ∧ taskStopped = true := by
        simpa [CallPc.stuck] using stuck
      obtain ⟨rfl, rfl⟩ := Prod.mk.inj (Option.some.inj inside)
      simp only [installed]
      exact ⟨free, rfl⟩
    | reconcile pc driverStopped taskStopped driverUninstalled =>
      obtain ⟨⟨rfl, rfl⟩, rfl⟩ :
          (driverStopped = false ∧ taskStopped = true) ∧ driverUninstalled = false := by
        simpa [CallPc.stuck] using stuck
      obtain ⟨rfl, rfl⟩ := Prod.mk.inj (Option.some.inj inside)
      cases pc with
      | store target => exact ⟨free, fun _ => rfl⟩
      | _ => exact ⟨free, rfl⟩
    | _ => cases stuck

namespace System

variable {s t u : System w} {k : Choice} {ks ls : List Choice} {result : Result}

/-- start() and stop() are serialized, and the driver follows its automaton. -/
def automaton (s : System w) (k : Choice) : Bool := s.serialized k && s.documented k

theorem exec_serialized (run : exec (guarded automaton next) s ks = some t) :
    exec (guarded serialized next) s ks = some t := by
  refine exec_guarded_mono ?_ run
  intro s k allowed
  simp only [automaton, Bool.and_eq_true] at allowed
  exact allowed.1

/-- The driver has gone bus-off. -/
structure Off (s : System w) : Prop extends Coupled s where
  off : s.shared.driver = .busOff

theorem Off.step (h : s.Off) (allowed : s.automaton k = true) (step : s.next k = some t) :
    t.Off := by
  simp only [automaton, Bool.and_eq_true] at allowed
  exact ⟨h.toCoupled.next allowed.1 step, h.toCoupled.busOff_next h.off allowed.2 step⟩

theorem Off.later (h : s.Off) (run : exec (guarded automaton next) s ks = some t) : t.Off := by
  refine exec_invariant (P := Off) ?_ run h
  intro s k t h step
  obtain ⟨allowed, step⟩ := guarded_eq_some.mp step
  exact h.step allowed step

theorem Off.not_recoverable (h : s.Off) : ¬ s.Recoverable := by
  rintro ⟨ks, t, run, -, uninstalled, -⟩
  have run' : exec (guarded automaton next) s ks = some t := by
    refine exec_guarded_mono ?_ run
    intro s k allowed
    simp only [recovering, Bool.and_eq_true] at allowed
    simp [automaton, allowed.2.1.1, allowed.2.1.2]
  cases (h.later run').off.symm.trans uninstalled

/-- Nothing that still happens to the component brings it further. -/
structure Lost (s : System w) : Prop extends Off s where
  free : s.shared.lifecycle.taskOwned = false
  stuck : ∀ pc ∈ s.calls, pc.stuck = true

theorem Off.lost (h : s.Off) (quiescent : s.calls = [])
    (free : s.shared.lifecycle.taskOwned = false) : s.Lost := by
  refine ⟨h, free, ?_⟩
  rw [quiescent]
  simp

/-- A stuck call sees the flags of a driver that is installed and started. -/
theorem Lost.flags (h : s.Lost) :
    s.shared.lifecycle.driverInstalled = true ∧ s.shared.lifecycle.driverStarted = true := by
  have follows : s.shared.driver.Follows s.shared.lifecycle := by
    cases calls : s.calls with
    | nil => exact h.between calls
    | cons pc rest =>
      have member : pc ∈ s.calls := by simp [calls]
      have coupled := h.calls pc member
      have none : pc.expects = none := by
        have stuck := h.stuck pc member
        cases pc with
        | start configuration pc => cases pc <;> first | rfl | cases stuck
        | stop pc => cases pc <;> first | rfl | cases stuck
      unfold CallPc.Coupled at coupled
      rw [none] at coupled
      exact coupled
  rw [h.off] at follows
  exact follows.of_busOff

theorem Lost.call (h : s.Lost) {pc : CallPc w} {ok : Bool} {i : ℕ} {shared : Shared w}
    {control : Control (CallPc w) Result} (hpc : s.calls[i]? = some pc)
    (doc : s.documented (.call i ok) = true) (hstep : pc.step s.shared ok = some (shared, control)) :
    shared.lifecycle.taskOwned = false ∧ pc.StaysStuck control := by
  have member := List.mem_of_getElem? hpc
  obtain ⟨installed, started⟩ := h.flags
  refine CallPc.step_stuck (h.stuck pc member) (h.toCoupled.of_busOff h.off).1 installed started
    h.free ?_ hstep
  intro stops
  cases ok with
  | false => rfl
  | true =>
    simp only [documented, hpc, Option.bind_some, stops, h.off, Option.map_some] at doc
    cases doc

theorem Lost.step (h : s.Lost) (allowed : s.automaton k = true) (step : s.next k = some t) :
    t.Lost := by
  have off := h.toOff.step allowed step
  simp only [automaton, Bool.and_eq_true] at allowed
  cases k with
  | beginStart configuration =>
    have empty : s.calls = [] := List.isEmpty_iff.mp allowed.1
    obtain rfl := Option.some.inj step
    exact ⟨off, h.free, by simp [empty, CallPc.stuck]⟩
  | beginStop =>
    have empty : s.calls = [] := List.isEmpty_iff.mp allowed.1
    obtain rfl := Option.some.inj step
    exact ⟨off, h.free, by simp [empty, CallPc.stuck]⟩
  | call i ok =>
    obtain ⟨pc, -, -, hpc, -, -⟩ := next_call step
    obtain ⟨single, -⟩ := h.outlined.outline (List.mem_of_getElem? hpc)
    obtain ⟨shared, control, hstep, rfl⟩ := next_call_single single step
    obtain ⟨free, stays⟩ := h.call hpc allowed.2 hstep
    refine ⟨off, free, ?_⟩
    cases control with
    | next pc' =>
      intro pc'' member
      obtain rfl := List.mem_singleton.mp member
      exact stays
    | ret result => simp
  | _ =>
    obtain ⟨calls, other⟩ := next_interference step (by simp) (by simp) (by simp)
    refine ⟨off, other.disowned h.free, ?_⟩
    rw [calls]
    exact h.stuck

/-- From a lost component on, every stop() that returns reports a driver failure. -/
theorem Lost.returns (h : s.Lost) (run : exec (guarded automaton next) s ks = some t)
    (last : guarded automaton next t k = some u) {pc : StopPc} (stops : t.calls = [.stop pc])
    (returned : t.returned k = some result) : result = .driverFailure := by
  have lost : t.Lost := by
    refine exec_invariant (P := Lost) ?_ run h
    intro s k t h step
    obtain ⟨allowed, step⟩ := guarded_eq_some.mp step
    exact h.step allowed step
  obtain ⟨allowed, step⟩ := guarded_eq_some.mp last
  simp only [automaton, Bool.and_eq_true] at allowed
  cases k with
  | call i ok =>
    obtain ⟨pc', shared, control, hpc, hstep, -⟩ := next_call step
    obtain ⟨rfl, -⟩ := resume_singleton (ρ := Result) (stops ▸ hpc)
    have stays := (lost.call hpc allowed.2 hstep).2
    simp only [System.returned, hpc, Option.bind_some, hstep] at returned
    cases control with
    | next pc'' => cases returned
    | ret value =>
      obtain rfl := Option.some.inj returned
      exact stays rfl
  | _ => cases returned

/-- In every serialized run with a driver that follows its automaton: between calls the
component can be recovered exactly while its driver is not bus-off; once the receive task
has observed the bus-off alert it never can; and without a task every later stop() then
reports a driver failure. -/
theorem recoverable_iff_not_busOff
    (run : exec (guarded automaton next) ({} : System w) ks = some s) :
    (s.calls = [] → (s.Recoverable ↔ s.shared.driver ≠ .busOff)) ∧
      (∀ i env t, s.tasks[i]? = some .readAlerts → env.alerts = .alerts true →
        guarded automaton next s (.task i env) = some t →
        ∀ ls u, exec (guarded automaton next) t ls = some u → ¬ u.Recoverable) ∧
      (s.calls = [] → s.shared.driver = .busOff → s.shared.lifecycle.taskOwned = false →
        ∀ ls t k u pc result, exec (guarded automaton next) s ls = some t →
          guarded automaton next t k = some u → t.calls = [.stop pc] →
          t.returned k = some result → result = .driverFailure) := by
  have provided := exec_provided (exec_serialized run)
  refine ⟨?_, ?_, ?_⟩
  · intro quiescent
    constructor
    · intro recoverable off
      exact Off.not_recoverable ⟨provided.coupled, off⟩ recoverable
    · exact fun on => Healthy.recoverable ⟨provided, on⟩ quiescent
  · intro i env t hpc alert step ls u later
    obtain ⟨allowed, step⟩ := guarded_eq_some.mp step
    have doc : s.documented (.task i env) = true := by
      simp only [automaton, Bool.and_eq_true] at allowed
      exact allowed.2
    have off : s.shared.driver = .busOff := by
      simpa [documented, hpc, alert] using doc
    have started : s.Off := ⟨provided.coupled, off⟩
    exact ((started.step allowed step).later later).not_recoverable
  · intro quiescent off free ls t k u pc result run last stops returned
    have lost : s.Lost := Off.lost ⟨provided.coupled, off⟩ quiescent free
    exact lost.returns run last stops returned

/-- The driver of a running component goes bus-off; its task observes the alert, latches
the fault and exits. -/
def busOffRun : List Choice :=
  startRun ++ .busOff :: List.replicate 6 (.task 0 {}) ++
    .task 0 { alerts := .alerts true } :: List.replicate 8 (.task 0 {})

theorem recoverable_iff_not_busOff_started :
    (final (guarded automaton next) ({} : System 32) startRun).Recoverable := by
  have run := exec_eq_final (guarded automaton next) ({} : System 32) startRun (by decide)
  exact ((recoverable_iff_not_busOff run).1 (List.isEmpty_iff.mp (by decide))).mpr (by decide)

/-- After the task has exited, no stop() recovers the component: each of them reports a
driver failure. -/
theorem busOff_is_not_recoverable :
    let s := final (guarded automaton next) ({} : System 32) busOffRun
    exec (guarded automaton next) ({} : System 32) busOffRun = some s ∧
      s.tasks.isEmpty = true ∧ s.shared.lifecycle.state = .faulted ∧ ¬ s.Recoverable ∧
      ∀ ls t k u pc result, exec (guarded automaton next) s ls = some t →
        guarded automaton next t k = some u → t.calls = [.stop pc] →
        t.returned k = some result → result = .driverFailure := by
  have run := exec_eq_final (guarded automaton next) ({} : System 32) busOffRun (by decide)
  have serial := exec_serialized run
  have off : (final (guarded automaton next) ({} : System 32) busOffRun).Off :=
    ⟨exec_coupled serial, by decide⟩
  have quiescent : (final (guarded automaton next) ({} : System 32) busOffRun).calls = [] :=
    List.isEmpty_iff.mp (by decide)
  have lost := off.lost quiescent (by decide)
  exact ⟨run, by decide, by decide, off.not_recoverable,
    fun ls t k u pc result run last stops returned => lost.returns run last stops returned⟩

end System

end CanTelemetry.CanBus
