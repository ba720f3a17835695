import CanTelemetry.CanBus.Cleanup

/-! The documented automaton of the TWAI driver beside the controller's flags. The flags
follow the driver from call to call, but the driver may leave Running for bus-off on its
own, and `driver_started` does not tell these two apart. -/

namespace CanTelemetry.CanBus

open Execution Threads

variable {w : ℕ}

/-- The driver states in which a call succeeds. -/
def DriverCall.permitted : DriverCall → DriverState → Bool
  | .install, driver => driver = .uninstalled
  | .start, driver => driver = .stopped
  | .stop, driver => driver = .running
  | .uninstall, driver => driver = .stopped || driver = .busOff

def DriverCall.leadsTo : DriverCall → DriverState
  | .install | .stop => .stopped
  | .start => .running
  | .uninstall => .uninstalled

namespace System

/-- A driver call succeeds only where the automaton lets it, and the bus-off alert is raised
only by a driver that has left Running for bus-off. -/
def documented (s : System w) : Choice → Bool
  | .call i ok => !ok ||
    ((s.calls[i]?.bind CallPc.driverCall).map fun d => d.permitted s.shared.driver).getD true
  | .task i env => match s.tasks[i]? with
    | some .readAlerts => env.alerts ≠ .alerts true || s.shared.driver = .busOff
    | _ => true
  | _ => true

/-- A driver call that the automaton lets succeed does. -/
def noSpurious (s : System w) : Choice → Bool
  | .call i ok => ok ||
    !((s.calls[i]?.bind CallPc.driverCall).map fun d => d.permitted s.shared.driver).getD false
  | _ => true

end System

/-- The state of the driver that the flags stand for. -/
structure DriverState.Follows (driver : DriverState) (c : LifecycleController) : Prop where
  uninstalled : c.driverInstalled = false → driver = .uninstalled
  stopped : c.driverInstalled = true → c.driverStarted = false → driver = .stopped
  started : c.driverStarted = true → driver = .running ∨ driver = .busOff

theorem DriverState.Follows.of_busOff {c : LifecycleController}
    (h : DriverState.busOff.Follows c) : c.driverInstalled = true ∧ c.driverStarted = true := by
  have installed : c.driverInstalled = true := by
    cases set : c.driverInstalled with
    | true => rfl
    | false => cases h.uninstalled set
  refine ⟨installed, ?_⟩
  cases set : c.driverStarted with
  | true => rfl
  | false => cases h.stopped installed set

/-- Between a driver call that succeeded and the flag that records it: where the call led. -/
def CallPc.expects : CallPc w → Option DriverState
  | .start _ .markInstalled | .start _ .markStopped | .stop .markStopped => some .stopped
  | .start _ .markStarted => some .running
  | .start _ (.markUninstalled _) | .stop .markUninstalled => some .uninstalled
  | _ => none

theorem CallPc.expects_ne_busOff (pc : CallPc w) : pc.expects ≠ some .busOff := by
  cases pc with
  | start configuration pc => cases pc <;> simp [expects]
  | stop pc => cases pc <;> simp [expects]

theorem CallPc.active_of_expects {pc : CallPc w} {expected : DriverState}
    (h : pc.expects = some expected) : pc.knows.active = some true := by
  cases pc with
  | start configuration pc => cases pc <;> first | rfl | cases h
  | stop pc => cases pc <;> first | rfl | cases h

theorem CallPc.expects_of_driverCall {pc : CallPc w} {d : DriverCall}
    (h : pc.driverCall = some d) : pc.expects = none := by
  cases pc with
  | start configuration pc => cases pc <;> first | rfl | cases h
  | stop pc => cases pc <;> first | rfl | cases h

def CallPc.Coupled (pc : CallPc w) (driver : DriverState) (c : LifecycleController) : Prop :=
  match pc.expects with
  | some expected => driver = expected ∨ expected = .running ∧ driver = .busOff
  | none => driver.Follows c

/-- How the driver and the two flags about it change in a step of a call. -/
inductive CallPc.DriverStep (pc : CallPc w) (sh sh' : Shared w) (ok : Bool)
    (control : Control (CallPc w) Result) : Prop
  | unrelated (driver : sh'.driver = sh.driver)
      (installed : sh'.lifecycle.driverInstalled = sh.lifecycle.driverInstalled)
      (started : sh'.lifecycle.driverStarted = sh.lifecycle.driverStarted)
      (before : pc.expects = none) (after : ∀ pc' ∈ control.live, pc'.expects = none)
  | called (d : DriverCall) (call : pc.driverCall = some d) (succeeds : ok = true)
      (driver : sh'.driver = d.leadsTo)
      (after : ∀ pc' ∈ control.live, pc'.expects = some d.leadsTo) (goesOn : control.live ≠ [])
  | recorded (expected : DriverState) (before : pc.expects = some expected)
      (driver : sh'.driver = sh.driver)
      (installed : sh'.lifecycle.driverInstalled = decide (expected ≠ .uninstalled))
      (started : sh'.lifecycle.driverStarted = decide (expected = .running))
      (after : ∀ pc' ∈ control.live, pc'.expects = none)

theorem StartPc.step_driver {configuration : Configuration} {sh sh' : Shared w} {ok : Bool}
    {pc : StartPc w} {control : Control (StartPc w) Result}
    (h : (CallPc.start configuration pc).Outline sh.lifecycle)
    (step : pc.step configuration sh ok = some (sh', control)) :
    (CallPc.start configuration pc).DriverStep sh sh' ok
      (control.call (.start configuration) .ret) := by
  obtain ⟨sound, known, -⟩ := h
  cases pc with
  | beginStart =>
    simp only [StartPc.step] at step
    split at step
    · obtain ⟨rfl, rfl⟩ := Prod.mk.inj (Option.some.inj step)
      exact .unrelated rfl rfl rfl rfl (by simp)
    · obtain ⟨rfl, rfl⟩ := Prod.mk.inj (Option.some.inj step)
      unfold LifecycleController.beginStart
      split <;> exact .unrelated rfl rfl rfl rfl (by simp [CallPc.expects])
  | createTaskStopped =>
    obtain ⟨rfl, rfl⟩ := Prod.mk.inj (Option.some.inj step)
    simp only [Shared.afterCreation, Control.call_next]
    split <;> split <;> exact .unrelated rfl rfl rfl rfl (by simp [CallPc.expects])
  | abort pc result =>
    obtain ⟨rfl, rfl⟩ := Prod.mk.inj (Option.some.inj step)
    cases pc <;> cases h : sh.lifecycle.driverInstalled <;> cases h' : sh.lifecycle.taskOwned <;>
      exact .unrelated rfl rfl rfl rfl (by simp [AbortPc.step, CallPc.expects, h, h'])
  | drainAvailable =>
    rcases takeNow_eq_some step with ⟨s, s', -, -, same⟩ | ⟨s, -, -, same⟩ <;>
      obtain ⟨rfl, rfl⟩ := Prod.mk.inj same <;>
      exact .unrelated rfl rfl rfl rfl (by simp [CallPc.expects])
  | drainTaskStopped =>
    rcases takeNow_eq_some step with ⟨s, s', -, -, same⟩ | ⟨s, -, -, same⟩ <;>
      obtain ⟨rfl, rfl⟩ := Prod.mk.inj same <;>
      exact .unrelated rfl rfl rfl rfl (by simp [CallPc.expects])
  | driverInstall =>
    cases ok with
    | true =>
      obtain ⟨rfl, rfl⟩ := Prod.mk.inj (Option.some.inj step)
      exact .called .install rfl rfl rfl (by simp [CallPc.expects, DriverCall.leadsTo]) (by simp)
    | false =>
      obtain ⟨rfl, rfl⟩ := Prod.mk.inj (Option.some.inj step)
      exact .unrelated rfl rfl rfl rfl (by simp [CallPc.expects])
  | driverStart =>
    cases ok with
    | true =>
      obtain ⟨rfl, rfl⟩ := Prod.mk.inj (Option.some.inj step)
      exact .called .start rfl rfl rfl (by simp [CallPc.expects, DriverCall.leadsTo]) (by simp)
    | false =>
      obtain ⟨rfl, rfl⟩ := Prod.mk.inj (Option.some.inj step)
      exact .unrelated rfl rfl rfl rfl (by simp [CallPc.expects])
  | driverStop =>
    cases ok with
    | true =>
      obtain ⟨rfl, rfl⟩ := Prod.mk.inj (Option.some.inj step)
      exact .called .stop rfl rfl rfl (by simp [CallPc.expects, DriverCall.leadsTo]) (by simp)
    | false =>
      obtain ⟨rfl, rfl⟩ := Prod.mk.inj (Option.some.inj step)
      exact .unrelated rfl rfl rfl rfl (by simp [CallPc.expects])
  | driverUninstall result =>
    cases ok with
    | true =>
      obtain ⟨rfl, rfl⟩ := Prod.mk.inj (Option.some.inj step)
      exact .called .uninstall rfl rfl rfl (by simp [CallPc.expects, DriverCall.leadsTo]) (by simp)
    | false =>
      obtain ⟨rfl, rfl⟩ := Prod.mk.inj (Option.some.inj step)
      exact .unrelated rfl rfl rfl rfl (by simp [CallPc.expects])
  | markInstalled =>
    obtain ⟨rfl, rfl⟩ := Prod.mk.inj (Option.some.inj step)
    exact .recorded .stopped rfl rfl rfl (known.started false rfl) (by simp [CallPc.expects])
  | markStarted =>
    obtain ⟨rfl, rfl⟩ := Prod.mk.inj (Option.some.inj step)
    exact .recorded .running rfl rfl (known.installed true rfl) rfl (by simp [CallPc.expects])
  | markStopped =>
    obtain ⟨rfl, rfl⟩ := Prod.mk.inj (Option.some.inj step)
    exact .recorded .stopped rfl rfl (known.installed true rfl) rfl (by simp [CallPc.expects])
  | markUninstalled result =>
    obtain ⟨rfl, rfl⟩ := Prod.mk.inj (Option.some.inj step)
    exact .recorded .uninstalled rfl rfl rfl (known.started false rfl) (by simp [CallPc.expects])
  | clear pc =>
    obtain ⟨rfl, rfl⟩ := Prod.mk.inj (Option.some.inj step)
    refine .unrelated rfl rfl rfl rfl ?_
    cases (pc.step sh.frames ok).2 <;> simp [CallPc.expects]
  | beginStop pc =>
    obtain ⟨rfl, rfl⟩ := Prod.mk.inj (Option.some.inj step)
    rcases pc.step_cases sh.lifecycle ok with looked | ⟨-, marked⟩
    · rw [looked]
      refine .unrelated rfl rfl rfl rfl ?_
      cases BeginStopPc.test sh.lifecycle.state <;> simp [CallPc.expects]
    · rw [marked]
      exact .unrelated rfl rfl rfl rfl (by simp [CallPc.expects])
  | reconcile pc result =>
    obtain ⟨rfl, rfl⟩ := Prod.mk.inj (Option.some.inj step)
    cases pc <;> exact .unrelated rfl rfl rfl rfl (by simp [ReconcilePc.step, CallPc.expects])
  | createTask =>
    obtain ⟨rfl, rfl⟩ := Prod.mk.inj (Option.some.inj step)
    cases ok <;> exact .unrelated rfl rfl rfl rfl (by simp [CallPc.expects])
  | refused =>
    obtain ⟨rfl, rfl⟩ := Prod.mk.inj (Option.some.inj step)
    exact .unrelated rfl rfl rfl rfl (by simp)
  | setStartedBefore =>
    obtain ⟨rfl, rfl⟩ := Prod.mk.inj (Option.some.inj step)
    exact .unrelated rfl rfl rfl rfl (by simp)
  | _ =>
    obtain ⟨rfl, rfl⟩ := Prod.mk.inj (Option.some.inj step)
    exact .unrelated rfl rfl rfl rfl (by simp [CallPc.expects])

theorem StopPc.step_driver {sh sh' : Shared w} {ok : Bool} {pc : StopPc}
    {control : Control StopPc Result} (h : (CallPc.stop (w := w) pc).Outline sh.lifecycle)
    (step : pc.step sh ok = some (sh', control)) :
    (CallPc.stop pc).DriverStep sh sh' ok (control.call .stop .ret) := by
  obtain ⟨sound, known, -⟩ := h
  cases pc with
  | begin pc =>
    obtain ⟨rfl, rfl⟩ := Prod.mk.inj (Option.some.inj step)
    rcases pc.step_cases sh.lifecycle ok with looked | ⟨-, marked⟩
    · rw [looked]
      refine .unrelated rfl rfl rfl rfl ?_
      cases sh.lifecycle.state <;> simp [BeginStopPc.test, CallPc.expects]
    · rw [marked]
      exact .unrelated rfl rfl rfl rfl (by simp [CallPc.expects])
  | loadStarted =>
    obtain ⟨rfl, rfl⟩ := Prod.mk.inj (Option.some.inj step)
    cases sh.lifecycle.driverStarted <;>
      exact .unrelated rfl rfl rfl rfl (by simp [CallPc.expects])
  | driverStop =>
    cases ok with
    | true =>
      obtain ⟨rfl, rfl⟩ := Prod.mk.inj (Option.some.inj step)
      exact .called .stop rfl rfl rfl (by simp [CallPc.expects, DriverCall.leadsTo]) (by simp)
    | false =>
      obtain ⟨rfl, rfl⟩ := Prod.mk.inj (Option.some.inj step)
      exact .unrelated rfl rfl rfl rfl (by simp [CallPc.expects])
  | driverUninstall =>
    cases ok with
    | true =>
      obtain ⟨rfl, rfl⟩ := Prod.mk.inj (Option.some.inj step)
      exact .called .uninstall rfl rfl rfl (by simp [CallPc.expects, DriverCall.leadsTo]) (by simp)
    | false =>
      obtain ⟨rfl, rfl⟩ := Prod.mk.inj (Option.some.inj step)
      exact .unrelated rfl rfl rfl rfl (by simp [CallPc.expects])
  | markStopped =>
    obtain ⟨rfl, rfl⟩ := Prod.mk.inj (Option.some.inj step)
    have installed := sound.started (known.started true rfl)
    exact .recorded .stopped rfl rfl installed rfl (by simp [CallPc.expects])
  | markUninstalled =>
    obtain ⟨rfl, rfl⟩ := Prod.mk.inj (Option.some.inj step)
    exact .recorded .uninstalled rfl rfl rfl (known.started false rfl) (by simp [CallPc.expects])
  | loadOwned driverStopped =>
    obtain ⟨rfl, rfl⟩ := Prod.mk.inj (Option.some.inj step)
    cases sh.lifecycle.taskOwned <;>
      exact .unrelated rfl rfl rfl rfl (by simp [CallPc.expects])
  | awaitTask driverStopped =>
    rcases takeWithin_eq_some step with ⟨s, s', -, -, -, same⟩ | ⟨-, same⟩ <;>
      obtain ⟨rfl, rfl⟩ := Prod.mk.inj same <;>
      exact .unrelated rfl rfl rfl rfl (by simp [CallPc.expects])
  | dropToken driverStopped =>
    rcases takeNow_eq_some step with ⟨s, s', -, -, same⟩ | ⟨s, -, -, same⟩ <;>
      obtain ⟨rfl, rfl⟩ := Prod.mk.inj same <;>
      exact .unrelated rfl rfl rfl rfl (by simp [CallPc.expects])
  | loadInstalled driverStopped taskStopped =>
    obtain ⟨rfl, rfl⟩ := Prod.mk.inj (Option.some.inj step)
    split <;> exact .unrelated rfl rfl rfl rfl (by simp [CallPc.expects])
  | reconcile pc driverStopped taskStopped driverUninstalled =>
    obtain ⟨rfl, rfl⟩ := Prod.mk.inj (Option.some.inj step)
    cases pc with
    | store target =>
      simp only [ReconcilePc.step, Control.call_ret]
      split <;> exact .unrelated rfl rfl rfl rfl (by simp [CallPc.expects])
    | _ => exact .unrelated rfl rfl rfl rfl (by simp [ReconcilePc.step, CallPc.expects])
  | drainAvailable =>
    simp only [StopPc.step] at step
    split at step
    · obtain ⟨rfl, rfl⟩ := Prod.mk.inj (Option.some.inj step)
      exact .unrelated rfl rfl rfl rfl (by simp)
    · rcases takeNow_eq_some step with ⟨s, s', -, -, same⟩ | ⟨s, -, -, same⟩ <;>
        obtain ⟨rfl, rfl⟩ := Prod.mk.inj same <;>
        exact .unrelated rfl rfl rfl rfl (by simp [CallPc.expects])
  | _ =>
    obtain ⟨rfl, rfl⟩ := Prod.mk.inj (Option.some.inj step)
    exact .unrelated rfl rfl rfl rfl (by simp [CallPc.expects])

theorem CallPc.step_driver {sh sh' : Shared w} {ok : Bool} {pc : CallPc w}
    {control : Control (CallPc w) Result} (h : pc.Outline sh.lifecycle)
    (step : pc.step sh ok = some (sh', control)) : pc.DriverStep sh sh' ok control := by
  cases pc with
  | start configuration pc =>
    obtain ⟨inner, inside, rfl⟩ := CallPc.step_start step
    exact StartPc.step_driver h inside
  | stop pc =>
    obtain ⟨inner, inside, rfl⟩ := CallPc.step_stop step
    exact StopPc.step_driver h inside

/-- The coupling after a step: of the call that goes on, or between calls. -/
theorem CallPc.DriverStep.coupled {pc : CallPc w} {sh sh' : Shared w} {ok : Bool}
    {control : Control (CallPc w) Result} (h : pc.DriverStep sh sh' ok control)
    (coupled : pc.Coupled sh.driver sh.lifecycle) :
    (∀ pc' ∈ control.live, pc'.Coupled sh'.driver sh'.lifecycle) ∧
      (control.live = [] → sh'.driver.Follows sh'.lifecycle) := by
  cases h with
  | unrelated driver installed started before after =>
    have follows : sh'.driver.Follows sh'.lifecycle := by
      unfold CallPc.Coupled at coupled
      rw [before] at coupled
      rw [driver]
      refine ⟨?_, ?_, ?_⟩
      · rw [installed]
        exact coupled.uninstalled
      · rw [installed, started]
        exact coupled.stopped
      · rw [started]
        exact coupled.started
    refine ⟨?_, fun _ => follows⟩
    intro pc' hpc'
    unfold CallPc.Coupled
    rw [after pc' hpc']
    exact follows
  | called d call succeeds driver after goesOn =>
    refine ⟨?_, fun ended => absurd ended goesOn⟩
    intro pc' hpc'
    unfold CallPc.Coupled
    rw [after pc' hpc']
    exact .inl driver
  | recorded expected before driver installed started after =>
    have follows : sh'.driver.Follows sh'.lifecycle := by
      unfold CallPc.Coupled at coupled
      rw [before] at coupled
      rw [driver]
      cases expected with
      | uninstalled =>
        have same := coupled.resolve_right (by simp)
        exact ⟨fun _ => same, fun set => by simp [installed] at set,
          fun set => by simp [started] at set⟩
      | stopped =>
        have same := coupled.resolve_right (by simp)
        exact ⟨fun clear => by simp [installed] at clear, fun _ _ => same,
          fun set => by simp [started] at set⟩
      | running =>
        refine ⟨fun clear => by simp [installed] at clear,
          fun _ clear => by simp [started] at clear, ?_⟩
        intro _
        exact coupled.imp_right And.right
      | busOff => exact absurd before pc.expects_ne_busOff
    refine ⟨?_, fun _ => follows⟩
    intro pc' hpc'
    unfold CallPc.Coupled
    rw [after pc' hpc']
    exact follows

/-- What the receive task and receive() leave alone. -/
structure Shared.Keeps (sh sh' : Shared w) : Prop where
  driver : sh'.driver = sh.driver
  available : sh'.available.isSome = sh.available.isSome
  taskStopped : sh'.taskStopped.isSome = sh.taskStopped.isSome
  requested : sh'.receiveRequested = true → sh.receiveRequested = true

theorem TaskPc.step_keeps {sh sh' : Shared w} {env : TaskEnv} {pc : TaskPc w}
    {control : Control (TaskPc w) Unit} (step : pc.step env sh = some (sh', control)) :
    sh.Keeps sh' := by
  cases pc with
  | latch pc =>
    obtain ⟨⟨sh'', inner⟩, inside, same⟩ := Option.map_eq_some_iff.mp step
    obtain ⟨rfl, -⟩ := Prod.mk.inj same
    cases pc with
    | unrequest =>
      obtain ⟨rfl, -⟩ := Prod.mk.inj (Option.some.inj inside)
      exact ⟨rfl, rfl, rfl, by simp⟩
    | latch pc =>
      obtain ⟨rfl, -⟩ := Prod.mk.inj (Option.some.inj inside)
      exact ⟨rfl, rfl, rfl, id⟩
    | wake =>
      obtain ⟨s, hs, same⟩ := Option.map_eq_some_iff.mp inside
      obtain ⟨rfl, -⟩ := Prod.mk.inj same
      exact ⟨rfl, by rw [hs]; rfl, rfl, id⟩
  | giveAvailable =>
    obtain ⟨s, hs, same⟩ := Option.map_eq_some_iff.mp step
    obtain ⟨rfl, -⟩ := Prod.mk.inj same
    exact ⟨rfl, by rw [hs]; rfl, rfl, id⟩
  | giveStopped =>
    obtain ⟨s, hs, same⟩ := Option.map_eq_some_iff.mp step
    obtain ⟨rfl, -⟩ := Prod.mk.inj same
    exact ⟨rfl, rfl, by rw [hs]; rfl, id⟩
  | _ =>
    obtain ⟨rfl, -⟩ := Prod.mk.inj (Option.some.inj step)
    exact ⟨rfl, rfl, rfl, id⟩

theorem ReceivePc.step_keeps {sh sh' : Shared w} {granted : Bool} {pc : ReceivePc w}
    {control : Control (ReceivePc w) (Result × Option VehicleCore.RawCanFrame)}
    (step : pc.step sh granted = some (sh', control)) : sh.Keeps sh' := by
  cases pc with
  | take timeoutMs =>
    simp only [ReceivePc.step] at step
    split at step
    · rcases takeNow_eq_some step with ⟨s, s', hs, -, same⟩ | ⟨s, -, -, same⟩ <;>
        obtain ⟨rfl, -⟩ := Prod.mk.inj same
      · exact ⟨rfl, by rw [hs]; rfl, rfl, id⟩
      · exact ⟨rfl, rfl, rfl, id⟩
    · rcases takeWithin_eq_some step with ⟨s, s', -, hs, -, same⟩ | ⟨-, same⟩ <;>
        obtain ⟨rfl, -⟩ := Prod.mk.inj same
      · exact ⟨rfl, by rw [hs]; rfl, rfl, id⟩
      · exact ⟨rfl, rfl, rfl, id⟩
  | _ =>
    obtain ⟨rfl, -⟩ := Prod.mk.inj (Option.some.inj step)
    exact ⟨rfl, rfl, rfl, id⟩

/-- Whatever the other threads and the driver do on their own, the coupling stays. -/
theorem DriverState.Follows.stable {driver driver' : DriverState} {c c' : LifecycleController}
    (h : driver.Follows c) (other : Interference c c')
    (same : driver' = driver ∨ driver = .running ∧ driver' = .busOff) : driver'.Follows c' := by
  refine ⟨?_, ?_, ?_⟩
  · rw [other.installed]
    intro clear
    have before := h.uninstalled clear
    rcases same with rfl | ⟨running, -⟩
    · exact before
    · cases before.symm.trans running
  · rw [other.installed, other.started]
    intro set clear
    have before := h.stopped set clear
    rcases same with rfl | ⟨running, -⟩
    · exact before
    · cases before.symm.trans running
  · rw [other.started]
    intro set
    rcases same with rfl | ⟨-, off⟩
    · exact h.started set
    · exact .inr off

theorem CallPc.Coupled.stable {pc : CallPc w} {driver driver' : DriverState}
    {c c' : LifecycleController} (h : pc.Coupled driver c) (other : Interference c c')
    (same : driver' = driver ∨ driver = .running ∧ driver' = .busOff) : pc.Coupled driver' c' := by
  unfold CallPc.Coupled at h ⊢
  cases expects : pc.expects with
  | none =>
    simp only [expects] at h ⊢
    exact h.stable other same
  | some expected =>
    simp only [expects] at h ⊢
    rcases same with rfl | ⟨running, off⟩
    · exact h
    · rcases h with same | ⟨-, off'⟩
      · exact .inr ⟨same.symm.trans running, off⟩
      · cases running.symm.trans off'

namespace System

variable {s t : System w} {k : Choice} {ks : List Choice}

/-- Between the calls the driver follows the flags, and a call in progress is coupled to it. -/
structure Coupled (s : System w) : Prop where
  outlined : s.Outlined
  calls : ∀ pc ∈ s.calls, pc.Coupled s.shared.driver s.shared.lifecycle
  between : s.calls = [] → s.shared.driver.Follows s.shared.lifecycle

/-- The threads other than the calls leave the driver alone, but it may go bus-off. -/
structure DriverMoves (s t : System w) : Prop where
  driver : t.shared.driver = s.shared.driver ∨
    s.shared.driver = .running ∧ t.shared.driver = .busOff
  available : t.shared.available.isSome = s.shared.available.isSome
  taskStopped : t.shared.taskStopped.isSome = s.shared.taskStopped.isSome
  requested : t.shared.receiveRequested = true → s.shared.receiveRequested = true

theorem DriverMoves.of_keeps (h : s.shared.Keeps t.shared) : DriverMoves s t :=
  ⟨.inl h.driver, h.available, h.taskStopped, h.requested⟩

theorem next_driverMoves (step : s.next k = some t) (other : ∀ i ok, k ≠ .call i ok) :
    DriverMoves s t := by
  have still : s.shared.Keeps s.shared := ⟨rfl, rfl, rfl, id⟩
  cases k with
  | call i ok => exact absurd rfl (other i ok)
  | beginStart c =>
    obtain rfl := Option.some.inj step
    exact .of_keeps still
  | beginStop =>
    obtain rfl := Option.some.inj step
    exact .of_keeps still
  | task i env =>
    obtain ⟨pc, shared, control, -, hstep, rfl⟩ := next_task step
    exact .of_keeps (TaskPc.step_keeps hstep)
  | beginReceive timeoutMs =>
    obtain ⟨-, step⟩ := Option.ite_none_right_eq_some.mp step
    obtain rfl := Option.some.inj step
    exact .of_keeps still
  | consumer granted =>
    obtain ⟨pc, shared, control, -, hstep, rfl⟩ := next_consumer step
    exact .of_keeps (ReceivePc.step_keeps hstep)
  | beginStatistics operation =>
    obtain rfl := Option.some.inj step
    exact .of_keeps still
  | observer i cas =>
    obtain ⟨operation, pc, -, rfl⟩ := next_observer step
    exact .of_keeps ⟨rfl, rfl, rfl, id⟩
  | busOff =>
    obtain ⟨running, rfl⟩ := next_busOff step
    exact ⟨.inr ⟨running, rfl⟩, rfl, rfl, id⟩

theorem Coupled.next (h : s.Coupled) (serial : s.serialized k = true) (step : s.next k = some t) :
    t.Coupled := by
  have outlined := next_outlined h.outlined serial step
  cases k with
  | beginStart configuration =>
    obtain rfl := Option.some.inj step
    have empty : s.calls = [] := List.isEmpty_iff.mp serial
    refine ⟨outlined, ?_, by simp⟩
    intro pc hpc
    obtain rfl : pc = .start configuration .beginStart := by simpa [empty] using hpc
    exact h.between empty
  | beginStop =>
    obtain rfl := Option.some.inj step
    have empty : s.calls = [] := List.isEmpty_iff.mp serial
    refine ⟨outlined, ?_, by simp⟩
    intro pc hpc
    obtain rfl : pc = .stop (.begin .load) := by simpa [empty] using hpc
    exact h.between empty
  | call i ok =>
    obtain ⟨pc, -, -, hpc, -, -⟩ := next_call step
    have member := List.mem_of_getElem? hpc
    obtain ⟨single, outline⟩ := h.outlined.outline member
    obtain ⟨shared, control, hstep, rfl⟩ := next_call_single single step
    obtain ⟨goesOn, ended⟩ := (CallPc.step_driver outline hstep).coupled (h.calls pc member)
    exact ⟨outlined, goesOn, ended⟩
  | _ =>
    obtain ⟨calls, other⟩ := next_interference step (by simp) (by simp) (by simp)
    have moves := next_driverMoves step (by simp)
    refine ⟨outlined, ?_, ?_⟩
    · rw [calls]
      intro pc hpc
      exact (h.calls pc hpc).stable other moves.driver
    · rw [calls]
      intro empty
      exact (h.between empty).stable other moves.driver

/-- Under bus-off no call can uninstall the driver, and the controller is not stopped. -/
theorem Coupled.of_busOff (h : s.Coupled) (off : s.shared.driver = .busOff) :
    s.shared.lifecycle.state ≠ .stopped ∧ ∀ pc ∈ s.calls, pc.driverCall ≠ some .uninstall := by
  have installed (follows : s.shared.driver.Follows s.shared.lifecycle) :
      s.shared.lifecycle.driverInstalled = true := (off ▸ follows).of_busOff.1
  have owning (follows : s.shared.driver.Follows s.shared.lifecycle) :
      s.shared.lifecycle.state ≠ .stopped := by
    intro stopped
    have clear := (h.outlined.sound.stopped stopped).1
    exact absurd (clear.symm.trans (installed follows)) (by simp)
  constructor
  · cases calls : s.calls with
    | nil => exact owning (h.between calls)
    | cons pc rest =>
      have member : pc ∈ s.calls := by simp [calls]
      have coupled := h.calls pc member
      obtain ⟨-, outline⟩ := h.outlined.outline member
      unfold CallPc.Coupled at coupled
      split at coupled
      case h_1 expected before =>
        rcases coupled with same | ⟨rfl, -⟩
        · obtain rfl := off.symm.trans same
          exact absurd before (pc.expects_ne_busOff)
        · exact outline.knows.state_ne (pc.active_of_expects before)
      case h_2 => exact owning coupled
  · intro pc hpc uninstalling
    obtain ⟨set, clear, -⟩ := (h.outlined.driverCall hpc).2.2 uninstalling
    have coupled := h.calls pc hpc
    unfold CallPc.Coupled at coupled
    rw [pc.expects_of_driverCall uninstalling] at coupled
    exact absurd (off.symm.trans (coupled.stopped set clear)) (by simp)

/-- A driver that is bus-off stays so under every call the automaton allows. -/
theorem Coupled.busOff_next (h : s.Coupled) (off : s.shared.driver = .busOff)
    (doc : s.documented k = true) (step : s.next k = some t) : t.shared.driver = .busOff := by
  by_cases called : ∃ i ok, k = .call i ok
  · obtain ⟨i, ok, rfl⟩ := called
    obtain ⟨pc, -, -, hpc, -, -⟩ := next_call step
    have member := List.mem_of_getElem? hpc
    obtain ⟨single, outline⟩ := h.outlined.outline member
    obtain ⟨shared, control, hstep, rfl⟩ := next_call_single single step
    cases CallPc.step_driver outline hstep with
    | unrelated driver => exact driver.trans off
    | recorded expected before driver => exact driver.trans off
    | called d call succeeds driver =>
      subst succeeds
      simp only [documented, hpc, Option.bind_some, call, off, Option.map_some, Option.getD_some,
        Bool.not_true, Bool.false_or] at doc
      -- only the call that is never made is permitted
      cases d with
      | uninstall => exact absurd call ((h.of_busOff off).2 pc member)
      | _ => cases doc
  · rcases (next_driverMoves step fun i ok same => called ⟨i, ok, same⟩).driver with same | ⟨-, off'⟩
    · exact same.trans off
    · exact off'

/-- Every serialized run from a fresh component keeps the coupling. -/
theorem exec_coupled (run : exec (guarded serialized next) ({} : System w) ks = some s) :
    s.Coupled := by
  refine exec_invariant (P := Coupled) ?_ run ?_
  · intro s k t h step
    obtain ⟨serial, step⟩ := guarded_eq_some.mp step
    exact h.next serial step
  · exact ⟨⟨by simp, by simp, fun _ => ⟨rfl, rfl, rfl⟩⟩, by simp,
      fun _ => ⟨fun _ => rfl, by simp, by simp⟩⟩

end System

end CanTelemetry.CanBus
