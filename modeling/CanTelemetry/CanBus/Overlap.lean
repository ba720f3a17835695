import CanTelemetry.CanBus.Exclusivity

/-! start() and stop() issued concurrently. A call is raising while it acquires the driver
and the task, and in cleanup while it may still store Stopped. The controller keeps two
raising calls apart, but nothing keeps a cleanup away from a raising call: begin_stop()
succeeds in the middle of a start(), and a start() may reserve the controller while a
slower cleanup has yet to store the state it decided on. -/

namespace CanTelemetry.CanBus

open Execution Threads

variable {w : ℕ}

inductive Phase
  | neutral | raising | cleanup
  deriving DecidableEq

/-- Only a call that decided on Stopped, or may still do so, is in cleanup. -/
def ReconcilePc.phase : ReconcilePc → Phase
  | .store .stopped => .cleanup
  | .store _ => .neutral
  | _ => .cleanup

def StartPc.phase : StartPc w → Phase
  | .beginStart | .refused | .createTask | .setStartedBefore => .neutral
  | .createAvailable | .createTaskStopped | .drainAvailable | .drainTaskStopped | .driverInstall
  | .markInstalled | .driverStart | .markStarted | .clear _ | .setBusId | .recordReset
  | .resetLastCounters | .request | .markTask => .raising
  | .abort _ _ | .unrequest | .disown | .beginStop _ | .driverStop | .markStopped
  | .driverUninstall _ | .markUninstalled _ => .cleanup
  | .reconcile pc _ => pc.phase

def StopPc.phase : StopPc → Phase
  | .begin _ | .drainAvailable => .neutral
  | .reconcile pc _ _ _ => pc.phase
  | _ => .cleanup

def CallPc.phase : CallPc w → Phase
  | .start _ pc => pc.phase
  | .stop pc => pc.phase

/-- The next step is a begin_stop() that succeeds, or a failed task creation. -/
def CallPc.turnsToCleanup (c : LifecycleController) (ok : Bool) : CallPc w → Bool
  | .stop (.begin pc) => (pc.step c ok).2.value? = some true
  | .start _ .createTask => !ok
  | _ => false

/-- The next step is a begin_start() that succeeds. -/
def CallPc.reserves (c : LifecycleController) : CallPc w → Bool
  | .start configuration .beginStart => isConfigurationValid configuration && c.state = .stopped
  | _ => false

/-- What the flags were when a cleanup read them. -/
def ReconcilePc.Saw (c : LifecycleController) : ReconcilePc → Prop
  | .loadInstalled => c.taskOwned = false
  | .store .stopped => c.driverInstalled = false ∧ c.taskOwned = false
  | _ => True

def CallPc.Saw (c : LifecycleController) : CallPc w → Prop
  | .start _ (.abort .loadOwned _) => c.driverInstalled = false
  | .start _ (.abort .storeStopped _) => c.driverInstalled = false ∧ c.taskOwned = false
  | .start _ (.reconcile pc _) => pc.Saw c
  | .stop (.reconcile pc _ _ _) => pc.Saw c
  | _ => True

namespace System

def phases (s : System w) (phase : Phase) : ℕ := s.calls.countP fun pc => pc.phase = phase

/-- No call turns to cleanup while another one is raising, and none reserves the
controller while another one may still store Stopped. -/
def keptApart (s : System w) : Choice → Bool
  | .call i ok => match s.calls[i]? with
    | some pc =>
      (!pc.turnsToCleanup s.shared.lifecycle ok || s.phases .raising = 0) &&
        (!pc.reserves s.shared.lifecycle || s.phases .cleanup = 0)
    | none => true
  | _ => true

end System

/-! ### One step of a call -/

/-- Where a step leads, seen from the phases. -/
def CallPc.Arrives (pc : CallPc w) (c c' : LifecycleController) (ok : Bool) :
    Control (CallPc w) Result → Prop
  | .ret _ => True
  | .next pc' =>
    (pc'.phase = .raising → pc.phase = .raising ∨ pc.reserves c = true) ∧
      (pc'.phase = .cleanup → pc.phase ≠ .neutral ∨ pc.turnsToCleanup c ok = true) ∧ pc'.Saw c'

/-- What a step may do to the controller, by the phase of the call. -/
structure CallPc.Changes (pc : CallPc w) (c c' : LifecycleController) : Prop where
  installed : pc.phase ≠ .raising → c'.driverInstalled = true → c.driverInstalled = true
  owned : pc.phase ≠ .raising → c'.taskOwned = true → c.taskOwned = true
  stops : c'.state = .stopped → c.state = .stopped ∧ pc.reserves c = false ∨
    pc.phase = .cleanup ∧ c.driverInstalled = false ∧ c.taskOwned = false

namespace CallPc.Changes

variable {pc : CallPc w} {c c' : LifecycleController}

/-- Steps that do not touch the controller. -/
theorem same (reserves : pc.reserves c = false) : pc.Changes c c :=
  ⟨fun _ => id, fun _ => id, fun stopped => .inl ⟨stopped, reserves⟩⟩

/-- Steps that set no flag and do not store Stopped. -/
theorem live (installed : c'.driverInstalled = true → c.driverInstalled = true)
    (owned : c'.taskOwned = true → c.taskOwned = true) (state : c'.state ≠ .stopped) :
    pc.Changes c c' :=
  ⟨fun _ => installed, fun _ => owned, fun stopped => absurd stopped state⟩

/-- Steps that only clear flags. -/
theorem clears (installed : c'.driverInstalled = true → c.driverInstalled = true)
    (owned : c'.taskOwned = true → c.taskOwned = true) (state : c'.state = c.state)
    (reserves : pc.reserves c = false) : pc.Changes c c' :=
  ⟨fun _ => installed, fun _ => owned, fun stopped => .inl ⟨state.symm.trans stopped, reserves⟩⟩

theorem disowns (reserves : pc.reserves c = false) : pc.Changes c c.acknowledgeTask :=
  .clears id (fun owned => absurd owned Bool.false_ne_true) rfl reserves

theorem uninstalls (reserves : pc.reserves c = false) : pc.Changes c c.markDriverUninstalled :=
  .clears (fun installed => absurd installed Bool.false_ne_true) id rfl reserves

/-- Steps of a raising call that set a flag. -/
theorem raises (raising : pc.phase = .raising) (state : c'.state = c.state)
    (reserves : pc.reserves c = false) : pc.Changes c c' :=
  ⟨fun other => absurd raising other, fun other => absurd raising other,
    fun stopped => .inl ⟨state.symm.trans stopped, reserves⟩⟩

end CallPc.Changes

namespace CallPc.Arrives

variable {pc pc' : CallPc w} {c c' : LifecycleController} {ok : Bool}

/-- A raising call may go anywhere: both questions are answered by where it comes from. -/
theorem raising (before : pc.phase = .raising) (saw : pc'.Saw c') :
    pc.Arrives c c' ok (.next pc') :=
  ⟨fun _ => .inl before, fun _ => .inl (by simp [before]), saw⟩

/-- A cleanup stays one. -/
theorem cleanup (before : pc.phase = .cleanup) (after : pc'.phase = .cleanup)
    (saw : pc'.Saw c') : pc.Arrives c c' ok (.next pc') :=
  ⟨fun raising => absurd (after.symm.trans raising) (by simp),
    fun _ => .inl (by simp [before]), saw⟩

theorem neutral (after : pc'.phase = .neutral) (saw : pc'.Saw c') :
    pc.Arrives c c' ok (.next pc') :=
  ⟨fun raising => absurd (after.symm.trans raising) (by simp),
    fun cleanup => absurd (after.symm.trans cleanup) (by simp), saw⟩

end CallPc.Arrives

theorem ReconcilePc.step_changes {c : LifecycleController} {pc : ReconcilePc} {call : CallPc w}
    (phase : call.phase = pc.phase) (reserves : call.reserves c = false) (saw : pc.Saw c) :
    call.Changes c (pc.step c).1 := by
  cases pc with
  | store target =>
    refine ⟨fun _ => id, fun _ => id, ?_⟩
    rintro rfl
    exact .inr ⟨phase, saw⟩
  | _ => exact .same reserves

theorem ReconcilePc.step_saw {c : LifecycleController} {pc pc' : ReconcilePc} (saw : pc.Saw c)
    (step : (pc.step c).2 = .next pc') : pc'.Saw (pc.step c).1 ∧ pc.phase = .cleanup := by
  cases pc with
  | loadOwned =>
    obtain rfl := Control.next.inj step
    cases owned : c.taskOwned with
    | false => exact ⟨owned, rfl⟩
    | true => exact ⟨trivial, rfl⟩
  | loadInstalled =>
    obtain rfl := Control.next.inj step
    cases installed : c.driverInstalled with
    | false => exact ⟨⟨installed, saw⟩, rfl⟩
    | true => exact ⟨trivial, rfl⟩
  | store target => cases step

/-- The state `reconcile` arrives at keeps the call in cleanup or ends its interest. -/
theorem ReconcilePc.phase_ne_raising (pc : ReconcilePc) : pc.phase ≠ .raising := by
  cases pc with
  | store target => cases target <;> simp [phase]
  | _ => simp [phase]

theorem StartPc.step_overlap {configuration : Configuration} {sh sh' : Shared w} {ok : Bool}
    {pc : StartPc w} {control : Control (StartPc w) Result}
    (saw : (CallPc.start configuration pc).Saw sh.lifecycle)
    (step : pc.step configuration sh ok = some (sh', control)) :
    (CallPc.start configuration pc).Changes sh.lifecycle sh'.lifecycle ∧
      (CallPc.start configuration pc).Arrives sh.lifecycle sh'.lifecycle ok
        (control.call (.start configuration) .ret) := by
  cases pc with
  | beginStart =>
    simp only [StartPc.step] at step
    split at step
    case isTrue invalid =>
      obtain ⟨rfl, rfl⟩ := Prod.mk.inj (Option.some.inj step)
      exact ⟨.same (by simp_all [CallPc.reserves]), trivial⟩
    case isFalse valid =>
      obtain ⟨rfl, rfl⟩ := Prod.mk.inj (Option.some.inj step)
      by_cases stopped : sh.lifecycle.state = .stopped
      · simp only [LifecycleController.beginStart, if_pos stopped]
        refine ⟨.live id id (by simp), fun _ => .inr ?_, by simp [CallPc.phase, StartPc.phase], trivial⟩
        simp_all [CallPc.reserves]
      · simp only [LifecycleController.beginStart, if_neg stopped]
        exact ⟨.same (by simp [CallPc.reserves, stopped]), .neutral rfl trivial⟩
  | createTaskStopped =>
    obtain ⟨rfl, rfl⟩ := Prod.mk.inj (Option.some.inj step)
    refine ⟨.same rfl, ?_⟩
    simp only [Shared.afterCreation, Control.call_next]
    split <;> split <;> exact .raising rfl trivial
  | abort pc result =>
    obtain ⟨rfl, rfl⟩ := Prod.mk.inj (Option.some.inj step)
    cases pc with
    | loadInstalled =>
      refine ⟨.same rfl, ?_⟩
      cases installed : sh.lifecycle.driverInstalled with
      | true => simp only [AbortPc.step, installed]; trivial
      | false =>
        simp only [AbortPc.step, installed]
        exact .cleanup rfl rfl installed
    | loadOwned =>
      refine ⟨.same rfl, ?_⟩
      cases owned : sh.lifecycle.taskOwned with
      | true => simp only [AbortPc.step, owned]; trivial
      | false =>
        simp only [AbortPc.step, owned]
        exact .cleanup rfl rfl ⟨saw, owned⟩
    | storeStopped => exact ⟨⟨fun _ => id, fun _ => id, fun _ => .inr ⟨rfl, saw⟩⟩, trivial⟩
  | drainAvailable =>
    rcases takeNow_eq_some step with ⟨s, s', -, -, same⟩ | ⟨s, -, -, same⟩ <;>
      obtain ⟨rfl, rfl⟩ := Prod.mk.inj same <;>
      exact ⟨.same rfl, .raising rfl trivial⟩
  | drainTaskStopped =>
    rcases takeNow_eq_some step with ⟨s, s', -, -, same⟩ | ⟨s, -, -, same⟩ <;>
      obtain ⟨rfl, rfl⟩ := Prod.mk.inj same <;>
      exact ⟨.same rfl, .raising rfl trivial⟩
  | driverInstall =>
    cases ok <;> obtain ⟨rfl, rfl⟩ := Prod.mk.inj (Option.some.inj step) <;>
      exact ⟨.same rfl, .raising rfl trivial⟩
  | driverStart =>
    cases ok <;> obtain ⟨rfl, rfl⟩ := Prod.mk.inj (Option.some.inj step) <;>
      exact ⟨.same rfl, .raising rfl trivial⟩
  | markInstalled =>
    obtain ⟨rfl, rfl⟩ := Prod.mk.inj (Option.some.inj step)
    exact ⟨.raises rfl rfl rfl, .raising rfl trivial⟩
  | markStarted =>
    obtain ⟨rfl, rfl⟩ := Prod.mk.inj (Option.some.inj step)
    exact ⟨.raises rfl rfl rfl, .raising rfl trivial⟩
  | markTask =>
    obtain ⟨rfl, rfl⟩ := Prod.mk.inj (Option.some.inj step)
    exact ⟨.raises rfl rfl rfl, .raising rfl trivial⟩
  | clear pc =>
    obtain ⟨rfl, rfl⟩ := Prod.mk.inj (Option.some.inj step)
    refine ⟨.same rfl, ?_⟩
    cases (pc.step sh.frames ok).2 <;> exact .raising rfl trivial
  | createTask =>
    obtain ⟨rfl, rfl⟩ := Prod.mk.inj (Option.some.inj step)
    cases ok with
    | true => exact ⟨.same rfl, .neutral rfl trivial⟩
    | false => exact ⟨.same rfl, by simp [CallPc.phase, StartPc.phase], fun _ => .inr rfl, trivial⟩
  | disown =>
    obtain ⟨rfl, rfl⟩ := Prod.mk.inj (Option.some.inj step)
    exact ⟨.disowns rfl, .cleanup rfl rfl trivial⟩
  | beginStop pc =>
    obtain ⟨rfl, rfl⟩ := Prod.mk.inj (Option.some.inj step)
    rcases pc.step_cases sh.lifecycle ok with looked | ⟨-, marked⟩
    · rw [looked]
      refine ⟨.same rfl, ?_⟩
      cases BeginStopPc.test sh.lifecycle.state <;> exact .cleanup rfl rfl trivial
    · rw [marked]
      exact ⟨.live id id (by simp), .cleanup rfl rfl trivial⟩
  | driverStop =>
    cases ok <;> obtain ⟨rfl, rfl⟩ := Prod.mk.inj (Option.some.inj step) <;>
      exact ⟨.same rfl, .cleanup rfl rfl trivial⟩
  | markStopped =>
    obtain ⟨rfl, rfl⟩ := Prod.mk.inj (Option.some.inj step)
    exact ⟨.clears id id rfl rfl, .cleanup rfl rfl trivial⟩
  | driverUninstall result =>
    cases ok <;> obtain ⟨rfl, rfl⟩ := Prod.mk.inj (Option.some.inj step) <;>
      exact ⟨.same rfl, .cleanup rfl rfl trivial⟩
  | markUninstalled result =>
    obtain ⟨rfl, rfl⟩ := Prod.mk.inj (Option.some.inj step)
    exact ⟨.uninstalls rfl, .cleanup rfl rfl trivial⟩
  | reconcile pc result =>
    obtain ⟨rfl, rfl⟩ := Prod.mk.inj (Option.some.inj step)
    refine ⟨ReconcilePc.step_changes rfl rfl saw, ?_⟩
    cases control : (pc.step sh.lifecycle).2 with
    | ret value => trivial
    | next pc' =>
      obtain ⟨saw', cleanup⟩ := ReconcilePc.step_saw saw control
      refine ⟨fun raising => absurd raising pc'.phase_ne_raising, fun _ => .inl ?_, saw'⟩
      rw [show (CallPc.start configuration (.reconcile pc result)).phase = pc.phase from rfl, cleanup]
      simp
  | unrequest =>
    obtain ⟨rfl, rfl⟩ := Prod.mk.inj (Option.some.inj step)
    exact ⟨.same rfl, .cleanup rfl rfl trivial⟩
  | refused =>
    obtain ⟨rfl, rfl⟩ := Prod.mk.inj (Option.some.inj step)
    exact ⟨.same rfl, trivial⟩
  | setStartedBefore =>
    obtain ⟨rfl, rfl⟩ := Prod.mk.inj (Option.some.inj step)
    exact ⟨.same rfl, trivial⟩
  | _ =>
    obtain ⟨rfl, rfl⟩ := Prod.mk.inj (Option.some.inj step)
    exact ⟨.same rfl, .raising rfl trivial⟩

theorem StopPc.step_overlap {sh sh' : Shared w} {ok : Bool} {pc : StopPc}
    {control : Control StopPc Result} (saw : (CallPc.stop (w := w) pc).Saw sh.lifecycle)
    (step : pc.step sh ok = some (sh', control)) :
    (CallPc.stop (w := w) pc).Changes sh.lifecycle sh'.lifecycle ∧
      (CallPc.stop (w := w) pc).Arrives sh.lifecycle sh'.lifecycle ok (control.call .stop .ret) := by
  cases pc with
  | begin pc =>
    obtain ⟨rfl, rfl⟩ := Prod.mk.inj (Option.some.inj step)
    refine ⟨?_, ?_⟩
    · show CallPc.Changes _ _ (pc.step sh.lifecycle ok).1
      rcases pc.step_cases sh.lifecycle ok with looked | ⟨-, marked⟩
      · rw [looked]
        exact .same rfl
      · rw [marked]
        exact .live id id (by simp)
    · have turns : (CallPc.stop (w := w) (.begin pc)).turnsToCleanup sh.lifecycle ok =
        decide ((pc.step sh.lifecycle ok).2.value? = some true) := rfl
      cases control : (pc.step sh.lifecycle ok).2 with
      | next pc' => exact .neutral rfl trivial
      | ret begun =>
        cases begun with
        | false => trivial
        | true =>
          refine ⟨by simp [CallPc.phase, StopPc.phase], fun _ => .inr ?_, trivial⟩
          rw [turns, control]
          rfl
  | loadStarted =>
    obtain ⟨rfl, rfl⟩ := Prod.mk.inj (Option.some.inj step)
    refine ⟨.same rfl, ?_⟩
    cases sh.lifecycle.driverStarted <;> exact .cleanup rfl rfl trivial
  | driverStop =>
    cases ok <;> obtain ⟨rfl, rfl⟩ := Prod.mk.inj (Option.some.inj step) <;>
      exact ⟨.same rfl, .cleanup rfl rfl trivial⟩
  | markStopped =>
    obtain ⟨rfl, rfl⟩ := Prod.mk.inj (Option.some.inj step)
    exact ⟨.clears id id rfl rfl, .cleanup rfl rfl trivial⟩
  | loadOwned driverStopped =>
    obtain ⟨rfl, rfl⟩ := Prod.mk.inj (Option.some.inj step)
    refine ⟨.same rfl, ?_⟩
    cases sh.lifecycle.taskOwned <;> exact .cleanup rfl rfl trivial
  | awaitTask driverStopped =>
    rcases takeWithin_eq_some step with ⟨s, s', -, -, -, same⟩ | ⟨-, same⟩ <;>
      obtain ⟨rfl, rfl⟩ := Prod.mk.inj same <;>
      exact ⟨.same rfl, .cleanup rfl rfl trivial⟩
  | acknowledge driverStopped =>
    obtain ⟨rfl, rfl⟩ := Prod.mk.inj (Option.some.inj step)
    exact ⟨.disowns rfl, .cleanup rfl rfl trivial⟩
  | dropToken driverStopped =>
    rcases takeNow_eq_some step with ⟨s, s', -, -, same⟩ | ⟨s, -, -, same⟩ <;>
      obtain ⟨rfl, rfl⟩ := Prod.mk.inj same <;>
      exact ⟨.same rfl, .cleanup rfl rfl trivial⟩
  | loadInstalled driverStopped taskStopped =>
    obtain ⟨rfl, rfl⟩ := Prod.mk.inj (Option.some.inj step)
    refine ⟨.same rfl, ?_⟩
    simp only [Control.call_next]
    split <;> exact .cleanup rfl rfl trivial
  | driverUninstall =>
    cases ok <;> obtain ⟨rfl, rfl⟩ := Prod.mk.inj (Option.some.inj step) <;>
      exact ⟨.same rfl, .cleanup rfl rfl trivial⟩
  | markUninstalled =>
    obtain ⟨rfl, rfl⟩ := Prod.mk.inj (Option.some.inj step)
    exact ⟨.uninstalls rfl, .cleanup rfl rfl trivial⟩
  | reconcile pc driverStopped taskStopped driverUninstalled =>
    obtain ⟨rfl, rfl⟩ := Prod.mk.inj (Option.some.inj step)
    refine ⟨ReconcilePc.step_changes rfl rfl saw, ?_⟩
    cases control : (pc.step sh.lifecycle).2 with
    | ret value =>
      simp only [Control.call_ret]
      split
      · exact .neutral rfl trivial
      · trivial
    | next pc' =>
      obtain ⟨saw', cleanup⟩ := ReconcilePc.step_saw saw control
      refine ⟨fun raising => absurd raising pc'.phase_ne_raising, fun _ => .inl ?_, saw'⟩
      rw [show (CallPc.stop (w := w)
        (.reconcile pc driverStopped taskStopped driverUninstalled)).phase = pc.phase from rfl,
        cleanup]
      simp
  | drainAvailable =>
    simp only [StopPc.step] at step
    split at step
    · obtain ⟨rfl, rfl⟩ := Prod.mk.inj (Option.some.inj step)
      exact ⟨.same rfl, trivial⟩
    · rcases takeNow_eq_some step with ⟨s, s', -, -, same⟩ | ⟨s, -, -, same⟩ <;>
        obtain ⟨rfl, rfl⟩ := Prod.mk.inj same
      · exact ⟨.same rfl, .neutral rfl trivial⟩
      · exact ⟨.same rfl, trivial⟩
  | unrequest =>
    obtain ⟨rfl, rfl⟩ := Prod.mk.inj (Option.some.inj step)
    exact ⟨.same rfl, .cleanup rfl rfl trivial⟩

theorem CallPc.step_overlap {sh sh' : Shared w} {ok : Bool} {pc : CallPc w}
    {control : Control (CallPc w) Result} (saw : pc.Saw sh.lifecycle)
    (step : pc.step sh ok = some (sh', control)) :
    pc.Changes sh.lifecycle sh'.lifecycle ∧ pc.Arrives sh.lifecycle sh'.lifecycle ok control := by
  cases pc with
  | start configuration pc =>
    obtain ⟨inner, inside, rfl⟩ := CallPc.step_start step
    exact StartPc.step_overlap saw inside
  | stop pc =>
    obtain ⟨inner, inside, rfl⟩ := CallPc.step_stop step
    exact StopPc.step_overlap saw inside

theorem CallPc.phase_of_reserves {pc : CallPc w} {c : LifecycleController}
    (reserves : pc.reserves c = true) : pc.phase = .neutral := by
  cases pc with
  | start configuration pc =>
    cases pc with
    | beginStart => rfl
    | _ => cases reserves
  | stop pc => cases reserves

/-- Only a cleanup remembers flags. -/
theorem CallPc.saw_of_phase {pc : CallPc w} (phase : pc.phase ≠ .cleanup)
    (c : LifecycleController) : pc.Saw c := by
  have reconciling (pc : ReconcilePc) (phase : pc.phase ≠ .cleanup) : pc.Saw c := by
    cases pc with
    | store target =>
      cases target with
      | stopped => exact absurd rfl phase
      | _ => trivial
    | _ => exact absurd rfl phase
  cases pc with
  | start configuration pc =>
    cases pc with
    | abort pc result => exact absurd rfl phase
    | reconcile pc result => exact reconciling pc phase
    | _ => trivial
  | stop pc =>
    cases pc with
    | reconcile pc driverStopped taskStopped driverUninstalled => exact reconciling pc phase
    | _ => trivial

/-- Flags that were read as cleared stay so while nobody sets them. -/
theorem CallPc.Saw.stable {pc : CallPc w} {c c' : LifecycleController} (saw : pc.Saw c)
    (installed : c'.driverInstalled = true → c.driverInstalled = true)
    (owned : c'.taskOwned = true → c.taskOwned = true) : pc.Saw c' := by
  have reconciling (pc : ReconcilePc) (saw : pc.Saw c) : pc.Saw c' := by
    cases pc with
    | loadOwned => trivial
    | loadInstalled => exact stays_cleared owned saw
    | store target =>
      cases target with
      | stopped => exact ⟨stays_cleared installed saw.1, stays_cleared owned saw.2⟩
      | _ => trivial
  cases pc with
  | start configuration pc =>
    cases pc with
    | abort pc result =>
      cases pc with
      | loadInstalled => trivial
      | loadOwned => exact stays_cleared installed saw
      | storeStopped => exact ⟨stays_cleared installed saw.1, stays_cleared owned saw.2⟩
    | reconcile pc result => exact reconciling pc saw
    | _ => trivial
  | stop pc =>
    cases pc with
    | reconcile pc driverStopped taskStopped driverUninstalled => exact reconciling pc saw
    | _ => trivial

/-! ### Runs -/

namespace System

variable {s t : System w} {k : Choice} {ks : List Choice}

/-- A raising call is alone with the flags, and Stopped is stored only over cleared ones. -/
structure SingleOwner (s : System w) : Prop where
  atMostOne : s.phases .raising ≤ 1
  apart : 0 < s.phases .raising →
    s.shared.lifecycle.state ≠ .stopped ∧ s.phases .cleanup = 0
  saw : ∀ pc ∈ s.calls, pc.Saw s.shared.lifecycle
  stopped : s.shared.lifecycle.state = .stopped →
    s.shared.lifecycle.driverInstalled = false ∧ s.shared.lifecycle.taskOwned = false

/-- The steps of the other threads. -/
theorem SingleOwner.stable (h : s.SingleOwner) (calls : t.calls = s.calls)
    (other : Interference s.shared.lifecycle t.shared.lifecycle) : t.SingleOwner := by
  have phases (phase : Phase) : t.phases phase = s.phases phase := by
    unfold System.phases
    rw [calls]
  refine ⟨?_, ?_, ?_, ?_⟩
  · rw [phases]
    exact h.atMostOne
  · rw [phases, phases]
    intro raising
    obtain ⟨live, alone⟩ := h.apart raising
    exact ⟨mt other.stopped_iff.mp live, alone⟩
  · rw [calls]
    intro pc hpc
    exact (h.saw pc hpc).stable (fun set => other.installed.symm.trans set) other.owned
  · intro stopped
    obtain ⟨installed, owned⟩ := h.stopped (other.stopped_iff.mp stopped)
    exact ⟨other.installed.trans installed, other.disowned owned⟩

/-- A call that begins is in no phase yet. -/
theorem SingleOwner.begin (h : s.SingleOwner) {pc : CallPc w} (neutral : pc.phase = .neutral) :
    ({ s with calls := s.calls ++ [pc] } : System w).SingleOwner := by
  have phases (phase : Phase) (busy : phase ≠ .neutral) :
      ({ s with calls := s.calls ++ [pc] } : System w).phases phase = s.phases phase := by
    have other : ¬ Phase.neutral = phase := fun same => busy same.symm
    simp [System.phases, List.countP_append, neutral, other]
  refine ⟨?_, ?_, ?_, h.stopped⟩
  · rw [phases .raising (by simp)]
    exact h.atMostOne
  · rw [phases .raising (by simp), phases .cleanup (by simp)]
    exact h.apart
  · intro pc' hpc'
    rcases List.mem_append.mp hpc' with old | new
    · exact h.saw pc' old
    · obtain rfl := List.mem_singleton.mp new
      exact CallPc.saw_of_phase (by rw [neutral]; simp) _

theorem SingleOwner.call (h : s.SingleOwner) {i : ℕ} {ok : Bool} {pc : CallPc w}
    {shared : Shared w} {control : Control (CallPc w) Result} {tasks : List (TaskPc w)}
    (hpc : s.calls[i]? = some pc)
    (turns : pc.turnsToCleanup s.shared.lifecycle ok = true → s.phases .raising = 0)
    (reserves : pc.reserves s.shared.lifecycle = true → s.phases .cleanup = 0)
    (hstep : pc.step s.shared ok = some (shared, control)) :
    ({ s with shared := shared, calls := resume s.calls i control, tasks := tasks } :
      System w).SingleOwner := by
  obtain ⟨changes, arrives⟩ := CallPc.step_overlap (h.saw pc (List.mem_of_getElem? hpc)) hstep
  have atMostOne := h.atMostOne
  have apart := h.apart
  have count (phase : Phase) : (resume s.calls i control).countP (fun pc => pc.phase = phase) +
      [pc].countP (fun pc => pc.phase = phase) =
        s.phases phase + control.live.countP (fun pc => pc.phase = phase) :=
    countP_resume (fun pc => pc.phase = phase) hpc control
  have present (phase : Phase) (mine : pc.phase = phase) : 0 < s.phases phase :=
    List.countP_pos_iff.mpr ⟨pc, List.mem_of_getElem? hpc, decide_eq_true mine⟩
  have arrived : control.live.countP (fun pc => pc.phase = .raising) = 0 ∨
      (control.live.countP (fun pc => pc.phase = .raising) = 1 ∧
        control.live.countP (fun pc => pc.phase = .cleanup) = 0 ∧
        (pc.phase = .raising ∨ pc.reserves s.shared.lifecycle = true)) := by
    cases control with
    | ret result => exact .inl rfl
    | next pc' =>
      by_cases raising : pc'.phase = .raising
      · exact .inr ⟨by simp [raising], by simp [raising], arrives.1 raising⟩
      · exact .inl (by simp [raising])
  have turned : control.live.countP (fun pc => pc.phase = .cleanup) = 0 ∨
      pc.phase ≠ .neutral ∨ pc.turnsToCleanup s.shared.lifecycle ok = true := by
    cases control with
    | ret result => exact .inl rfl
    | next pc' =>
      by_cases cleanup : pc'.phase = .cleanup
      · exact .inr (arrives.2.1 cleanup)
      · exact .inl (by simp [cleanup])
  have free : pc.reserves s.shared.lifecycle = true → s.phases .raising = 0 := by
    intro reserving
    by_contra raising
    obtain ⟨live, -⟩ := apart (Nat.pos_of_ne_zero raising)
    cases pc with
    | start configuration pc =>
      cases pc with
      | beginStart => simp_all [CallPc.reserves]
      | _ => cases reserving
    | stop pc => cases reserving
  have live (raising : 0 < s.phases .raising) : shared.lifecycle.state ≠ .stopped := by
    intro stopped
    obtain ⟨before, alone⟩ := apart raising
    rcases changes.stops stopped with ⟨same, -⟩ | ⟨cleanup, -⟩
    · exact before same
    · exact absurd alone (present .cleanup cleanup).ne'
  have mine := count .raising
  have mine' := count .cleanup
  refine ⟨?_, ?_, ?_, ?_⟩
  · show (resume s.calls i control).countP _ ≤ 1
    rcases arrived with none | ⟨one, -, raising | reserving⟩
    · omega
    · have self : [pc].countP (fun pc => pc.phase = .raising) = 1 := by simp [raising]
      omega
    · have := free reserving
      omega
  · show 0 < (resume s.calls i control).countP _ →
      _ ∧ (resume s.calls i control).countP _ = 0
    intro some
    rcases arrived with none | ⟨one, none, raising | reserving⟩
    · -- another call is raising, so this one stays out of cleanup
      have raising : 0 < s.phases .raising := by omega
      have alone := (apart raising).2
      have neutral : pc.phase = .neutral := by
        cases phase : pc.phase with
        | neutral => rfl
        | raising =>
          have self : [pc].countP (fun pc => pc.phase = .raising) = 1 := by simp [phase]
          omega
        | cleanup => exact absurd alone (present .cleanup phase).ne'
      rcases turned with out | busy | turning
      · exact ⟨live raising, by omega⟩
      · exact absurd neutral busy
      · have := turns turning
        omega
    · have busy := present .raising raising
      have alone := (apart busy).2
      exact ⟨live busy, by omega⟩
    · have alone := reserves reserving
      refine ⟨?_, by omega⟩
      intro stopped
      rcases changes.stops stopped with ⟨-, absurd⟩ | ⟨cleanup, -⟩
      · rw [reserving] at absurd
        cases absurd
      · rw [CallPc.phase_of_reserves reserving] at cleanup
        cases cleanup
  · intro pc' hpc'
    have other (old : pc' ∈ s.calls) : pc'.Saw shared.lifecycle := by
      by_cases raising : pc.phase = .raising
      · have alone := (apart (present .raising raising)).2
        refine CallPc.saw_of_phase ?_ _
        have none := List.countP_eq_zero.mp alone pc' old
        simpa using none
      · exact (h.saw pc' old).stable (changes.installed raising) (changes.owned raising)
    rcases mem_of_mem_resume hpc hpc' with old | mine
    · exact other old
    · cases control with
      | ret result => cases mine
      | next pc' =>
        obtain rfl := List.mem_singleton.mp mine
        exact arrives.2.2
  · intro stopped
    have quiet : pc.phase ≠ .raising := by
      intro raising
      exact live (present .raising raising) stopped
    have cleared : s.shared.lifecycle.driverInstalled = false ∧
        s.shared.lifecycle.taskOwned = false := by
      rcases changes.stops stopped with ⟨before, -⟩ | ⟨-, cleared⟩
      · exact h.stopped before
      · exact cleared
    exact ⟨stays_cleared (changes.installed quiet) cleared.1,
      stays_cleared (changes.owned quiet) cleared.2⟩

theorem SingleOwner.next (h : s.SingleOwner) (apart : s.keptApart k = true)
    (step : s.next k = some t) : t.SingleOwner := by
  cases k with
  | beginStart configuration =>
    obtain rfl := Option.some.inj step
    exact h.begin rfl
  | beginStop =>
    obtain rfl := Option.some.inj step
    exact h.begin rfl
  | call i ok =>
    obtain ⟨pc, shared, control, hpc, hstep, rfl⟩ := next_call step
    simp only [keptApart, hpc, Bool.and_eq_true, Bool.or_eq_true, Bool.not_eq_true',
      decide_eq_true_eq] at apart
    refine h.call hpc ?_ ?_ hstep
    · intro turning
      exact apart.1.resolve_left (by simp [turning])
    · intro reserving
      exact apart.2.resolve_left (by simp [reserving])
  | _ =>
    obtain ⟨calls, other⟩ := next_interference step (by simp) (by simp) (by simp)
    exact h.stable calls other

/-- In every run of any number of overlapping calls that are kept apart, a stopped
controller owns neither driver nor task, so no start() is admitted beside an owner. -/
theorem stopped_owns_nothing
    (run : exec (guarded keptApart next) ({} : System w) ks = some s) :
    (s.shared.lifecycle.state = .stopped →
      s.shared.lifecycle.driverInstalled = false ∧ s.shared.lifecycle.taskOwned = false) ∧
    ∀ pc ∈ s.calls, pc.reserves s.shared.lifecycle = true →
      s.shared.lifecycle.driverInstalled = false ∧ s.shared.lifecycle.taskOwned = false := by
  have owner : s.SingleOwner := by
    refine exec_invariant (P := SingleOwner) ?_ run ?_
    · intro s k t h step
      obtain ⟨apart, step⟩ := guarded_eq_some.mp step
      exact h.next apart step
    · exact ⟨Nat.zero_le _, fun some => absurd some (Nat.lt_irrefl 0), by simp, fun _ => ⟨rfl, rfl⟩⟩
  refine ⟨owner.stopped, ?_⟩
  intro pc _ reserving
  cases pc with
  | start configuration pc =>
    cases pc with
    | beginStart => exact owner.stopped (by simp_all [CallPc.reserves])
    | _ => cases reserving
  | stop pc => cases reserving

/-- A stop() with a start() beside it that is refused. -/
def refusedOverlapRun : List Choice :=
  startRun ++ [.beginStop, .beginStart {}] ++ List.replicate 2 (.call 0 true) ++
    List.replicate 2 (.call 1 true) ++ List.replicate 4 (.call 0 true) ++
    List.replicate 4 (.task 0 {}) ++ List.replicate 9 (.call 0 true)

theorem stopped_owns_nothing_overlapping :
    let s := final (guarded keptApart next) ({} : System 32) refusedOverlapRun
    s.shared.lifecycle.state = .stopped ∧ s.shared.lifecycle.driverInstalled = false := by
  have run : exec (guarded keptApart next) ({} : System 32) refusedOverlapRun =
      some (final (guarded keptApart next) ({} : System 32) refusedOverlapRun) :=
    exec_eq_final _ _ _ (by decide)
  have stopped : (final (guarded keptApart next) ({} : System 32)
      refusedOverlapRun).shared.lifecycle.state = .stopped := by decide
  exact ⟨stopped, ((stopped_owns_nothing run).1 stopped).1⟩

/-- After a whole acquisition, a start() has reserved the controller and created nothing
yet when a stop() runs to the end of its cleanup; then the start() goes on. -/
def raisingOverlapRun : List Choice :=
  cleanRun ++ [.call 0 true] ++ .beginStart {} :: List.replicate 5 (.call 0 true) ++
    .beginStop :: List.replicate 10 (.call 1 true) ++ List.replicate 2 (.call 0 true)

theorem overlapping_stop_breaks_ownership :
    ∃ s, exec next ({} : System 32) raisingOverlapRun = some s ∧
      s.shared.lifecycle.state = .stopped ∧ s.shared.lifecycle.driverInstalled = true ∧
      (CallPc.start (w := 32) {} .beginStart).reserves s.shared.lifecycle = true :=
  ⟨final next {} raisingOverlapRun, exec_eq_final _ _ _ (by decide), by decide, by decide, by decide⟩

end System

end CanTelemetry.CanBus
