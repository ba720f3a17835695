import CanTelemetry.CanBus.System

/-! Ownership under serialized start() and stop() calls. At each point of a call some of
the controller's flags are known, because only the call sets or clears the driver flags
and a task can only give up its ownership and latch a fault. The table `knows` lists what
is known; it survives every step of the tasks, and each step of the call leads from one
row of the table to the next. -/

namespace CanTelemetry.CanBus

open Execution Threads

variable {w : ℕ}

/-- A flag is set only while the driver it speaks of is installed, and a stopped
controller owns nothing. -/
structure LifecycleController.Sound (c : LifecycleController) : Prop where
  started : c.driverStarted = true → c.driverInstalled = true
  owned : c.taskOwned = true → c.driverInstalled = true
  stopped : c.state = .stopped →
    c.driverInstalled = false ∧ c.driverStarted = false ∧ c.taskOwned = false

namespace LifecycleController.Sound

variable {c : LifecycleController}

theorem idle (h : c.Sound) (uninstalled : c.driverInstalled = false) : c.driverStarted = false :=
  stays_cleared h.started uninstalled

theorem install (active : c.state ≠ .stopped) : c.markDriverInstalled.Sound :=
  ⟨fun _ => rfl, fun _ => rfl, fun stopped => absurd stopped active⟩

theorem start (h : c.Sound) (active : c.state ≠ .stopped) (installed : c.driverInstalled = true) :
    c.markDriverStarted.Sound :=
  ⟨fun _ => installed, h.owned, fun stopped => absurd stopped active⟩

theorem own (h : c.Sound) (active : c.state ≠ .stopped) (installed : c.driverInstalled = true) :
    c.markTaskCreated.Sound :=
  ⟨h.started, fun _ => installed, fun stopped => absurd stopped active⟩

theorem stopDriver (h : c.Sound) : c.markDriverStopped.Sound :=
  ⟨fun started => absurd started Bool.false_ne_true, h.owned,
    fun stopped => ⟨(h.stopped stopped).1, rfl, (h.stopped stopped).2.2⟩⟩

theorem disown (h : c.Sound) : c.acknowledgeTask.Sound :=
  ⟨h.started, fun owned => absurd owned Bool.false_ne_true,
    fun stopped => ⟨(h.stopped stopped).1, (h.stopped stopped).2.1, rfl⟩⟩

theorem uninstall (idle : c.driverStarted = false) (free : c.taskOwned = false) :
    c.markDriverUninstalled.Sound :=
  ⟨fun started => absurd (idle.symm.trans started) (by simp),
    fun owned => absurd (free.symm.trans owned) (by simp), fun _ => ⟨rfl, idle, free⟩⟩

/-- A state other than Stopped may be stored at any time, Stopped only when nothing is owned. -/
theorem store (h : c.Sound) {target : LifecycleState}
    (free : target = .stopped → c.driverInstalled = false ∧ c.taskOwned = false) :
    { c with state := target }.Sound :=
  ⟨h.started, h.owned, fun stopped => ⟨(free stopped).1, h.idle (free stopped).1, (free stopped).2⟩⟩

end LifecycleController.Sound

/-- What other threads than the call may do to the controller meanwhile. -/
structure Interference (c c' : LifecycleController) : Prop where
  installed : c'.driverInstalled = c.driverInstalled
  started : c'.driverStarted = c.driverStarted
  owned : c'.taskOwned = true → c.taskOwned = true
  state : c'.state = c.state ∨ c.state ≠ .stopped ∧ c'.state = .faulted

namespace Interference

variable {c c' c'' : LifecycleController}

theorem refl (c : LifecycleController) : Interference c c := ⟨rfl, rfl, id, .inl rfl⟩

theorem disowned (h : Interference c c') (free : c.taskOwned = false) : c'.taskOwned = false :=
  stays_cleared h.owned free

theorem stopped_iff (h : Interference c c') : c'.state = .stopped ↔ c.state = .stopped := by
  cases h.state with
  | inl same => rw [same]
  | inr latched =>
    rw [latched.2]
    exact ⟨by simp, fun stopped => absurd stopped latched.1⟩

theorem sound (h : Interference c c') (sound : c.Sound) : c'.Sound := by
  refine ⟨?_, ?_, ?_⟩
  · rw [h.installed, h.started]
    exact sound.started
  · rw [h.installed]
    exact fun owned => sound.owned (h.owned owned)
  · intro stopped
    obtain ⟨installed, started, owned⟩ := sound.stopped (h.stopped_iff.mp stopped)
    exact ⟨h.installed.trans installed, h.started.trans started, h.disowned owned⟩

end Interference

theorem LatchPc.step_interference {sh sh' : Shared w} {cas : Bool} {pc : LatchPc}
    {control : Control LatchPc Unit} (step : pc.step sh cas = some (sh', control)) :
    Interference sh.lifecycle sh'.lifecycle := by
  cases pc with
  | unrequest =>
    obtain ⟨rfl, -⟩ := Prod.mk.inj (Option.some.inj step)
    exact .refl _
  | latch pc =>
    obtain ⟨rfl, -⟩ := Prod.mk.inj (Option.some.inj step)
    show Interference sh.lifecycle (pc.step sh.lifecycle cas).1
    cases pc.step_cases sh.lifecycle cas with
    | inl looked => rw [looked]; exact .refl _
    | inr latched => rw [latched.2]; exact ⟨rfl, rfl, id, .inr ⟨latched.1, rfl⟩⟩
  | wake =>
    obtain ⟨s, -, same⟩ := Option.map_eq_some_iff.mp step
    obtain ⟨rfl, -⟩ := Prod.mk.inj same
    exact .refl _

/-- A task only gives up its ownership or latches a fault. -/
theorem TaskPc.step_interference {sh sh' : Shared w} {env : TaskEnv} {pc : TaskPc w}
    {control : Control (TaskPc w) Unit} (step : pc.step env sh = some (sh', control)) :
    Interference sh.lifecycle sh'.lifecycle := by
  cases pc with
  | latch pc =>
    obtain ⟨⟨sh'', control'⟩, inner, same⟩ := Option.map_eq_some_iff.mp step
    obtain ⟨rfl, -⟩ := Prod.mk.inj same
    exact pc.step_interference inner
  | giveAvailable =>
    obtain ⟨s, -, same⟩ := Option.map_eq_some_iff.mp step
    obtain ⟨rfl, -⟩ := Prod.mk.inj same
    exact .refl _
  | giveStopped =>
    obtain ⟨s, -, same⟩ := Option.map_eq_some_iff.mp step
    obtain ⟨rfl, -⟩ := Prod.mk.inj same
    exact .refl _
  | acknowledge =>
    obtain ⟨rfl, -⟩ := Prod.mk.inj (Option.some.inj step)
    exact ⟨rfl, rfl, by simp [LifecycleController.acknowledgeTask], .inl rfl⟩
  | _ =>
    obtain ⟨rfl, -⟩ := Prod.mk.inj (Option.some.inj step)
    exact .refl _

theorem takeNow_eq_some {π ρ : Type*} {limit : ℕ} {semaphore : Option (Semaphore limit)}
    {taken : Semaphore limit → Shared w × Control π ρ} {empty result : Shared w × Control π ρ}
    (h : takeNow semaphore taken empty = some result) :
    (∃ s s', semaphore = some s ∧ s.take? = some s' ∧ result = taken s') ∨
      (∃ s, semaphore = some s ∧ s.take? = none ∧ result = empty) := by
  obtain ⟨s, hs, h⟩ := Option.map_eq_some_iff.mp h
  cases ht : s.take? with
  | none => exact .inr ⟨s, hs, ht, by simpa [ht] using h.symm⟩
  | some s' => exact .inl ⟨s, s', hs, ht, by simpa [ht] using h.symm⟩

theorem takeWithin_eq_some {π ρ : Type*} {limit : ℕ} {semaphore : Option (Semaphore limit)}
    {granted : Bool} {taken : Semaphore limit → Shared w × Control π ρ}
    {expired result : Shared w × Control π ρ}
    (h : takeWithin semaphore granted taken expired = some result) :
    (∃ s s', granted = true ∧ semaphore = some s ∧ s.take? = some s' ∧ result = taken s') ∨
      (granted = false ∧ result = expired) := by
  obtain ⟨s, hs, h⟩ := Option.bind_eq_some_iff.mp h
  cases granted with
  | false => exact .inr ⟨rfl, (Option.some.inj h).symm⟩
  | true =>
    obtain ⟨s', ht, rfl⟩ := Option.map_eq_some_iff.mp h
    exact .inl ⟨s, s', rfl, hs, ht, rfl⟩

/-- receive() does not touch the controller. -/
theorem ReceivePc.step_lifecycle {sh sh' : Shared w} {granted : Bool} {pc : ReceivePc w}
    {control : Control (ReceivePc w) (Result × Option VehicleCore.RawCanFrame)}
    (step : pc.step sh granted = some (sh', control)) : sh'.lifecycle = sh.lifecycle := by
  cases pc with
  | take timeoutMs =>
    simp only [ReceivePc.step] at step
    split at step
    · rcases takeNow_eq_some step with ⟨s, s', -, -, same⟩ | ⟨s, -, -, same⟩ <;>
        obtain ⟨rfl, -⟩ := Prod.mk.inj same <;> rfl
    · rcases takeWithin_eq_some step with ⟨s, s', -, -, -, same⟩ | ⟨-, same⟩ <;>
        obtain ⟨rfl, -⟩ := Prod.mk.inj same <;> rfl
  | _ =>
    obtain ⟨rfl, -⟩ := Prod.mk.inj (Option.some.inj step)
    rfl

/-! ### What a call knows -/

/-- Known values of the controller's flags; `none` and `disowned := false` say nothing. -/
structure Knowledge where
  active : Option Bool := none
  installed : Option Bool := none
  started : Option Bool := none
  disowned : Bool := false

structure Knowledge.Holds (k : Knowledge) (c : LifecycleController) : Prop where
  active : ∀ b, k.active = some b → (c.state ≠ .stopped ↔ b = true)
  installed : ∀ b, k.installed = some b → c.driverInstalled = b
  started : ∀ b, k.started = some b → c.driverStarted = b
  disowned : k.disowned = true → c.taskOwned = false

theorem Knowledge.Holds.stable {k : Knowledge} {c c' : LifecycleController} (h : k.Holds c)
    (other : Interference c c') : k.Holds c' := by
  refine ⟨?_, ?_, ?_, ?_⟩
  · intro b hb
    rw [← h.active b hb, ne_eq, ne_eq, other.stopped_iff]
  · intro b hb
    rw [other.installed, h.installed b hb]
  · intro b hb
    rw [other.started, h.started b hb]
  · exact fun hd => other.disowned (h.disowned hd)

namespace Knowledge.Holds

variable {k : Knowledge} {c : LifecycleController}

theorem nothing (c : LifecycleController) : Knowledge.Holds {} c :=
  ⟨by simp, by simp, by simp, by simp⟩

theorem ofState {b : Bool} (state : c.state ≠ .stopped ↔ b = true) :
    Knowledge.Holds { active := some b } c := by
  refine ⟨?_, by simp, by simp, by simp⟩
  intro b' hb
  obtain rfl := Option.some.inj hb
  exact state

theorem forgetInstalled (h : k.Holds c) : { k with installed := none }.Holds c :=
  ⟨h.active, by simp, h.started, h.disowned⟩

theorem forgetStarted (h : k.Holds c) : { k with started := none }.Holds c :=
  ⟨h.active, h.installed, by simp, h.disowned⟩

theorem setInstalled (h : k.Holds c) (b : Bool) :
    { k with installed := some b }.Holds { c with driverInstalled := b } :=
  ⟨h.active, fun _ hb => Option.some.inj hb, h.started, h.disowned⟩

theorem setStarted (h : k.Holds c) (b : Bool) :
    { k with started := some b }.Holds { c with driverStarted := b } :=
  ⟨h.active, h.installed, fun _ hb => Option.some.inj hb, h.disowned⟩

theorem own (h : k.Holds c) : { k with disowned := false }.Holds c.markTaskCreated :=
  ⟨h.active, h.installed, h.started, by simp⟩

theorem disown (h : k.Holds c) : { k with disowned := true }.Holds c.acknowledgeTask :=
  ⟨h.active, h.installed, h.started, fun _ => rfl⟩

theorem loadInstalled (h : k.Holds c) : { k with installed := some c.driverInstalled }.Holds c :=
  ⟨h.active, fun _ hb => Option.some.inj hb, h.started, h.disowned⟩

theorem loadStarted (h : k.Holds c) : { k with started := some c.driverStarted }.Holds c :=
  ⟨h.active, h.installed, fun _ hb => Option.some.inj hb, h.disowned⟩

theorem loadDisowned (h : k.Holds c) (free : c.taskOwned = false) :
    { k with disowned := true }.Holds c :=
  ⟨h.active, h.installed, h.started, fun _ => free⟩

theorem store (h : k.Holds c) {target : LifecycleState} (live : target ≠ .stopped) :
    { k with active := some true }.Holds { c with state := target } := by
  refine ⟨?_, h.installed, h.started, h.disowned⟩
  intro b hb
  obtain rfl := Option.some.inj hb
  exact ⟨fun _ => rfl, fun _ => live⟩

theorem state_ne (h : k.Holds c) (active : k.active = some true) : c.state ≠ .stopped :=
  (h.active true active).mpr rfl

end Knowledge.Holds

namespace Knowledge

/-- Running is reserved and the driver is not installed. -/
def reserved : Knowledge :=
  { active := some true, installed := some false, started := some false, disowned := true }

/-- The driver is installed and not started, and no task is owned. -/
def idleDriver : Knowledge :=
  { active := some true, installed := some true, started := some false, disowned := true }

def startedDriver : Knowledge :=
  { active := some true, installed := some true, started := some true, disowned := true }

end Knowledge

/-- Reserving a stopped controller: everything about it is known. -/
theorem Knowledge.Holds.reserve {c : LifecycleController} (sound : c.Sound)
    (stopped : c.state = .stopped) : Knowledge.reserved.Holds { c with state := .running } := by
  obtain ⟨uninstalled, idle, free⟩ := sound.stopped stopped
  refine ⟨?_, ?_, ?_, fun _ => free⟩
  all_goals
    intro b hb
    obtain rfl := Option.some.inj hb
  · exact ⟨fun _ => rfl, fun _ => (by simp)⟩
  · exact uninstalled
  · exact idle

def ReconcilePc.knows (before : Knowledge) : ReconcilePc → Knowledge
  | .loadOwned => before
  | .loadInstalled => { before with disowned := true }
  | .store .stopped => { installed := some false, disowned := true }
  | .store _ => {}

def StartPc.knows : StartPc w → Knowledge
  | .beginStart | .refused => {}
  | .createAvailable | .createTaskStopped | .abort _ _ | .drainAvailable | .drainTaskStopped
  | .driverInstall | .markInstalled => .reserved
  | .driverStart | .markStarted | .driverUninstall _ | .markUninstalled _ => .idleDriver
  | .clear _ | .setBusId | .recordReset | .resetLastCounters | .request | .markTask
  | .beginStop _ | .driverStop | .markStopped => .startedDriver
  | .createTask | .setStartedBefore | .unrequest | .disown =>
    { Knowledge.startedDriver with disowned := false }
  | .reconcile pc _ => pc.knows { active := some true, disowned := true }

def StopPc.knows : StopPc → Knowledge
  | .begin _ => {}
  | .unrequest | .loadStarted => { active := some true }
  | .driverStop | .markStopped => { active := some true, started := some true }
  | .loadOwned driverStopped => { active := some true, started := some !driverStopped }
  | .awaitTask driverStopped | .acknowledge driverStopped =>
    { active := some true, installed := some true, started := some !driverStopped }
  | .dropToken driverStopped =>
    { active := some true, started := some !driverStopped, disowned := true }
  | .loadInstalled driverStopped taskStopped =>
    { active := some true, installed := if taskStopped then none else some true,
      started := some !driverStopped, disowned := taskStopped }
  | .driverUninstall | .markUninstalled => .idleDriver
  | .reconcile pc driverStopped taskStopped driverUninstalled =>
    pc.knows
      { active := some true, installed := some !driverUninstalled,
        started := some !driverStopped, disowned := taskStopped }
  | .drainAvailable => { active := some false }

def CallPc.knows : CallPc w → Knowledge
  | .start _ pc => pc.knows
  | .stop pc => pc.knows

/-- What a stop() remembers of its own course: without the task it has not uninstalled
the driver, and the state it decided on is Stopped exactly when it has finished. -/
def CallPc.Consistent : CallPc w → Prop
  | .stop (.reconcile (.store target) driverStopped taskStopped driverUninstalled) =>
    (target = .stopped ↔ driverStopped = true ∧ taskStopped = true ∧ driverUninstalled = true)
  | .stop (.reconcile _ _ taskStopped driverUninstalled) =>
    taskStopped = false → driverUninstalled = false
  | _ => True

/-- The assertion that holds while a call stands at a program counter. -/
structure CallPc.Outline (pc : CallPc w) (c : LifecycleController) : Prop where
  sound : c.Sound
  knows : pc.knows.Holds c
  consistent : pc.Consistent

theorem CallPc.Outline.stable {pc : CallPc w} {c c' : LifecycleController} (h : pc.Outline c)
    (other : Interference c c') : pc.Outline c' :=
  ⟨other.sound h.sound, h.knows.stable other, h.consistent⟩

/-- Where a call stands after a step. -/
def CallPc.After (c : LifecycleController) : Control (CallPc w) Result → Prop
  | .next pc => pc.Outline c
  | .ret _ => c.Sound

/-! ### One step of a call -/

theorem ReconcilePc.step_after {configuration : Configuration} {c : LifecycleController}
    {pc : ReconcilePc} {result : Result} (sound : c.Sound)
    (known : (pc.knows { active := some true, disowned := true }).Holds c) :
    CallPc.After (w := w) (pc.step c).1
      (((pc.step c).2.call (StartPc.reconcile · result) fun _ => .ret result).call
        (.start configuration) .ret) := by
  cases pc with
  | loadOwned =>
    simp only [ReconcilePc.step, known.disowned rfl]
    exact ⟨sound, known, trivial⟩
  | loadInstalled =>
    have free := known.disowned rfl
    have read := (Knowledge.Holds.nothing c).loadInstalled.loadDisowned free
    simp only [ReconcilePc.step]
    cases installed : c.driverInstalled with
    | false =>
      rw [installed] at read
      exact ⟨sound, read, trivial⟩
    | true => exact ⟨sound, .nothing c, trivial⟩
  | store target =>
    refine sound.store ?_
    rintro rfl
    exact ⟨known.installed false rfl, known.disowned rfl⟩

theorem AbortPc.step_after {configuration : Configuration} {c : LifecycleController} {pc : AbortPc}
    {result : Result} (sound : c.Sound) (known : Knowledge.reserved.Holds c) :
    CallPc.After (w := w) (pc.step c).1
      (((pc.step c).2.call (StartPc.abort · result) fun _ => .ret result).call
        (.start configuration) .ret) := by
  have free := known.disowned rfl
  have uninstalled := known.installed false rfl
  cases pc with
  | loadInstalled =>
    simp only [AbortPc.step, uninstalled]
    exact ⟨sound, known, trivial⟩
  | loadOwned =>
    simp only [AbortPc.step, free]
    exact ⟨sound, known, trivial⟩
  | storeStopped =>
    exact ⟨sound.started, sound.owned, fun _ => ⟨uninstalled, known.started false rfl, free⟩⟩

theorem StartPc.step_outline {configuration : Configuration} {sh sh' : Shared w} {ok : Bool}
    {pc : StartPc w} {control : Control (StartPc w) Result}
    (h : (CallPc.start configuration pc).Outline sh.lifecycle)
    (step : pc.step configuration sh ok = some (sh', control)) :
    CallPc.After sh'.lifecycle (control.call (.start configuration) .ret) := by
  obtain ⟨sound, known, -⟩ := h
  cases pc with
  | beginStart =>
    simp only [StartPc.step] at step
    split at step
    · obtain ⟨rfl, rfl⟩ := Prod.mk.inj (Option.some.inj step)
      exact sound
    · obtain ⟨rfl, rfl⟩ := Prod.mk.inj (Option.some.inj step)
      by_cases stopped : sh.lifecycle.state = .stopped
      · simp only [LifecycleController.beginStart, if_pos stopped]
        exact ⟨sound.store (by simp), .reserve sound stopped, trivial⟩
      · simp only [LifecycleController.beginStart, if_neg stopped]
        exact ⟨sound, known, trivial⟩
  | createTaskStopped =>
    obtain ⟨rfl, rfl⟩ := Prod.mk.inj (Option.some.inj step)
    simp only [Shared.afterCreation, Control.call_next]
    split <;> split <;> exact ⟨sound, known, trivial⟩
  | abort pc result =>
    obtain ⟨rfl, rfl⟩ := Prod.mk.inj (Option.some.inj step)
    exact AbortPc.step_after sound known
  | drainAvailable =>
    rcases takeNow_eq_some step with ⟨s, s', -, -, same⟩ | ⟨s, -, -, same⟩ <;>
      obtain ⟨rfl, rfl⟩ := Prod.mk.inj same <;>
      exact ⟨sound, known, trivial⟩
  | drainTaskStopped =>
    rcases takeNow_eq_some step with ⟨s, s', -, -, same⟩ | ⟨s, -, -, same⟩ <;>
      obtain ⟨rfl, rfl⟩ := Prod.mk.inj same <;>
      exact ⟨sound, known, trivial⟩
  | driverInstall =>
    cases ok <;> obtain ⟨rfl, rfl⟩ := Prod.mk.inj (Option.some.inj step) <;>
      exact ⟨sound, known, trivial⟩
  | driverStart =>
    cases ok <;> obtain ⟨rfl, rfl⟩ := Prod.mk.inj (Option.some.inj step) <;>
      exact ⟨sound, known, trivial⟩
  | clear pc =>
    obtain ⟨rfl, rfl⟩ := Prod.mk.inj (Option.some.inj step)
    cases (pc.step sh.frames ok).2 <;> exact ⟨sound, known, trivial⟩
  | setStartedBefore =>
    obtain ⟨rfl, rfl⟩ := Prod.mk.inj (Option.some.inj step)
    exact sound
  | refused =>
    obtain ⟨rfl, rfl⟩ := Prod.mk.inj (Option.some.inj step)
    exact sound
  | createTask =>
    obtain ⟨rfl, rfl⟩ := Prod.mk.inj (Option.some.inj step)
    cases ok <;> exact ⟨sound, known, trivial⟩
  | driverStop =>
    cases ok with
    | true =>
      obtain ⟨rfl, rfl⟩ := Prod.mk.inj (Option.some.inj step)
      exact ⟨sound, known, trivial⟩
    | false =>
      obtain ⟨rfl, rfl⟩ := Prod.mk.inj (Option.some.inj step)
      exact ⟨sound, known.forgetInstalled.forgetStarted, trivial⟩
  | driverUninstall result =>
    cases ok with
    | true =>
      obtain ⟨rfl, rfl⟩ := Prod.mk.inj (Option.some.inj step)
      exact ⟨sound, known, trivial⟩
    | false =>
      obtain ⟨rfl, rfl⟩ := Prod.mk.inj (Option.some.inj step)
      exact ⟨sound, known.forgetInstalled.forgetStarted, trivial⟩
  | beginStop pc =>
    obtain ⟨rfl, rfl⟩ := Prod.mk.inj (Option.some.inj step)
    rcases pc.step_cases sh.lifecycle ok with looked | ⟨live, marked⟩
    · rw [looked]
      cases BeginStopPc.test sh.lifecycle.state <;> exact ⟨sound, known, trivial⟩
    · rw [marked]
      exact ⟨sound.store (by simp), known.store (by simp), trivial⟩
  | reconcile pc result =>
    obtain ⟨rfl, rfl⟩ := Prod.mk.inj (Option.some.inj step)
    exact ReconcilePc.step_after sound known
  | markInstalled =>
    obtain ⟨rfl, rfl⟩ := Prod.mk.inj (Option.some.inj step)
    exact ⟨.install (known.state_ne rfl), known.setInstalled true, trivial⟩
  | markStarted =>
    obtain ⟨rfl, rfl⟩ := Prod.mk.inj (Option.some.inj step)
    exact ⟨sound.start (known.state_ne rfl) (known.installed true rfl),
      known.setStarted true, trivial⟩
  | markTask =>
    obtain ⟨rfl, rfl⟩ := Prod.mk.inj (Option.some.inj step)
    exact ⟨sound.own (known.state_ne rfl) (known.installed true rfl), known.own, trivial⟩
  | disown =>
    obtain ⟨rfl, rfl⟩ := Prod.mk.inj (Option.some.inj step)
    exact ⟨sound.disown, known.disown, trivial⟩
  | markStopped =>
    obtain ⟨rfl, rfl⟩ := Prod.mk.inj (Option.some.inj step)
    exact ⟨sound.stopDriver, known.setStarted false, trivial⟩
  | markUninstalled result =>
    obtain ⟨rfl, rfl⟩ := Prod.mk.inj (Option.some.inj step)
    exact ⟨.uninstall (known.started false rfl) (known.disowned rfl),
      (known.setInstalled false).forgetInstalled.forgetStarted, trivial⟩
  | _ =>
    obtain ⟨rfl, rfl⟩ := Prod.mk.inj (Option.some.inj step)
    exact ⟨sound, known, trivial⟩

theorem ReconcilePc.step_after_stop {c : LifecycleController} {pc : ReconcilePc}
    {driverStopped taskStopped driverUninstalled : Bool}
    (h : (CallPc.stop (w := w)
      (.reconcile pc driverStopped taskStopped driverUninstalled)).Outline c) :
    CallPc.After (w := w) (pc.step c).1
      (((pc.step c).2.call (StopPc.reconcile · driverStopped taskStopped driverUninstalled) fun _ =>
        if driverStopped ∧ taskStopped ∧ driverUninstalled then .next .drainAvailable
        else .ret (if taskStopped then .driverFailure else .taskFailure)).call .stop .ret) := by
  obtain ⟨sound, known, consistent⟩ := h
  cases pc with
  | loadOwned =>
    simp only [ReconcilePc.step]
    cases owned : c.taskOwned with
    | false => exact ⟨sound, known.loadDisowned owned, consistent⟩
    | true =>
      refine ⟨sound, .nothing c, ⟨by simp, ?_⟩⟩
      rintro ⟨-, rfl, -⟩
      exact absurd (owned.symm.trans (known.disowned rfl)) (by simp)
  | loadInstalled =>
    have free := known.disowned rfl
    have flag := known.installed _ rfl
    have running := known.started _ rfl
    have read := (Knowledge.Holds.nothing c).loadInstalled.loadDisowned free
    simp only [ReconcilePc.step]
    cases installed : c.driverInstalled with
    | false =>
      rw [installed] at read flag
      refine ⟨sound, read, ⟨fun _ => ?_, fun _ => rfl⟩⟩
      have done : driverUninstalled = true := by simpa using flag.symm
      refine ⟨?_, ?_, done⟩
      · simpa [sound.idle installed] using running.symm
      · cases taskStopped with
        | true => rfl
        | false => exact absurd (done.symm.trans (consistent rfl)) (by simp)
    | true =>
      rw [installed] at flag
      refine ⟨sound, .nothing c, ⟨by simp, ?_⟩⟩
      rintro ⟨-, -, rfl⟩
      cases flag
  | store target =>
    have stored : { c with state := target }.Sound := by
      refine sound.store ?_
      rintro rfl
      exact ⟨known.installed false rfl, known.disowned rfl⟩
    simp only [ReconcilePc.step, Control.call_ret]
    split
    case isTrue done =>
      obtain rfl : target = .stopped := consistent.mpr done
      exact ⟨stored, .ofState ⟨fun live => absurd rfl live, by simp⟩, trivial⟩
    case isFalse => exact stored

theorem StopPc.step_outline {sh sh' : Shared w} {ok : Bool} {pc : StopPc}
    {control : Control StopPc Result} (h : (CallPc.stop (w := w) pc).Outline sh.lifecycle)
    (step : pc.step sh ok = some (sh', control)) :
    CallPc.After (w := w) sh'.lifecycle (control.call .stop .ret) := by
  have outline := h
  obtain ⟨sound, known, -⟩ := h
  cases pc with
  | begin pc =>
    obtain ⟨rfl, rfl⟩ := Prod.mk.inj (Option.some.inj step)
    rcases pc.step_cases sh.lifecycle ok with looked | ⟨live, marked⟩
    · rw [looked]
      cases state : sh.lifecycle.state with
      | stopping =>
        exact ⟨sound, .ofState (by simp [state]), trivial⟩
      | stopped => exact sound
      | _ => exact ⟨sound, known, trivial⟩
    · rw [marked]
      exact ⟨sound.store (by simp), known.store (by simp), trivial⟩
  | loadStarted =>
    obtain ⟨rfl, rfl⟩ := Prod.mk.inj (Option.some.inj step)
    have read := known.loadStarted
    cases started : sh.lifecycle.driverStarted <;> rw [started] at read <;>
      exact ⟨sound, read, trivial⟩
  | driverStop =>
    cases ok <;> obtain ⟨rfl, rfl⟩ := Prod.mk.inj (Option.some.inj step) <;>
      exact ⟨sound, known, trivial⟩
  | markStopped =>
    obtain ⟨rfl, rfl⟩ := Prod.mk.inj (Option.some.inj step)
    exact ⟨sound.stopDriver, known.setStarted false, trivial⟩
  | loadOwned driverStopped =>
    obtain ⟨rfl, rfl⟩ := Prod.mk.inj (Option.some.inj step)
    cases owned : sh.lifecycle.taskOwned with
    | true =>
      have read := known.loadInstalled
      rw [sound.owned owned] at read
      exact ⟨sound, read, trivial⟩
    | false => exact ⟨sound, known.loadDisowned owned, trivial⟩
  | awaitTask driverStopped =>
    rcases takeWithin_eq_some step with ⟨s, s', -, -, -, same⟩ | ⟨-, same⟩ <;>
      obtain ⟨rfl, rfl⟩ := Prod.mk.inj same <;>
      exact ⟨sound, known, trivial⟩
  | acknowledge driverStopped =>
    obtain ⟨rfl, rfl⟩ := Prod.mk.inj (Option.some.inj step)
    exact ⟨sound.disown, known.disown.forgetInstalled, trivial⟩
  | dropToken driverStopped =>
    rcases takeNow_eq_some step with ⟨s, s', -, -, same⟩ | ⟨s, -, -, same⟩ <;>
      obtain ⟨rfl, rfl⟩ := Prod.mk.inj same <;>
      exact ⟨sound, known, trivial⟩
  | loadInstalled driverStopped taskStopped =>
    obtain ⟨rfl, rfl⟩ := Prod.mk.inj (Option.some.inj step)
    have read := known.loadInstalled
    split
    case isTrue finishing =>
      obtain ⟨rfl, rfl, installed⟩ := finishing
      rw [installed] at read
      exact ⟨sound, read, trivial⟩
    case isFalse =>
      refine ⟨sound, ⟨read.active, ?_, read.started, read.disowned⟩, ?_⟩
      · intro b hb
        obtain rfl := Option.some.inj hb
        exact (Bool.not_not _).symm
      · rintro rfl
        rw [known.installed true rfl]
        rfl
  | driverUninstall =>
    cases ok with
    | true =>
      obtain ⟨rfl, rfl⟩ := Prod.mk.inj (Option.some.inj step)
      exact ⟨sound, known, trivial⟩
    | false =>
      obtain ⟨rfl, rfl⟩ := Prod.mk.inj (Option.some.inj step)
      exact ⟨sound, known, by rintro ⟨⟩⟩
  | markUninstalled =>
    obtain ⟨rfl, rfl⟩ := Prod.mk.inj (Option.some.inj step)
    exact ⟨.uninstall (known.started false rfl) (known.disowned rfl),
      known.setInstalled false, by rintro ⟨⟩⟩
  | reconcile pc driverStopped taskStopped driverUninstalled =>
    obtain ⟨rfl, rfl⟩ := Prod.mk.inj (Option.some.inj step)
    exact ReconcilePc.step_after_stop outline
  | drainAvailable =>
    simp only [StopPc.step] at step
    split at step
    · obtain ⟨rfl, rfl⟩ := Prod.mk.inj (Option.some.inj step)
      exact sound
    · rcases takeNow_eq_some step with ⟨s, s', -, -, same⟩ | ⟨s, -, -, same⟩ <;>
        obtain ⟨rfl, rfl⟩ := Prod.mk.inj same
      · exact ⟨sound, known, trivial⟩
      · exact sound
  | unrequest =>
    obtain ⟨rfl, rfl⟩ := Prod.mk.inj (Option.some.inj step)
    exact ⟨sound, known, trivial⟩

theorem CallPc.step_outline {sh sh' : Shared w} {ok : Bool} {pc : CallPc w}
    {control : Control (CallPc w) Result} (h : pc.Outline sh.lifecycle)
    (step : pc.step sh ok = some (sh', control)) : CallPc.After sh'.lifecycle control := by
  cases pc with
  | start configuration pc =>
    obtain ⟨inner, inside, rfl⟩ := CallPc.step_start step
    exact StartPc.step_outline h inside
  | stop pc =>
    obtain ⟨inner, inside, rfl⟩ := CallPc.step_stop step
    exact StopPc.step_outline h inside

end CanTelemetry.CanBus
