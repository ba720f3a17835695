import CanTelemetry.VehicleTelemetry.CanBusSource

/-! Ownership across the two layers. The bus keeps what it could not release, and the
runtime keeps its source until the source has let go. With the runtime as the only user of
the bus the two agree: the runtime has its source started as long as the bus is not Stopped,
except while it is inside the start() that it is about to learn the result of. -/

namespace CanTelemetry

open Execution Threads

/-! ### The bus's start() -/

namespace CanBus

variable {w : ℕ}

/-- Where a start() can stand that found the bus Stopped. -/
def StartPc.Granted (c : LifecycleController) : StartPc w → Prop
  | .beginStart => c.state = .stopped
  | .refused => False
  | .abort _ result | .driverUninstall result | .markUninstalled result | .reconcile _ result =>
    result = .driverFailure ∨ result = .taskFailure
  | _ => True

/-- What such a start() returns; only an invalid configuration leaves the bus as it was. -/
def Result.Granted (c : LifecycleController) (result : Result) : Prop :=
  result = .ok ∨ result = .driverFailure ∨ result = .taskFailure ∨
    result = .invalidConfiguration ∧ c.state = .stopped

def StartPc.Grants (c : LifecycleController) : Control (StartPc w) Result → Prop
  | .next pc => pc.Granted c
  | .ret result => result.Granted c

theorem StartPc.Granted.stable {pc : StartPc w} {c c' : LifecycleController} (h : pc.Granted c)
    (other : Interference c c') : pc.Granted c' := by
  cases pc with
  | beginStart => exact other.stopped_iff.mpr h
  | refused => exact h
  | _ => exact h

theorem Result.Granted.stable {result : Result} {c c' : LifecycleController}
    (h : result.Granted c) (other : Interference c c') : result.Granted c' :=
  h.imp_right (.imp_right (.imp_right (.imp_right other.stopped_iff.mpr)))

theorem Result.Granted.of_failure {result : Result} {c : LifecycleController}
    (failure : result = .driverFailure ∨ result = .taskFailure) : result.Granted c :=
  .inr (failure.imp_right .inl)

theorem Shared.afterCreation_granted (sh : Shared w) (c : LifecycleController) :
    sh.afterCreation.Granted c := by
  unfold afterCreation
  split
  · exact .inr rfl
  · trivial

theorem StartPc.Granted.step {configuration : Configuration} {sh sh' : Shared w} {ok : Bool}
    {pc : StartPc w} {control : Control (StartPc w) Result} (h : pc.Granted sh.lifecycle)
    (step : pc.step configuration sh ok = some (sh', control)) : Grants sh'.lifecycle control := by
  cases pc with
  | beginStart =>
    have stopped : sh.lifecycle.state = .stopped := h
    simp only [StartPc.step] at step
    split at step <;> obtain ⟨rfl, rfl⟩ := Prod.mk.inj (Option.some.inj step)
    · exact .inr (.inr (.inr ⟨rfl, stopped⟩))
    · simp only [LifecycleController.beginStart, if_pos stopped]
      trivial
  | refused => exact h.elim
  | createTaskStopped =>
    obtain ⟨rfl, rfl⟩ := Prod.mk.inj (Option.some.inj step)
    exact Shared.afterCreation_granted _ _
  | abort pc result =>
    obtain ⟨rfl, rfl⟩ := Prod.mk.inj (Option.some.inj step)
    cases (pc.step sh.lifecycle).2 with
    | next pc' => exact h
    | ret value => exact .of_failure h
  | reconcile pc result =>
    obtain ⟨rfl, rfl⟩ := Prod.mk.inj (Option.some.inj step)
    cases (pc.step sh.lifecycle).2 with
    | next pc' => exact h
    | ret value => exact .of_failure h
  | drainAvailable | drainTaskStopped =>
    rcases takeNow_eq_some step with ⟨s, s', -, -, same⟩ | ⟨s, -, -, same⟩ <;>
      obtain ⟨rfl, rfl⟩ := Prod.mk.inj same <;> trivial
  | driverInstall | driverStart =>
    cases ok <;> obtain ⟨rfl, rfl⟩ := Prod.mk.inj (Option.some.inj step)
    · exact .inl rfl
    · trivial
  | driverStop =>
    cases ok <;> obtain ⟨rfl, rfl⟩ := Prod.mk.inj (Option.some.inj step)
    · exact .inr rfl
    · trivial
  | markStopped =>
    obtain ⟨rfl, rfl⟩ := Prod.mk.inj (Option.some.inj step)
    exact .inr rfl
  | driverUninstall result =>
    cases ok <;> obtain ⟨rfl, rfl⟩ := Prod.mk.inj (Option.some.inj step) <;> exact h
  | markUninstalled result =>
    obtain ⟨rfl, rfl⟩ := Prod.mk.inj (Option.some.inj step)
    exact h
  | clear pc =>
    obtain ⟨rfl, rfl⟩ := Prod.mk.inj (Option.some.inj step)
    cases (pc.step sh.frames ok).2 <;> trivial
  | beginStop pc =>
    obtain ⟨rfl, rfl⟩ := Prod.mk.inj (Option.some.inj step)
    cases (pc.step sh.lifecycle ok).2 <;> trivial
  | createTask =>
    obtain ⟨rfl, rfl⟩ := Prod.mk.inj (Option.some.inj step)
    cases ok <;> trivial
  | setStartedBefore =>
    obtain ⟨rfl, rfl⟩ := Prod.mk.inj (Option.some.inj step)
    exact .inl rfl
  | _ =>
    obtain ⟨rfl, rfl⟩ := Prod.mk.inj (Option.some.inj step)
    trivial

/-- A start() that the bus did not refuse comes to its Ok only from the creation of the task. -/
theorem StartPc.Granted.step_ok {configuration : Configuration} {sh sh' : Shared w} {ok : Bool}
    {pc : StartPc w} {control : Control (StartPc w) Result} (h : pc.Granted sh.lifecycle)
    (step : pc.step configuration sh ok = some (sh', control))
    (succeeds : control = .ret .ok ∨ control = .next .setStartedBefore) :
    pc = .setStartedBefore ∨ pc = .createTask := by
  cases pc with
  | setStartedBefore => exact .inl rfl
  | createTask => exact .inr rfl
  | refused => exact h.elim
  | beginStart =>
    simp only [StartPc.step] at step
    split at step <;> obtain ⟨-, rfl⟩ := Prod.mk.inj (Option.some.inj step)
    · rcases succeeds with same | same <;> cases same
    · split at succeeds <;> rcases succeeds with same | same <;> cases same
  | createTaskStopped =>
    have other (sh : Shared w) : sh.afterCreation ≠ .setStartedBefore := by
      unfold Shared.afterCreation
      split <;> simp
    rcases succeeds with rfl | rfl
    · cases (Prod.mk.inj (Option.some.inj step)).2
    · exact absurd (Control.next.inj (Prod.mk.inj (Option.some.inj step)).2) (other _)
  | abort pc result | reconcile pc result =>
    obtain ⟨-, rfl⟩ := Prod.mk.inj (Option.some.inj step)
    generalize (pc.step sh.lifecycle).2 = control at succeeds
    cases control with
    | next pc => rcases succeeds with same | same <;> cases same
    | ret value =>
      rcases succeeds with same | same
      · obtain rfl := Control.ret.inj same
        simp [StartPc.Granted] at h
      · cases same
  | clear pc =>
    obtain ⟨-, rfl⟩ := Prod.mk.inj (Option.some.inj step)
    generalize (pc.step sh.frames ok).2 = control at succeeds
    cases control <;> rcases succeeds with same | same <;> cases same
  | beginStop pc =>
    obtain ⟨-, rfl⟩ := Prod.mk.inj (Option.some.inj step)
    generalize (pc.step sh.lifecycle ok).2 = control at succeeds
    cases control <;> rcases succeeds with same | same <;> cases same
  | drainAvailable | drainTaskStopped =>
    rcases takeNow_eq_some step with ⟨s, s', -, -, same⟩ | ⟨s, -, -, same⟩ <;>
      obtain ⟨-, rfl⟩ := Prod.mk.inj same <;> rcases succeeds with same | same <;> cases same
  | driverInstall | driverStart | driverStop | driverUninstall =>
    cases ok <;> obtain ⟨-, rfl⟩ := Prod.mk.inj (Option.some.inj step) <;>
      rcases succeeds with same | same <;> cases same
  | _ =>
    obtain ⟨-, rfl⟩ := Prod.mk.inj (Option.some.inj step)
    rcases succeeds with same | same <;> cases same

end CanBus

/-! ### The runtime's ownership of the bus -/

namespace CanBusSource

open VehicleTelemetry (Answers CallPc CleanupPc Platform ResultCode)

variable {w : ℕ}

/-- The runtime has what the bus has, and its stop() can be retried. -/
structure Covered (sh : VehicleTelemetry.Shared) (c : CanBus.LifecycleController) : Prop where
  started : c.state ≠ .stopped → sh.sourceStarted = true
  retries : sh.sourceStarted = true → sh.sourceStopRetrySupported = true

/-- The runtime's start() of the bus, before, in and after the call. -/
inductive Starts (c : CanBus.LifecycleController) : Option (Call w) → Prop
  | entering (stopped : c.state = .stopped) : Starts c none
  | inside (configuration : CanBus.Configuration) (pc : CanBus.StartPc w)
    (outline : (CanBus.CallPc.start configuration pc).Outline c) (granted : pc.Granted c) :
    Starts c (some (.inside (.start configuration pc)))
  | returned (result : CanBus.Result) (granted : result.Granted c) :
    Starts c (some (.returned result))

/-- The runtime's stop() of the bus: where it reports an end, the bus is Stopped. -/
inductive Stops (c : CanBus.LifecycleController) : Option (Call w) → Prop
  | entering : Stops c none
  | inside (pc : CanBus.StopPc) (outline : (CanBus.CallPc.stop (w := w) pc).Outline c) :
    Stops c (some (.inside (.stop pc)))
  | returned (result : CanBus.Result)
    (gone : result = .ok ∨ result = .notStarted → c.state = .stopped) :
    Stops c (some (.returned result))

/-- What holds while an operation of the runtime stands at a program counter. -/
inductive Stands (sh : VehicleTelemetry.Shared) (c : CanBus.LifecycleController) :
    Option (Call w) → CallPc → Prop
  | outside {pc : CallPc} (outside : pc.inSource = false) (covered : Covered sh c) :
    Stands sh c none pc
  | starting {call : Option (Call w)} (free : sh.sourceStarted = false)
    (retries : sh.sourceStopRetrySupported = true) (starts : Starts c call) :
    Stands sh c call (.start .startSource)
  | stopping {pc : CallPc} {call : Option (Call w)} (kind : VehicleTelemetry.Cleanup)
    (retry : Bool) (inside : pc.cleanup = some (kind, .call retry))
    (owned : sh.sourceStarted = true) (retries : sh.sourceStopRetrySupported = true)
    (stops : Stops c call) : Stands sh c call pc

section Steps

variable {c c' : CanBus.LifecycleController} {current : Option (Call w)}
  {sh sh' : VehicleTelemetry.Shared} {answers : Answers} {pc : CallPc}
  {control : Control CallPc (Option ResultCode)}

/-! #### The bus moves -/

theorem Covered.stable (h : Covered sh c) (other : CanBus.Interference c c') : Covered sh c' :=
  ⟨fun live => h.started (mt other.stopped_iff.mpr live), h.retries⟩

theorem Stands.stable (h : Stands sh c current pc) (other : CanBus.Interference c c') :
    Stands sh c' current pc := by
  cases h with
  | outside outside covered => exact .outside outside (covered.stable other)
  | starting free retries starts =>
    refine .starting free retries ?_
    cases starts with
    | entering stopped => exact .entering (other.stopped_iff.mpr stopped)
    | inside configuration pc outline granted =>
      exact .inside configuration pc (outline.stable other) (granted.stable other)
    | returned result granted => exact .returned result (granted.stable other)
  | stopping kind retry inside owned retries stops =>
    refine .stopping kind retry inside owned retries ?_
    cases stops with
    | entering => exact .entering
    | inside pc outline => exact .inside pc (outline.stable other)
    | returned result gone => exact .returned result fun end_ => other.stopped_iff.mpr (gone end_)

/-- A step of the runtime's own call on the bus. -/
theorem Stands.call {bus bus' : CanBus.Shared w} {inner : CanBus.CallPc w} {ok : Bool}
    {control : Control (CanBus.CallPc w) CanBus.Result}
    (h : Stands sh bus.lifecycle (some (.inside inner)) pc)
    (step : inner.step bus ok = some (bus', control)) :
    bus'.lifecycle.Sound ∧ Stands sh bus'.lifecycle (some (.after control)) pc := by
  cases h with
  | starting free retries starts =>
    cases starts with
    | inside configuration inner outline granted =>
      have after := CanBus.CallPc.step_outline outline step
      obtain ⟨control, inside, rfl⟩ := CanBus.CallPc.step_start step
      have grants := granted.step inside
      cases control with
      | next inner' => exact ⟨after.sound, .starting free retries (.inside _ _ after grants)⟩
      | ret result => exact ⟨after, .starting free retries (.returned result grants)⟩
  | stopping kind retry within owned retries stops =>
    cases stops with
    | inside inner outline =>
      have after := CanBus.CallPc.step_outline outline step
      obtain ⟨control, inside, rfl⟩ := CanBus.CallPc.step_stop step
      cases control with
      | next inner' =>
        exact ⟨after.sound, .stopping kind retry within owned retries (.inside inner' after)⟩
      | ret result =>
        refine ⟨after, .stopping kind retry within owned retries (.returned result ?_)⟩
        rcases CanBus.StopPc.step_returns outline inside with
          ⟨-, rfl, stopped, rfl⟩ | ⟨-, other, ok_iff⟩
        · exact fun _ => stopped
        · exact fun end_ => ok_iff.mp (end_.resolve_right other)

/-! #### The runtime moves -/

theorem Covered.of_same (h : Covered sh c) (started : sh'.sourceStarted = sh.sourceStarted)
    (supported : sh'.sourceStopRetrySupported = sh.sourceStopRetrySupported) : Covered sh' c :=
  ⟨fun live => started.trans (h.started live),
    fun owned => supported.trans (h.retries (started.symm.trans owned))⟩

theorem Stands.of_same (h : Stands sh c current pc)
    (started : sh'.sourceStarted = sh.sourceStarted)
    (supported : sh'.sourceStopRetrySupported = sh.sourceStopRetrySupported) :
    Stands sh' c current pc := by
  cases h with
  | outside outside covered => exact .outside outside (covered.of_same started supported)
  | starting free retries starts =>
    exact .starting (started.trans free) (supported.trans retries) starts
  | stopping kind retry inside owned retries stops =>
    exact .stopping kind retry inside (started.trans owned) (supported.trans retries) stops

/-- The operation is back from the source, or stays out of it. -/
theorem Covered.settles (covered : Covered sh c)
    (next : ∀ pc' ∈ control.live, pc'.inSource = false) :
    control.Settles CallPc.operating ((none : Option (Call w)) = none ∧ Covered sh c)
      (Stands sh c (none : Option (Call w))) :=
  .of_live (fun _ => ⟨rfl, covered⟩) (fun pc' live => .outside (next pc' live) covered)
    fun _ _ _ => ⟨rfl, covered⟩

/-- Outside the source there is no call on the bus. -/
theorem Stands.covered (h : Stands sh c current pc) (outside : pc.inSource = false) :
    current = none ∧ Covered sh c := by
  cases h with
  | outside _ covered => exact ⟨rfl, covered⟩
  | starting free retries starts => cases outside
  | stopping kind retry inside owned retries stops =>
    rw [CallPc.inSource_of_cleanup inside] at outside
    cases outside

theorem Stands.at_start (h : Stands sh c current (.start .startSource)) :
    sh.sourceStarted = false ∧ sh.sourceStopRetrySupported = true ∧ Starts c current := by
  cases h with
  | outside outside covered => cases outside
  | starting free retries starts => exact ⟨free, retries, starts⟩
  | stopping kind retry inside owned retries stops => cases inside

theorem Stands.at_stop (h : Stands sh c current pc) {kind : VehicleTelemetry.Cleanup}
    {retry : Bool} (inside : pc.cleanup = some (kind, .call retry)) :
    sh.sourceStarted = true ∧ sh.sourceStopRetrySupported = true ∧ Stops c current := by
  cases h with
  | outside outside covered =>
    rw [CallPc.inSource_of_cleanup inside] at outside
    cases outside
  | starting free retries starts => cases inside
  | stopping kind' retry' inside' owned retries stops => exact ⟨owned, retries, stops⟩

/-- A start() that the bus did not refuse leaves nothing behind when the runtime takes it for
a refusal. -/
theorem Result.stopped_of_refused {result : CanBus.Result} (granted : result.Granted c)
    (notOk : mapStartResult result ≠ .ok)
    (owns : VehicleTelemetry.startFailureMayOwnSource (mapStartResult result) = false) :
    c.state = .stopped := by
  rcases granted with rfl | rfl | rfl | ⟨rfl, stopped⟩
  · exact absurd rfl notOk
  · cases owns
  · cases owns
  · exact stopped

/-- The test before a call on the source goes there with an owned source or not at all. -/
theorem Stands.test (h : Stands sh c current pc) {kind : VehicleTelemetry.Cleanup}
    (inside : pc.cleanup = some (kind, .test))
    (next : match (kind.step sh answers.result .test).2 with
      | .next inner => ∃ pc', control = .next pc' ∧ pc'.cleanup = some (kind, inner)
      | .ret _ => ∀ pc' ∈ control.live, pc'.inSource = false) :
    control.Settles CallPc.operating
      ((none : Option (Call w)) = none ∧ Covered (kind.step sh answers.result .test).1 c)
      (Stands (kind.step sh answers.result .test).1 c (none : Option (Call w))) := by
  obtain ⟨started, supported, calls⟩ := kind.step_test sh answers.result
  obtain ⟨-, covered⟩ := h.covered (CallPc.inSource_of_cleanup inside)
  cases control' : (kind.step sh answers.result .test).2 with
  | ret value =>
    rw [control'] at next
    exact (covered.of_same started supported).settles next
  | next inner' =>
    rw [control'] at next
    obtain ⟨pc', rfl, within⟩ := next
    obtain ⟨owned, retry, rfl⟩ := calls inner' control'
    refine .holding ?_ (.stopping kind retry within (started.trans owned)
      (supported.trans (covered.retries owned)) .entering)
    exact CallPc.operating_of_inSource (CallPc.inSource_of_cleanup within)

/-- The runtime forgets the source when the bus is Stopped. -/
theorem Stops.back {result : CanBus.Result} (stops : Stops (w := w) c (some (.returned result)))
    {kind : VehicleTelemetry.Cleanup} {retry : Bool} (same : answers.result = mapStopResult result)
    (owned : sh.sourceStarted = true) (retries : sh.sourceStopRetrySupported = true) :
    Covered (kind.step sh answers.result (.call retry)).1 c := by
  obtain ⟨-, outcome⟩ := kind.step_call retry answers.result retries
  cases stops with
  | returned _ gone =>
    split_ifs at outcome with ended
    · rw [same, mapStopResult_gone] at ended
      exact ⟨fun live => absurd (gone ended) live,
        fun owned => absurd (outcome.symm.trans owned) Bool.false_ne_true⟩
    · exact ⟨fun _ => outcome.1.trans owned, fun _ => outcome.2⟩

/-- A step of an operation of the runtime, with the answers of the adapter. -/
theorem Stands.runtime (h : Stands sh c current pc)
    (source : CallPc.SourceStep answers sh pc sh' control)
    (asked : pc = .start .supportsRetry →
      sh.sourceStarted = false ∧ answers.retrySupported = true)
    (replied : pc.inSource = true →
      ∃ result, current = some (.returned result) ∧ answers.result = reply pc result) :
    control.Settles CallPc.operating ((none : Option (Call w)) = none ∧ Covered sh' c)
      (Stands sh' c (none : Option (Call w))) := by
  cases source with
  | beside silent same next =>
    obtain ⟨-, covered⟩ := h.covered (CallPc.outside_of_sourceCalls silent)
    exact (covered.of_same same.started same.supported).settles next
  | asks =>
    obtain ⟨free, supported⟩ := asked rfl
    obtain ⟨-, covered⟩ := h.covered rfl
    have stopped : c.state = .stopped := by
      by_contra live
      exact absurd (free.symm.trans (covered.started live)) Bool.false_ne_true
    exact .holding rfl (.starting free supported (.entering stopped))
  | started ok | failed notOk owns =>
    obtain ⟨-, retries, -⟩ := h.at_start
    exact Covered.settles ⟨fun _ => rfl, fun _ => retries⟩
      (by simp [CallPc.inSource, CallPc.cleanup])
  | refused notOk owns =>
    obtain ⟨free, -, starts⟩ := h.at_start
    obtain ⟨result, rfl, same⟩ := replied rfl
    cases starts with
    | returned _ granted =>
      rw [same] at notOk owns
      have stopped := Result.stopped_of_refused granted notOk owns
      exact Covered.settles ⟨fun live => absurd stopped live,
        fun owned => absurd (free.symm.trans owned) Bool.false_ne_true⟩
        (by simp [CallPc.inSource, CallPc.cleanup])
  | @cleans _ kind inner _ inside next =>
    cases inner with
    | test => exact h.test inside next
    | call retry =>
      obtain ⟨owned, retries, stops⟩ := h.at_stop inside
      obtain ⟨result, rfl, same⟩ := replied (CallPc.inSource_of_cleanup inside)
      have elsewhere : pc ≠ .start .startSource := by
        rintro rfl
        cases inside
      rw [reply_of_cleanup elsewhere] at same
      obtain ⟨⟨value, returns⟩, -⟩ := kind.step_call retry answers.result retries
      rw [returns] at next
      exact (stops.back same owned retries).settles next

end Steps

/-! ### Runs -/

namespace System

/-- Nobody but the runtime starts or stops the bus. -/
def soleUser (_ : System w) : Choice → Bool
  | .bus (.beginStart _) | .bus .beginStop => false
  | _ => true

/-- What holds in every run of a runtime that is the only user of the bus. -/
structure Retained (s : System w) : Prop where
  sound : s.bus.shared.lifecycle.Sound
  alone : s.bus.calls = []
  held : Held (fun p : VehicleTelemetry.Caller × CallPc => p.2.operating)
    (s.call = none ∧ Covered s.runtime.shared s.bus.shared.lifecycle)
    (fun p => Stands s.runtime.shared s.bus.shared.lifecycle s.call p.2) s.runtime.calls

variable {platform : Platform} {configuration : CanBus.Configuration} {s t : System w}

theorem retained_coupling (c : CanBus.LifecycleController) :
    Coupling (Covered · c) (fun sh => Stands (w := w) sh c) where
  rest_same same covered := covered.of_same same.started same.supported
  fact_same same stands := stands.of_same same.started same.supported
  outside outside covered := .outside outside covered
  idle outside stands := (stands.covered outside).1

theorem Retained.coupled (h : s.Retained) :
    s.Coupled (Covered · s.bus.shared.lifecycle) fun sh => Stands sh s.bus.shared.lifecycle :=
  h.held

theorem Retained.runtime (h : s.Retained) (governed : s.runtime.Governed platform)
    {k : VehicleTelemetry.Choice}
    (step : s.next platform configuration (.runtime k) = some t) : t.Retained := by
  have coupled := h.coupled.runtime (retained_coupling _) governed ?_ step
  · obtain ⟨-, runtime, -, rfl⟩ := next_runtime step
    exact ⟨h.sound, h.alone, coupled⟩
  · intro i caller pc answers shared control answered found inside stands
    refine stands.runtime (CallPc.step_source inside) ?_ (answered_inSource answered found)
    rintro rfl
    have fact := (governed.fact (List.mem_of_getElem? found) rfl (by simp)).2
    exact ⟨fact.2.started, answered_supportsRetry answered found⟩

theorem Retained.next (h : s.Retained) (governed : s.runtime.Governed platform) {k : Choice}
    (sole : s.soleUser k = true) (step : s.next platform configuration k = some t) :
    t.Retained := by
  cases k with
  | runtime k => exact h.runtime governed step
  | enter i =>
    obtain ⟨free, caller, pc, inner, found, entry, rfl⟩ := next_enter step
    have within : pc.inSource = true := by
      rcases request_eq_some entry with ⟨rfl, -⟩ | ⟨⟨kind, retry, inside⟩, -⟩
      · rfl
      · exact CallPc.inSource_of_cleanup inside
    refine ⟨h.sound, h.alone, h.held.update found (CallPc.operating_of_inSource within) ?_⟩
    intro stands
    show Stands s.runtime.shared s.bus.shared.lifecycle (some (.inside inner)) pc
    have fresh : Stands s.runtime.shared s.bus.shared.lifecycle (none : Option (Call w)) pc :=
      free ▸ stands
    rcases request_eq_some entry with ⟨rfl, rfl⟩ | ⟨⟨kind, retry, inside⟩, rfl⟩
    · obtain ⟨free, retries, starts⟩ := fresh.at_start
      cases starts with
      | entering stopped =>
        exact .starting free retries (.inside _ _ ⟨h.sound, .nothing _, trivial⟩ stopped)
    · obtain ⟨owned, retries, -⟩ := fresh.at_stop inside
      exact .stopping kind retry inside owned retries (.inside _ ⟨h.sound, .nothing _, trivial⟩)
  | call ok =>
    obtain ⟨inner, shared, control, current, inside, rfl⟩ := next_call step
    obtain ⟨p, -, stands⟩ := h.coupled.holder current
    refine ⟨(stands.call inside).1, h.alone, h.held.mono ?_ ?_⟩
    · rintro ⟨free, -⟩
      exact absurd (free.symm.trans current) (by simp)
    · intro q _ _ stands
      rw [current] at stands
      exact (stands.call inside).2
  | bus k =>
    obtain ⟨bus, inner, rfl⟩ := next_bus step
    have elsewhere : ∀ i ok, k ≠ .call i ok := by
      rintro i ok rfl
      obtain ⟨pc, shared, control, found, -⟩ := CanBus.System.next_call inner
      rw [h.alone] at found
      cases found
    have starts : ∀ c, k ≠ .beginStart c := by
      rintro c rfl
      cases sole
    have stops : k ≠ .beginStop := by
      rintro rfl
      cases sole
    obtain ⟨calls, other⟩ := CanBus.System.next_interference inner elsewhere starts stops
    refine ⟨other.sound h.sound, calls.trans h.alone, h.held.mono ?_ ?_⟩
    · exact fun rest => ⟨rest.1, rest.2.stable other⟩
    · exact fun p _ _ stands => stands.stable other

theorem retained_of_run {ks : List Choice}
    (run : exec (guarded soleUser (next platform configuration)) ({} : System w) ks = some s) :
    s.runtime.Governed platform ∧ s.Retained := by
  refine exec_invariant (P := fun s : System w => s.runtime.Governed platform ∧ s.Retained)
    ?_ run ⟨.initial platform, ⟨by simp, by simp, fun _ => ⟨rfl, rfl, rfl⟩⟩, rfl,
      .start ⟨rfl, fun live => absurd rfl live, fun owned => absurd owned Bool.false_ne_true⟩⟩
  rintro s k t ⟨governed, retained⟩ step
  obtain ⟨sole, step⟩ := guarded_eq_some.mp step
  exact ⟨next_governed governed step, retained.next governed sole step⟩

/-! ### What follows for every run -/

/-- The bus owns a driver or a task. -/
def owns (s : System w) : Bool :=
  s.bus.shared.lifecycle.driverInstalled || s.bus.shared.lifecycle.driverStarted ||
    s.bus.shared.lifecycle.taskOwned

/-- The runtime is inside its start() of the bus. -/
def starting (s : System w) : Bool :=
  s.call.isSome && s.runtime.calls.any (·.2 = .start .startSource)

theorem Retained.live (h : s.Retained) (owns : s.owns = true) :
    s.bus.shared.lifecycle.state ≠ .stopped := by
  intro stopped
  obtain ⟨uninstalled, idle, free⟩ := h.sound.stopped stopped
  simp [System.owns, uninstalled, idle, free] at owns

/-- A runtime between two operations has what the bus has. -/
theorem Retained.covered (h : s.Retained) (governed : s.runtime.Governed platform)
    (inactive : s.runtime.shared.lifecycleOperationActive = false)
    (usable : s.runtime.destroyed = false ∨ s.runtime.shared.sourceStarted = false) :
    Covered s.runtime.shared s.bus.shared.lifecycle := by
  rcases governed.between h.held inactive with ⟨-, covered⟩ | ⟨destroyed, destroyer, stands⟩
  · exact covered
  · have free := usable.resolve_left (by simp [destroyed])
    generalize s.call = current at stands
    cases stands with
    | outside outside covered => exact covered
    | stopping kind retry inside owned retries stops =>
      exact absurd (free.symm.trans owned) Bool.false_ne_true

/-- A Stopped runtime leaves a Stopped bus behind. -/
theorem Retained.stopped (h : s.Retained) (governed : s.runtime.Governed platform)
    (inactive : s.runtime.shared.lifecycleOperationActive = false)
    (stopped : s.runtime.shared.lifecycle = .stopped) :
    s.bus.shared.lifecycle.state = .stopped ∧ s.owns = false := by
  obtain ⟨-, unowned⟩ := governed.stopped inactive stopped
  have covered := h.covered governed inactive (.inr unowned.started)
  have idle : s.bus.shared.lifecycle.state = .stopped := by
    by_contra live
    exact absurd (unowned.started.symm.trans (covered.started live)) Bool.false_ne_true
  refine ⟨idle, eq_false_of_ne_true fun owns => ?_⟩
  exact h.live owns idle

theorem Retained.started (h : s.Retained) (owns : s.owns = true) :
    s.runtime.shared.sourceStarted = true ∨ s.starting = true := by
  cases h.held with
  | free idle rest => exact .inl (rest.2.started (h.live owns))
  | taken before after p split before_idle after_idle operating stands =>
    obtain ⟨caller, pc⟩ := p
    have member : (caller, pc) ∈ s.runtime.calls := by simp [split]
    have begun (call : Call w) (current : s.call = some call) (starts : pc = .start .startSource) :
        s.starting = true := by
      subst starts
      simp only [starting, current, Option.isSome_some, Bool.true_and, List.any_eq_true]
      exact ⟨_, member, by simp⟩
    generalize at_call : s.call = current at stands
    cases stands with
    | outside outside covered => exact .inl (covered.started (h.live owns))
    | stopping kind retry inside owned retries stops => exact .inl owned
    | starting free retries starts =>
      cases starts with
      | entering stopped => exact absurd stopped (h.live owns)
      | inside configuration inner outline granted => exact .inr (begun _ at_call rfl)
      | returned result granted => exact .inr (begun _ at_call rfl)

/-- What the bus answers to the runtime's start(). -/
theorem Retained.answer (h : s.Retained)
    {caller : VehicleTelemetry.Caller} (member : (caller, .start .startSource) ∈ s.runtime.calls)
    {result : CanBus.Result} (current : s.call = some (.returned result)) :
    result.Granted s.bus.shared.lifecycle := by
  have stands : Stands s.runtime.shared s.bus.shared.lifecycle s.call (.start .startSource) :=
    h.held.fact member rfl
  rw [current] at stands
  obtain ⟨-, -, starts⟩ := stands.at_start
  cases starts with
  | returned result granted => exact granted

/-- How many steps a stop() of the runtime is away from its call on the source. -/
def ahead : VehicleTelemetry.StopPc → Option ℕ
  | .diagnoseStopping => some 3
  | .diagnosePartial | .requestStop => some 2
  | .partialCleanup .test | .sourceStop .test => some 1
  | .partialCleanup (.call _) | .sourceStop (.call _) => some 0
  | _ => none

theorem ahead_le {pc : VehicleTelemetry.StopPc} {n : ℕ} (distance : ahead pc = some n) :
    n ≤ 3 := by
  unfold ahead at distance
  split at distance <;> first | cases distance; omega | cases distance

/-- The call is not made by the worker that the runtime joins. -/
def foreign (s : System w) (caller : VehicleTelemetry.Caller) : Prop :=
  caller.isSome = true → s.runtime.shared.worker ≠ caller

/-- A stop() that gets the runtime comes step by step to its call on the bus; only the worker
itself is turned away at the first of them. -/
structure CountsDown (platform : Platform) (configuration : CanBus.Configuration) (s : System w)
    (i : ℕ) (caller : VehicleTelemetry.Caller) (pc : VehicleTelemetry.StopPc) : Prop where
  looks : pc = .testSelf → s.foreign caller →
    ∀ answers, ∃ t, s.next platform configuration (.runtime (.call i answers)) = some t ∧
      t.runtime.calls[i]? = some (caller, .stop .enter) ∧ t.runtime.shared = s.runtime.shared
  enters : pc = .enter → s.runtime.shared.lifecycleOperationActive = false →
    ∀ answers, ∃ t pc' n, s.next platform configuration (.runtime (.call i answers)) = some t ∧
      t.runtime.calls[i]? = some (caller, .stop pc') ∧ ahead pc' = some n
  nears : ∀ n, ahead pc = some (n + 1) →
    ∀ answers, ∃ t pc', s.next platform configuration (.runtime (.call i answers)) = some t ∧
      t.runtime.calls[i]? = some (caller, .stop pc') ∧ ahead pc' = some n
  arrives : ahead pc = some 0 → s.call = none →
    ∃ t, s.next platform configuration (.enter i) = some t ∧
      t.call = some (.inside (.stop (.begin .load)))

theorem next_stop (configuration : CanBus.Configuration) {i : ℕ} {answers : Answers}
    {caller : VehicleTelemetry.Caller} {pc pc' : VehicleTelemetry.StopPc}
    {shared : VehicleTelemetry.Shared}
    (found : s.runtime.calls[i]? = some (caller, .stop pc))
    (outside : (CallPc.stop pc).inSource = false)
    (inner : pc.step platform caller s.runtime.running answers s.runtime.shared =
      some (shared, .next pc')) :
    ∃ t, s.next platform configuration (.runtime (.call i answers)) = some t ∧
      t.runtime.calls[i]? = some (caller, .stop pc') ∧ t.runtime.shared = shared := by
  have answered : s.answered (.call i answers) = true := by
    simp [System.answered, found, outside]
  have within : i < s.runtime.calls.length := (List.getElem?_eq_some_iff.mp found).1
  simp only [System.next, answered, if_true, VehicleTelemetry.System.next, found,
    Option.bind_some, CallPc.step, inner, Option.map_some]
  exact ⟨_, rfl, by simp [resume, within], rfl⟩

theorem step_ahead {pc : VehicleTelemetry.StopPc} {n : ℕ} {sh : VehicleTelemetry.Shared}
    {workers : List (ℕ × VehicleTelemetry.WorkerPc)} (owned : sh.sourceStarted = true)
    (retries : sh.sourceStopRetrySupported = true) (fact : pc.Fact platform sh workers)
    (distance : ahead pc = some (n + 1)) (caller : VehicleTelemetry.Caller) (running : List ℕ)
    (answers : Answers) :
    (CallPc.stop pc).inSource = false ∧ ∃ shared pc',
      pc.step platform caller running answers sh = some (shared, .next pc') ∧
        ahead pc' = some n := by
  cases pc with
  | diagnoseStopping | diagnosePartial | requestStop =>
    obtain rfl : n = _ := by simpa [ahead] using distance.symm
    exact ⟨rfl, _, _, rfl, rfl⟩
  | partialCleanup pc =>
    cases pc with
    | call retry => simp [ahead] at distance
    | test =>
      obtain rfl : n = 0 := by simpa [ahead] using distance.symm
      have owner : sh.sourceOwnership = .partialStart := fact.2.2
      have calls : (CleanupPc.test.stepPartialStart sh answers.result).2 =
          .next (.call sh.sourceStopCalled) := by
        cases called : sh.sourceStopCalled <;>
          simp [CleanupPc.stepPartialStart, owner, owned, retries, called]
      refine ⟨rfl, (CleanupPc.test.stepPartialStart sh answers.result).1,
        .partialCleanup (.call sh.sourceStopCalled), ?_, rfl⟩
      rw [VehicleTelemetry.StopPc.step, calls]
      rfl
  | sourceStop pc =>
    cases pc with
    | call retry => simp [ahead] at distance
    | test =>
      obtain rfl : n = 0 := by simpa [ahead] using distance.symm
      obtain ⟨settled, whole⟩ : sh.Settled ∧ sh.sourceOwnership ≠ .partialStart := fact.2
      have owner : sh.sourceOwnership = .successfulStart := by
        cases owner : sh.sourceOwnership with
        | none => exact absurd ((settled.none owner).started.symm.trans owned) Bool.false_ne_true
        | partialStart => exact absurd owner whole
        | successfulStart => rfl
      have calls : (CleanupPc.test.stepSourceStop sh answers.result).2 =
          .next (.call sh.sourceStopCalled) := by
        cases called : sh.sourceStopCalled <;>
          simp [CleanupPc.stepSourceStop, owner, owned, retries, called]
      refine ⟨rfl, (CleanupPc.test.stepSourceStop sh answers.result).1,
        .sourceStop (.call sh.sourceStopCalled), ?_, rfl⟩
      rw [VehicleTelemetry.StopPc.step, calls]
      rfl
  | _ => simp [ahead] at distance

theorem enter_ahead (platform : Platform) {sh : VehicleTelemetry.Shared}
    (inactive : sh.lifecycleOperationActive = false)
    (owned : sh.sourceStarted = true) (caller : VehicleTelemetry.Caller) (running : List ℕ)
    (answers : Answers) :
    ∃ pc' n, VehicleTelemetry.StopPc.enter.step platform caller running answers sh =
        some ({ sh with lifecycleOperationActive := true, lifecycle := .stopping }, .next pc') ∧
      ahead pc' = some n := by
  by_cases half : sh.sourceOwnership = .partialStart
  · exact ⟨.diagnosePartial, 2, by simp [VehicleTelemetry.StopPc.step, inactive, owned, half], rfl⟩
  · exact ⟨.diagnoseStopping, 3, by simp [VehicleTelemetry.StopPc.step, inactive, owned, half], rfl⟩

/-- A runtime in a stop() is not being destroyed. -/
theorem usable_of_stop (governed : s.runtime.Governed platform)
    {caller : VehicleTelemetry.Caller} {pc : VehicleTelemetry.StopPc}
    (member : (caller, CallPc.stop pc) ∈ s.runtime.calls) : s.runtime.destroyed = false := by
  cases governed with
  | usable alive held => exact alive
  | gone destroyed only =>
    obtain ⟨destroyer, same⟩ := only _ member
    cases same

theorem Retained.countsDown (h : s.Retained) (governed : s.runtime.Governed platform)
    (owns : s.owns = true) {i : ℕ} {caller : VehicleTelemetry.Caller}
    {pc : VehicleTelemetry.StopPc} (found : s.runtime.calls[i]? = some (caller, .stop pc)) :
    CountsDown platform configuration s i caller pc := by
  have member := List.mem_of_getElem? found
  have usable := usable_of_stop governed member
  refine ⟨?_, ?_, ?_, ?_⟩
  · rintro rfl other answers
    have inner : VehicleTelemetry.StopPc.testSelf.step platform caller s.runtime.running answers
        s.runtime.shared = some (s.runtime.shared, .next .enter) := by
      have passes : ¬ (caller.isSome = true ∧ s.runtime.shared.worker = caller) :=
        fun own => other own.1 own.2
      simp only [VehicleTelemetry.StopPc.step, if_neg passes]
    exact next_stop configuration found rfl inner
  · rintro rfl inactive answers
    have owned := (h.covered governed inactive (.inl usable)).started (h.live owns)
    obtain ⟨pc', n, inner, distance⟩ :=
      enter_ahead platform inactive owned caller s.runtime.running answers
    obtain ⟨t, step, goes, -⟩ := next_stop configuration found rfl inner
    exact ⟨t, pc', n, step, goes, distance⟩
  · intro n distance answers
    have operating : (CallPc.stop pc).operating = true := by
      cases pc <;> first | rfl | cases distance
    have fact := (governed.fact member operating (by simp)).2
    have outside : (CallPc.stop pc).inSource = false := by
      cases pc with
      | partialCleanup pc => cases pc <;> first | rfl | cases distance
      | sourceStop pc => cases pc <;> first | rfl | cases distance
      | _ => rfl
    obtain ⟨-, covered⟩ := (h.held.fact member operating).covered outside
    have owned := covered.started (h.live owns)
    obtain ⟨-, shared, pc', inner, nearer⟩ := step_ahead owned (covered.retries owned) fact
      distance caller s.runtime.running answers
    obtain ⟨t, step, goes, -⟩ := next_stop configuration found outside inner
    exact ⟨t, pc', step, goes, nearer⟩
  · intro distance free
    have entry : request configuration (.stop pc) =
        some (.stop (.begin .load) : CanBus.CallPc w) := by
      cases pc with
      | partialCleanup pc => cases pc <;> first | rfl | cases distance
      | sourceStop pc => cases pc <;> first | rfl | cases distance
      | _ => cases distance
    exact ⟨{ s with call := some (.inside (.stop (.begin .load))) }, by
      simp [System.next, free, found, entry], rfl⟩

/-- A stop() of a runtime whose bus owns something, on its way to the bus. -/
structure Heading (platform : Platform) (i : ℕ) (caller : VehicleTelemetry.Caller)
    (pc : VehicleTelemetry.StopPc) (s : System w) : Prop where
  governed : s.runtime.Governed platform
  retained : s.Retained
  owns : s.owns = true
  found : s.runtime.calls[i]? = some (caller, .stop pc)
  free : s.call = none

/-- A step of its own that keeps it a stop() of the runtime keeps it on its way. -/
theorem Heading.next {i : ℕ} {caller : VehicleTelemetry.Caller}
    {pc pc' : VehicleTelemetry.StopPc} {answers : Answers} (h : s.Heading platform i caller pc)
    (step : s.next platform configuration (.runtime (.call i answers)) = some t)
    (goes : t.runtime.calls[i]? = some (caller, .stop pc')) :
    guarded soleUser (System.next platform configuration) s (.runtime (.call i answers)) = some t ∧
      t.Heading platform i caller pc' := by
  refine ⟨guarded_eq_some.mpr ⟨rfl, step⟩, next_governed h.governed step,
    h.retained.next h.governed rfl step, ?_, goes, ?_⟩
  · obtain ⟨-, runtime, -, rfl⟩ := next_runtime step
    exact h.owns
  · obtain ⟨-, runtime, -, rfl⟩ := next_runtime step
    show (if s.resumes _ then none else s.call) = none
    rw [h.free, ite_self]

theorem Heading.arrives {i n : ℕ} {caller : VehicleTelemetry.Caller}
    {pc : VehicleTelemetry.StopPc} (h : s.Heading platform i caller pc) (distance : ahead pc = some n)
    (answers : Answers) :
    ∃ t, exec (guarded soleUser (System.next platform configuration)) s
        (List.replicate n (.runtime (.call i answers)) ++ [.enter i]) = some t ∧
      t.call = some (.inside (.stop (.begin .load))) := by
  have counts : CountsDown platform configuration s i caller pc :=
    h.retained.countsDown h.governed h.owns h.found
  induction n generalizing s pc with
  | zero =>
    obtain ⟨t, step, entered⟩ := counts.arrives distance h.free
    exact ⟨t, exec_single (guarded_eq_some.mpr ⟨rfl, step⟩), entered⟩
  | succ n ih =>
    obtain ⟨u, pc', step, goes, nearer⟩ := counts.nears n distance answers
    obtain ⟨step, heading⟩ := h.next step goes
    obtain ⟨t, run, entered⟩ :=
      ih heading nearer (heading.retained.countsDown heading.governed heading.owns heading.found)
    exact ⟨t, exec_cons_eq_some.mpr ⟨u, step, run⟩, entered⟩

/-- A stop() of a runtime that is not operated on, from its first step to the bus. -/
theorem Retained.reaches_bus (h : s.Retained) (governed : s.runtime.Governed platform)
    (owns : s.owns = true) (inactive : s.runtime.shared.lifecycleOperationActive = false)
    {i : ℕ} {caller : VehicleTelemetry.Caller}
    (found : s.runtime.calls[i]? = some (caller, .stop .testSelf)) (other : s.foreign caller)
    (answers : Answers) :
    ∃ n t, exec (guarded soleUser (System.next platform configuration)) s
        (List.replicate n (.runtime (.call i answers)) ++ [.enter i]) = some t ∧
      n ≤ 5 ∧ t.call = some (.inside (.stop (.begin .load))) := by
  have usable := usable_of_stop governed (List.mem_of_getElem? found)
  have free : s.call = none := by
    rcases governed.between h.held inactive with ⟨free, -⟩ | ⟨destroyed, -⟩
    · exact free
    · exact absurd (usable.symm.trans destroyed) Bool.false_ne_true
  have start : s.Heading platform i caller .testSelf := ⟨governed, h, owns, found, free⟩
  have looks : CountsDown platform configuration s i caller .testSelf :=
    h.countsDown governed owns found
  obtain ⟨u, step, goes, same⟩ := looks.looks rfl other answers
  obtain ⟨first, looked⟩ := start.next step goes
  have enters : CountsDown platform configuration u i caller .enter :=
    looked.retained.countsDown looked.governed looked.owns looked.found
  obtain ⟨v, pc', n, step, goes, distance⟩ := enters.enters rfl (by rw [same, inactive]) answers
  obtain ⟨second, entered⟩ := looked.next step goes
  obtain ⟨t, run, arrived⟩ := entered.arrives distance answers
  refine ⟨n + 2, t, ?_, Nat.add_le_add_right (ahead_le distance) 2, arrived⟩
  exact exec_cons_eq_some.mpr ⟨u, first, exec_cons_eq_some.mpr ⟨v, second, run⟩⟩

/-- The runtime over the bus, with nobody else to start or stop it. A Stopped runtime without
an operation in progress leaves a Stopped bus that owns nothing. As long as the bus owns a
driver or a task, the runtime has its source started or is still inside the start() that
takes the ownership, and every stop() that gets the runtime reaches the bus: each of its steps
leads towards it in every interleaving, and five of them at most lead there from its beginning.
Only a stop() by the worker itself is turned away before. A start() of the runtime is never
refused by the bus. -/
theorem ownership_across_layers {ks : List Choice}
    (run : exec (guarded soleUser (next platform configuration)) ({} : System w) ks = some s) :
    (s.runtime.shared.lifecycleOperationActive = false →
      s.runtime.shared.lifecycle = .stopped →
        s.bus.shared.lifecycle.state = .stopped ∧
          s.bus.shared.lifecycle.driverInstalled = false ∧
          s.bus.shared.lifecycle.driverStarted = false ∧
          s.bus.shared.lifecycle.taskOwned = false) ∧
      (s.owns = true → s.runtime.shared.sourceStarted = true ∨ s.starting = true) ∧
      (s.owns = true → ∀ i caller pc, s.runtime.calls[i]? = some (caller, .stop pc) →
        CountsDown platform configuration s i caller pc) ∧
      (s.owns = true → s.runtime.shared.lifecycleOperationActive = false → ∀ i caller,
        s.runtime.calls[i]? = some (caller, .stop .testSelf) → s.foreign caller → ∀ answers,
        ∃ n t, exec (guarded soleUser (next platform configuration)) s
            (List.replicate n (.runtime (.call i answers)) ++ [.enter i]) = some t ∧
          n ≤ 5 ∧ t.call = some (.inside (.stop (.begin .load)))) ∧
      ∀ caller result, (caller, .start .startSource) ∈ s.runtime.calls →
        s.call = some (.returned result) →
          result ≠ .alreadyStarted ∧ result ≠ .stopping ∧ result ≠ .faulted := by
  obtain ⟨governed, retained⟩ := retained_of_run run
  refine ⟨?_, retained.started, fun owns i caller pc => retained.countsDown governed owns, ?_, ?_⟩
  · intro inactive stopped
    obtain ⟨idle, -⟩ := retained.stopped governed inactive stopped
    exact ⟨idle, retained.sound.stopped idle⟩
  · intro owns inactive i caller found other answers
    exact retained.reaches_bus governed owns inactive found other answers
  · intro caller result member current
    rcases retained.answer member current with rfl | rfl | rfl | ⟨rfl, -⟩ <;> decide

/-- start() up to its return, with every call on the driver and the RTOS succeeding. -/
def startRun : List Choice :=
  [.runtime (.begin none .start)] ++ operates 3 { retrySupported := true } ++ [.enter 0] ++
    List.replicate 36 (.call true) ++ operates 8 {}

/-- A stop() whose bus does not get its task's acknowledgement in time. -/
def stopRun : List Choice :=
  [.runtime (.begin none .stop)] ++ operates 5 {} ++ [.enter 0] ++
    List.replicate 7 (.call true) ++ [.call false] ++ List.replicate 3 (.call true) ++
    operates 1 { result := .faulted } ++ List.replicate 2 (.runtime (.worker 0 {})) ++ operates 4 {}

/-- The runtime after that stop(), with another stop() begun. -/
def retried : System 8 :=
  final (guarded soleUser (System.next .host {})) {}
    (startRun ++ stopRun ++ [.runtime (.begin none .stop)])

theorem retried_stop_reaches_bus :
    retried.owns = true ∧ retried.starting = false ∧ retried.runtime.shared.sourceStarted = true ∧
      ∃ n t, exec (guarded soleUser (System.next .host {})) retried
          (List.replicate n (.runtime (.call 0 {})) ++ [.enter 0]) = some t ∧
        n ≤ 5 ∧ t.call = some (.inside (.stop (.begin .load))) := by
  have run := exec_eq_final (guarded soleUser (System.next .host {})) ({} : System 8)
    (startRun ++ stopRun ++ [.runtime (.begin none .stop)]) (by decide)
  obtain ⟨-, started, -, reaches, -⟩ := ownership_across_layers run
  have owns : retried.owns = true := by decide
  have idle : retried.starting = false := by decide
  refine ⟨owns, idle, ?_, ?_⟩
  · exact (started owns).resolve_right (ne_true_of_eq_false idle)
  · exact reaches owns (by decide) 0 none (by decide) (by rintro ⟨⟩) {}

end System

end CanBusSource

end CanTelemetry
