import CanTelemetry.CanBus.RingUse
import CanTelemetry.CanBus.Wakeup

/-! The frames of one acquisition, from the driver to the caller of receive(). It begins with
the creation of a task and lasts until another start() gets the controller, so it contains
the stop() and what comes after it. What receive() returns in it is, in order, what the task
has queued; and that is, in order, what the driver has given to the task, stamped with the
time and the bus id of the start(). -/

namespace CanTelemetry.CanBus

open Execution Threads VehicleCore

variable {w : ℕ}

/-- The points of a start() at which it has stored its bus id and not created the task. -/
def StartPc.numbered : StartPc w → Bool
  | .recordReset | .resetLastCounters | .request | .markTask | .createTask => true
  | _ => false

theorem StartPc.step_numbered {configuration : Configuration} {sh sh' : Shared w} {ok : Bool}
    {pc pc' : StartPc w} (step : pc.step configuration sh ok = some (sh', .next pc'))
    (before : pc.numbered = true → sh.busId = configuration.busId) (after : pc'.numbered = true) :
    sh'.busId = configuration.busId := by
  cases pc with
  | setBusId =>
    obtain ⟨rfl, -⟩ := Prod.mk.inj (Option.some.inj step)
    rfl
  | recordReset | resetLastCounters | request | markTask =>
    obtain ⟨rfl, -⟩ := Prod.mk.inj (Option.some.inj step)
    exact before rfl
  | beginStart =>
    simp only [StartPc.step] at step
    split at step
    · cases (Prod.mk.inj (Option.some.inj step)).2
    · obtain rfl := Control.next.inj (Prod.mk.inj (Option.some.inj step)).2
      split at after <;> cases after
  | createTaskStopped =>
    obtain rfl := Control.next.inj (Prod.mk.inj (Option.some.inj step)).2
    rcases Shared.afterCreation_cases
      { sh with taskStopped := sh.taskStopped.or (if ok then some .empty else none) } with
      same | ⟨same, -⟩ <;> rw [same] at after <;> cases after
  | abort pc result =>
    have same := (Prod.mk.inj (Option.some.inj step)).2
    generalize (pc.step sh.lifecycle).2 = control at same
    cases control with
    | next pc => obtain rfl := Control.next.inj same; cases after
    | ret value => cases same
  | clear pc =>
    have same := (Prod.mk.inj (Option.some.inj step)).2
    generalize (pc.step sh.frames ok).2 = control at same
    cases control <;> obtain rfl := Control.next.inj same <;> cases after
  | beginStop pc =>
    have same := (Prod.mk.inj (Option.some.inj step)).2
    generalize (pc.step sh.lifecycle ok).2 = control at same
    cases control <;> obtain rfl := Control.next.inj same <;> cases after
  | reconcile pc result =>
    have same := (Prod.mk.inj (Option.some.inj step)).2
    generalize (pc.step sh.lifecycle).2 = control at same
    cases control with
    | next pc => obtain rfl := Control.next.inj same; cases after
    | ret value => cases same
  | drainAvailable | drainTaskStopped =>
    rcases takeNow_eq_some step with ⟨s, s', -, -, same⟩ | ⟨s, -, -, same⟩ <;>
      obtain rfl := Control.next.inj (Prod.mk.inj same).2 <;>
      cases after
  | driverInstall | driverStart | driverStop | driverUninstall | createTask =>
    cases ok <;> obtain rfl := Control.next.inj (Prod.mk.inj (Option.some.inj step)).2 <;>
      cases after
  | refused => cases (Prod.mk.inj (Option.some.inj step)).2
  | setStartedBefore => cases (Prod.mk.inj (Option.some.inj step)).2
  | _ =>
    obtain rfl := Control.next.inj (Prod.mk.inj (Option.some.inj step)).2
    cases after

/-! ### Only setBusId stores the bus id -/

theorem StartPc.step_busId {configuration : Configuration} {sh sh' : Shared w} {ok : Bool}
    {pc : StartPc w} {control : Control (StartPc w) Result} (other : pc ≠ .setBusId)
    (step : pc.step configuration sh ok = some (sh', control)) : sh'.busId = sh.busId := by
  cases pc with
  | setBusId => exact absurd rfl other
  | beginStart =>
    simp only [StartPc.step] at step
    split at step <;> obtain ⟨rfl, -⟩ := Prod.mk.inj (Option.some.inj step) <;> rfl
  | drainAvailable | drainTaskStopped =>
    rcases takeNow_eq_some step with ⟨s, s', -, -, same⟩ | ⟨s, -, -, same⟩ <;>
      obtain ⟨rfl, -⟩ := Prod.mk.inj same <;> rfl
  | driverInstall | driverStart | driverStop | driverUninstall =>
    cases ok <;> obtain ⟨rfl, -⟩ := Prod.mk.inj (Option.some.inj step) <;> rfl
  | _ =>
    obtain ⟨rfl, -⟩ := Prod.mk.inj (Option.some.inj step)
    rfl

theorem StopPc.step_busId {sh sh' : Shared w} {ok : Bool} {pc : StopPc}
    {control : Control StopPc Result} (step : pc.step sh ok = some (sh', control)) :
    sh'.busId = sh.busId := by
  cases pc with
  | awaitTask driverStopped =>
    rcases takeWithin_eq_some step with ⟨s, s', -, -, -, same⟩ | ⟨-, same⟩ <;>
      obtain ⟨rfl, -⟩ := Prod.mk.inj same <;> rfl
  | dropToken driverStopped =>
    rcases takeNow_eq_some step with ⟨s, s', -, -, same⟩ | ⟨s, -, -, same⟩ <;>
      obtain ⟨rfl, -⟩ := Prod.mk.inj same <;> rfl
  | drainAvailable =>
    simp only [StopPc.step] at step
    split at step
    · obtain ⟨rfl, -⟩ := Prod.mk.inj (Option.some.inj step)
      rfl
    · rcases takeNow_eq_some step with ⟨s, s', -, -, same⟩ | ⟨s, -, -, same⟩ <;>
        obtain ⟨rfl, -⟩ := Prod.mk.inj same <;> rfl
  | driverStop | driverUninstall =>
    cases ok <;> obtain ⟨rfl, -⟩ := Prod.mk.inj (Option.some.inj step) <;> rfl
  | _ =>
    obtain ⟨rfl, -⟩ := Prod.mk.inj (Option.some.inj step)
    rfl

theorem TaskPc.step_busId {pc : TaskPc w} {env : TaskEnv} {sh sh' : Shared w}
    {control : Control (TaskPc w) Unit} (step : pc.step env sh = some (sh', control)) :
    sh'.busId = sh.busId := by
  cases pc with
  | latch pc =>
    obtain ⟨⟨sh'', inner⟩, inside, same⟩ := Option.map_eq_some_iff.mp step
    obtain ⟨rfl, rfl⟩ := Prod.mk.inj same
    cases pc with
    | wake =>
      obtain ⟨s, -, same⟩ := Option.map_eq_some_iff.mp inside
      obtain ⟨rfl, -⟩ := Prod.mk.inj same
      rfl
    | _ =>
      obtain ⟨rfl, -⟩ := Prod.mk.inj (Option.some.inj inside)
      rfl
  | giveAvailable | giveStopped =>
    obtain ⟨s, -, same⟩ := Option.map_eq_some_iff.mp step
    obtain ⟨rfl, rfl⟩ := Prod.mk.inj same
    rfl
  | _ =>
    obtain ⟨rfl, rfl⟩ := Prod.mk.inj (Option.some.inj step)
    rfl

theorem ReceivePc.step_busId {pc : ReceivePc w} {granted : Bool} {sh sh' : Shared w}
    {control : Control (ReceivePc w) (Result × Option RawCanFrame)}
    (step : pc.step sh granted = some (sh', control)) : sh'.busId = sh.busId := by
  cases pc with
  | take timeoutMs =>
    simp only [ReceivePc.step] at step
    split at step
    · rcases takeNow_eq_some step with ⟨s, s', -, -, same⟩ | ⟨s, -, -, same⟩ <;>
        obtain ⟨rfl, -⟩ := Prod.mk.inj same <;> rfl
    · rcases takeWithin_eq_some step with ⟨s, s', -, -, -, same⟩ | ⟨-, same⟩ <;>
        obtain ⟨rfl, -⟩ := Prod.mk.inj same <;> rfl
  | _ =>
    obtain ⟨rfl, -⟩ := Prod.mk.inj (Option.some.inj step)
    rfl

namespace System

variable {s t first : System w} {k : Choice} {ks ls : List Choice}

/-- The message that the driver has given to a task, with the time read for it. -/
def driverMessages (s : System w) : Choice → List (TwaiMessage × MonotonicTimestamp)
  | .task i env => match s.tasks[i]? with
    | some (.stamp message) => [(message, env.time)]
    | _ => []
  | _ => []

/-- The frame made of a message in a run for a bus. -/
def framed (busId : BitVec 8) (p : TwaiMessage × MonotonicTimestamp) : RawCanFrame :=
  p.1.frame p.2 busId

theorem stampedFrames_eq (s : System w) (k : Choice) :
    s.stampedFrames k =
      ((s.driverMessages k).map (framed s.shared.busId)).filter RawCanFrame.isValid := by
  cases k with
  | task i env =>
    simp only [stampedFrames, driverMessages]
    cases s.tasks[i]? with
    | none => rfl
    | some pc =>
      cases pc with
      | stamp message =>
        simp only [Option.map_some, Option.getD_some, TaskPc.stamps, List.map_cons, List.map_nil,
          framed]
        cases valid : (message.frame env.time s.shared.busId).isValid <;> simp [valid]
      | _ => rfl
  | _ => rfl

/-! ### The bus id of a run -/

/-- A start() that is about to create its task has stored its bus id. -/
def NumberedBy (s : System w) : Prop :=
  ∀ c pc, .start c pc ∈ s.calls → pc.numbered = true → s.shared.busId = c.busId

theorem NumberedBy.next (outlined : s.Outlined) (h : s.NumberedBy) (serial : s.serialized k = true)
    (step : s.next k = some t) : t.NumberedBy := by
  cases k with
  | beginStart configuration =>
    obtain rfl := Option.some.inj step
    intro c pc mem numbered
    have empty : s.calls = [] := List.isEmpty_iff.mp serial
    obtain ⟨-, rfl⟩ : c = configuration ∧ pc = .beginStart := by simpa [empty] using mem
    cases numbered
  | beginStop =>
    obtain rfl := Option.some.inj step
    intro c pc mem
    have empty : s.calls = [] := List.isEmpty_iff.mp serial
    simp [empty] at mem
  | call i ok =>
    obtain ⟨pc, -, -, hpc, -, -⟩ := next_call step
    have member := List.mem_of_getElem? hpc
    obtain ⟨single, -⟩ := outlined.outline member
    obtain ⟨shared, control, hstep, rfl⟩ := next_call_single single step
    intro c pc' mem numbered
    cases control with
    | ret result => cases mem
    | next after =>
      obtain rfl := List.mem_singleton.mp mem
      cases pc with
      | stop pc =>
        obtain ⟨inner, -, same⟩ := CallPc.step_stop hstep
        cases inner <;> cases same
      | start configuration pc =>
        obtain ⟨inner, inside, same⟩ := CallPc.step_start hstep
        cases inner with
        | ret result => cases same
        | next inner =>
          obtain ⟨rfl, rfl⟩ := CallPc.start.inj (Control.next.inj same)
          exact StartPc.step_numbered inside (h c pc member) numbered
  | task i env =>
    obtain ⟨pc, shared, control, -, hstep, rfl⟩ := next_task step
    intro c pc' mem numbered
    exact (TaskPc.step_busId hstep).trans (h c pc' mem numbered)
  | beginReceive timeoutMs =>
    obtain ⟨-, step⟩ := Option.ite_none_right_eq_some.mp step
    obtain rfl := Option.some.inj step
    exact h
  | consumer granted =>
    obtain ⟨pc, shared, control, -, hstep, rfl⟩ := next_consumer step
    intro c pc' mem numbered
    exact (ReceivePc.step_busId hstep).trans (h c pc' mem numbered)
  | beginStatistics | observer | busOff =>
    obtain ⟨frames, driver, observers, -, rfl⟩ := next_beside rfl step
    exact h

theorem exec_numbered (run : exec (guarded apart next) ({} : System w) ks = some s) :
    s.NumberedBy := by
  have both : s.Outlined ∧ s.NumberedBy := by
    refine exec_invariant (P := fun s => s.Outlined ∧ s.NumberedBy) ?_ run ?_
    · rintro s k t ⟨outlined, h⟩ step
      obtain ⟨allowed, step⟩ := guarded_eq_some.mp step
      have serial : s.serialized k = true := by
        simp only [apart, Bool.and_eq_true] at allowed
        exact allowed.1.1
      exact ⟨next_outlined outlined serial step, h.next outlined serial step⟩
    · exact ⟨⟨by simp, by simp, fun _ => ⟨rfl, rfl, rfl⟩⟩, by simp [NumberedBy]⟩
  exact both.2

/-! ### An acquisition -/

/-- No start() gets the controller. -/
def withinAcquisition (s : System w) (k : Choice) : Bool :=
  s.apart k && match k with
    | .call i _ => !s.calls[i]?.any (·.reserves s.shared.lifecycle)
    | _ => true

/-- No start() prepares another acquisition. -/
structure Acquired (s : System w) : Prop where
  apart : s.Apart
  prepared : ∀ pc ∈ s.calls, pc.preparing = false

end System

/-- A start() that does not get the controller does not begin to prepare. -/
theorem CallPc.step_prepared {pc : CallPc w} {sh sh' : Shared w} {ok : Bool}
    {control : Control (CallPc w) Result} (prepared : pc.preparing = false)
    (reserves : pc.reserves sh.lifecycle = false) (step : pc.step sh ok = some (sh', control)) :
    sh'.busId = sh.busId ∧ ∀ pc' ∈ control.live, pc'.preparing = false := by
  cases pc with
  | stop pc =>
    obtain ⟨inner, inside, rfl⟩ := CallPc.step_stop step
    refine ⟨StopPc.step_busId inside, ?_⟩
    intro pc' live
    cases inner with
    | next pc'' =>
      obtain rfl := List.mem_singleton.mp live
      rfl
    | ret result => cases live
  | start c pc =>
    obtain ⟨inner, inside, rfl⟩ := CallPc.step_start step
    refine ⟨StartPc.step_busId (by rintro rfl; cases prepared) inside, ?_⟩
    intro pc' live
    cases inner with
    | ret result => cases live
    | next pc'' =>
      obtain rfl := List.mem_singleton.mp live
      by_contra prepares
      obtain ⟨-, before⟩ := StartPc.step_ready
        (fun preparing => absurd (prepared.symm.trans preparing) Bool.false_ne_true) inside
        (eq_true_of_ne_false prepares)
      rcases before with preparing | reserving
      · exact absurd (prepared.symm.trans preparing) Bool.false_ne_true
      · exact absurd (reserves.symm.trans reserving) Bool.false_ne_true

/-- A call that does not prepare leaves the ring alone. -/
theorem CallPc.ringMoves_prepared {pc : CallPc w} (prepared : pc.preparing = false)
    (sh : Shared w) (ok : Bool) : pc.ringMoves sh ok = [] := by
  cases pc with
  | stop pc => rfl
  | start c pc => cases pc <;> first | rfl | cases prepared

/-- What a task offers to the ring it has been given, and it publishes only what it offers. -/
theorem TaskPc.step_offers {pc : TaskPc w} {env : TaskEnv} {sh sh' : Shared w}
    {control : Control (TaskPc w) Unit} (step : pc.step env sh = some (sh', control)) :
    (pc.accepts ++ (control.pc?.map offers).getD []).Sublist (pc.offers ++ pc.stamps env sh) := by
  cases pc with
  | push pc =>
    obtain ⟨rfl, rfl⟩ := Prod.mk.inj (Option.some.inj step)
    obtain ⟨-, -, offers⟩ := pc.step_feed sh.frames env.cas
    rw [show (TaskPc.push pc).stamps env sh = [] from rfl, List.append_nil]
    generalize (pc.step sh.frames env.cas).2 = control at offers
    cases control with
    | next pc' => exact offers
    | ret accepted => cases accepted <;> exact offers
  | stamp message =>
    obtain ⟨rfl, rfl⟩ := Prod.mk.inj (Option.some.inj step)
    simp only [stamps]
    split <;> exact List.Sublist.refl _
  | loopTest =>
    obtain ⟨rfl, rfl⟩ := Prod.mk.inj (Option.some.inj step)
    cases sh.receiveRequested <;> exact List.Sublist.refl _
  | receive =>
    obtain ⟨rfl, rfl⟩ := Prod.mk.inj (Option.some.inj step)
    cases env.received <;> exact List.Sublist.refl _
  | readStatus =>
    obtain ⟨rfl, rfl⟩ := Prod.mk.inj (Option.some.inj step)
    cases env.status <;> exact List.Sublist.refl _
  | readAlerts =>
    obtain ⟨rfl, rfl⟩ := Prod.mk.inj (Option.some.inj step)
    cases env.alerts with
    | alerts busOff => cases busOff <;> exact List.Sublist.refl _
    | _ => exact List.Sublist.refl _
  | latch pc =>
    obtain ⟨⟨sh'', inner⟩, -, same⟩ := Option.map_eq_some_iff.mp step
    obtain ⟨rfl, rfl⟩ := Prod.mk.inj same
    cases inner <;> exact List.Sublist.refl _
  | giveAvailable | giveStopped =>
    obtain ⟨s, -, same⟩ := Option.map_eq_some_iff.mp step
    obtain ⟨rfl, rfl⟩ := Prod.mk.inj same
    exact List.Sublist.refl _
  | _ =>
    obtain ⟨rfl, rfl⟩ := Prod.mk.inj (Option.some.inj step)
    exact List.Sublist.refl _

/-- receive() returns Ok from its pop only, with a frame, and it pops only if it has seen the
bus Running. -/
theorem ReceivePc.step_pop {sh sh' : Shared w} {granted : Bool}
    {pc : ReceivePc w}
    {control : Control (ReceivePc w) (Result × Option RawCanFrame)}
    (step : pc.step sh granted = some (sh', control)) :
    (∀ value, control = .ret value → value.1 = .ok →
      value.2.isSome = true ∧ ∃ pop, pc = .pop pop) ∧
    (∀ pop, control = .next (.pop pop) →
      (∃ pop', pc = .pop pop') ∨ sh.lifecycle.state = .running) := by
  cases pc with
  | checkState timeoutMs =>
    obtain ⟨rfl, rfl⟩ := Prod.mk.inj (Option.some.inj step)
    cases sh.lifecycle.state <;> simp [refuseOr, receiveRefusal]
  | take timeoutMs =>
    simp only [ReceivePc.step] at step
    split at step
    · rcases takeNow_eq_some step with ⟨s, s', -, -, same⟩ | ⟨s, -, -, same⟩ <;>
        obtain ⟨rfl, rfl⟩ := Prod.mk.inj same <;> simp
    · rcases takeWithin_eq_some step with ⟨s, s', -, -, -, same⟩ | ⟨-, same⟩ <;>
        obtain ⟨rfl, rfl⟩ := Prod.mk.inj same <;> simp
  | checkAfterTimeout =>
    obtain ⟨rfl, rfl⟩ := Prod.mk.inj (Option.some.inj step)
    cases sh.lifecycle.state <;> simp [refuseOr, receiveRefusal]
  | checkAfterTake =>
    obtain ⟨rfl, rfl⟩ := Prod.mk.inj (Option.some.inj step)
    cases sh.lifecycle.state <;> simp [refuseOr, receiveRefusal]
  | pop pc =>
    obtain ⟨rfl, rfl⟩ := Prod.mk.inj (Option.some.inj step)
    refine ⟨?_, fun pop goes => .inl ⟨pc, rfl⟩⟩
    cases (pc.step sh.frames).2 with
    | next pc' => simp [Control.call]
    | ret frame => cases frame <;> simp [Control.call]

/-- What a step of receive() returns with Ok is what the step of its pop returns. -/
theorem ReceivePc.step_returned {sh sh' : Shared w} {pc : ReceivePc w} {granted : Bool}
    {control : Control (ReceivePc w) (Result × Option RawCanFrame)}
    (step : pc.step sh granted = some (sh', control)) :
    (pc.popping.bind fun pop => (pop.step sh.frames).2.value?.join).toList =
      (control.value?.map deliveredFrame).getD [] := by
  cases pc with
  | checkState timeoutMs =>
    obtain ⟨rfl, rfl⟩ := Prod.mk.inj (Option.some.inj step)
    cases sh.lifecycle.state <;> rfl
  | take timeoutMs =>
    simp only [ReceivePc.step] at step
    split at step
    · rcases takeNow_eq_some step with ⟨s, s', -, -, same⟩ | ⟨s, -, -, same⟩ <;>
        obtain ⟨rfl, rfl⟩ := Prod.mk.inj same <;> rfl
    · rcases takeWithin_eq_some step with ⟨s, s', -, -, -, same⟩ | ⟨-, same⟩ <;>
        obtain ⟨rfl, rfl⟩ := Prod.mk.inj same <;> rfl
  | checkAfterTimeout =>
    obtain ⟨rfl, rfl⟩ := Prod.mk.inj (Option.some.inj step)
    cases sh.lifecycle.state <;> rfl
  | checkAfterTake =>
    obtain ⟨rfl, rfl⟩ := Prod.mk.inj (Option.some.inj step)
    cases sh.lifecycle.state <;> rfl
  | pop pc =>
    obtain ⟨rfl, rfl⟩ := Prod.mk.inj (Option.some.inj step)
    simp only [popping, Option.bind_some]
    cases (pc.step sh.frames).2 with
    | next pc' => rfl
    | ret frame => cases frame <;> rfl

/-- A ring that is not cleared is the ring of one producer and one consumer. -/
theorem Clearing.exec_ring {capacity : ℕ} {F : Type*} [NeZero capacity]
    {s t : Clearing w capacity F} {ms : List (Spsc.Choice F)}
    (run : exec Clearing.next s (ms.map .ring) = some t) :
    exec Spsc.next s.toSpsc ms = some t.toSpsc := by
  induction ms generalizing s with
  | nil =>
    obtain rfl := Option.some.inj run
    rfl
  | cons m ms ih =>
    obtain ⟨u, step, run⟩ := exec_cons_eq_some.mp run
    obtain ⟨-, step⟩ := guarded_eq_some.mp step
    obtain ⟨spsc, moved, rfl⟩ := Option.map_eq_some_iff.mp step
    exact exec_cons_eq_some.mpr ⟨spsc, moved, ih run⟩

namespace System

variable {s t first : System w} {k : Choice} {ks ls : List Choice}

theorem Acquired.next (h : s.Acquired) (within : s.withinAcquisition k = true)
    (step : s.next k = some t) : t.Acquired ∧ t.shared.busId = s.shared.busId := by
  simp only [withinAcquisition, Bool.and_eq_true] at within
  obtain ⟨allowed, within⟩ := within
  have after := h.apart.next allowed step
  cases k with
  | beginStart c =>
    obtain rfl := Option.some.inj step
    refine ⟨⟨after, ?_⟩, rfl⟩
    intro pc mem
    rcases List.mem_append.mp mem with old | new
    · exact h.prepared pc old
    · obtain rfl := List.mem_singleton.mp new
      rfl
  | beginStop =>
    obtain rfl := Option.some.inj step
    refine ⟨⟨after, ?_⟩, rfl⟩
    intro pc mem
    rcases List.mem_append.mp mem with old | new
    · exact h.prepared pc old
    · obtain rfl := List.mem_singleton.mp new
      rfl
  | call i ok =>
    obtain ⟨pc, shared, control, hpc, hstep, rfl⟩ := next_call step
    simp only [hpc, Option.any_some, Bool.not_eq_true'] at within
    obtain ⟨busId, prepared⟩ :=
      CallPc.step_prepared (h.prepared pc (List.mem_of_getElem? hpc)) within hstep
    refine ⟨⟨after, ?_⟩, busId⟩
    intro pc' mem
    rcases mem_of_mem_resume hpc mem with old | own
    · exact h.prepared pc' old
    · exact prepared pc' own
  | task i env =>
    obtain ⟨pc, shared, control, -, hstep, rfl⟩ := next_task step
    exact ⟨⟨after, h.prepared⟩, TaskPc.step_busId hstep⟩
  | beginReceive timeoutMs =>
    obtain ⟨-, step⟩ := Option.ite_none_right_eq_some.mp step
    obtain rfl := Option.some.inj step
    exact ⟨⟨after, h.prepared⟩, rfl⟩
  | consumer granted =>
    obtain ⟨pc, shared, control, -, hstep, rfl⟩ := next_consumer step
    exact ⟨⟨after, h.prepared⟩, ReceivePc.step_busId hstep⟩
  | beginStatistics | observer | busOff =>
    obtain ⟨frames, driver, observers, -, rfl⟩ := next_beside rfl step
    exact ⟨⟨after, h.prepared⟩, rfl⟩

/-- The steps of the ring's two threads, its observers and its records. -/
def spscMoves (s : System w) (k : Choice) : List (Spsc.Choice RawCanFrame) :=
  (s.ringMoves k).filterMap fun
    | .ring m => some m
    | _ => none

theorem Acquired.ringMoves (h : s.Acquired) (k : Choice) :
    s.ringMoves k = (s.spscMoves k).map .ring := by
  have only : ∀ m ∈ s.ringMoves k, ∃ m', m = .ring m' := by
    intro m mem
    cases k with
    | call i ok =>
      cases found : s.calls[i]? with
      | none => simp [System.ringMoves, found] at mem
      | some pc =>
        have prepared := h.prepared pc (List.mem_of_getElem? found)
        simp [System.ringMoves, found, CallPc.ringMoves_prepared prepared] at mem
    | task i env =>
      cases found : s.tasks[i]? with
      | none => simp [System.ringMoves, found] at mem
      | some pc =>
        simp only [System.ringMoves, found, Option.map_some, Option.getD_some] at mem
        rcases TaskPc.mem_ringMoves mem with ⟨frame, rfl⟩ | rfl | ⟨what, n, rfl⟩ <;> exact ⟨_, rfl⟩
    | consumer granted =>
      cases found : s.consumer with
      | none => simp [System.ringMoves, found] at mem
      | some pc =>
        simp only [System.ringMoves, found, Option.map_some, Option.getD_some] at mem
        rcases ReceivePc.mem_ringMoves mem with rfl | rfl <;> exact ⟨_, rfl⟩
    | beginStatistics operation => exact ⟨_, List.mem_singleton.mp mem⟩
    | observer i cas => exact ⟨_, List.mem_singleton.mp mem⟩
    | _ => cases mem
  rw [spscMoves, List.map_filterMap]
  refine Eq.symm (Eq.trans (List.filterMap_congr ?_) (List.filterMap_some))
  intro m mem
  obtain ⟨m', rfl⟩ := only m mem
  rfl

/-- The ring within an acquisition. -/
def acquisitionRing : Projection (guarded withinAcquisition (next (w := w)))
    (Spsc.next : Spsc w queueCapacity RawCanFrame → _ → _) where
  Inv := Acquired
  view s := s.ringUse.toSpsc
  moves := spscMoves
  keeps h step := (h.next (guarded_eq_some.mp step).1 (guarded_eq_some.mp step).2).1
  step := by
    intro s k t h step
    obtain ⟨within, step⟩ := guarded_eq_some.mp step
    simp only [withinAcquisition, Bool.and_eq_true] at within
    refine Clearing.exec_ring ?_
    rw [← h.ringMoves k]
    exact next_ringUse h.apart within.1 step

/-- What the ring publishes is what the task accepts. -/
theorem Acquired.trace_published (h : s.Acquired) (k : Choice) :
    trace Spsc.next Spsc.published s.ringUse.toSpsc (s.spscMoves k) = s.acceptedFrames k := by
  have others (m : Spsc.Choice RawCanFrame) (other : ∀ cas, m ≠ .producer cas)
      (ring : Spsc w queueCapacity RawCanFrame) : ring.published m = [] := by
    cases m with
    | producer cas => exact absurd rfl (other cas)
    | _ => rfl
  cases k with
  | task i env =>
    cases found : s.tasks[i]? with
    | none =>
      simp only [spscMoves, System.ringMoves, acceptedFrames, found]
      rfl
    | some pc =>
      simp only [spscMoves, System.ringMoves, acceptedFrames, found, Option.map_some,
        Option.getD_some]
      cases pc with
      | push pc =>
        refine (trace_single _ _ _).trans ?_
        have producer := h.apart.producer found
        simp only [Spsc.published, producer]
        cases pc <;> rfl
      | stamp message =>
        refine trace_eq_nil ?_ _
        intro m mem
        refine others m ?_
        simp only [TaskPc.ringMoves] at mem
        split at mem <;> simp_all
      | _ =>
        refine trace_eq_nil ?_ _
        intro m mem
        refine others m ?_
        simp_all [TaskPc.ringMoves]
  | call i ok =>
    refine trace_eq_nil ?_ _
    intro m mem
    cases found : s.calls[i]? with
    | none => simp [spscMoves, System.ringMoves, found] at mem
    | some pc =>
      have prepared := h.prepared pc (List.mem_of_getElem? found)
      simp [spscMoves, System.ringMoves, found, CallPc.ringMoves_prepared prepared] at mem
  | consumer granted =>
    refine trace_eq_nil ?_ _
    intro m mem
    refine others m ?_
    cases found : s.consumer with
    | none => simp [spscMoves, System.ringMoves, found] at mem
    | some pc =>
      obtain ⟨m', mem, same⟩ := List.mem_filterMap.mp mem
      simp only [System.ringMoves, found, Option.map_some, Option.getD_some] at mem
      rcases ReceivePc.mem_ringMoves mem with rfl | rfl <;> obtain rfl := Option.some.inj same <;>
        simp
  | _ =>
    refine trace_eq_nil ?_ _
    intro m mem
    refine others m ?_
    simp_all [spscMoves, System.ringMoves]

/-- The step of receive() that returns a frame is the one that ends its pop. -/
theorem trace_returned (step : s.next k = some t) :
    trace Spsc.next Spsc.returned s.ringUse.toSpsc (s.spscMoves k) = s.returnedFrames k := by
  have others (m : Spsc.Choice RawCanFrame) (other : m ≠ .consumer)
      (ring : Spsc w queueCapacity RawCanFrame) : ring.returned m = [] := by
    cases m with
    | consumer => exact absurd rfl other
    | _ => rfl
  cases k with
  | consumer granted =>
    obtain ⟨pc, shared, control, hpc, hstep, rfl⟩ := next_consumer step
    have value : s.received (.consumer granted) = control.value? := by
      simp only [received, hpc, Option.bind_some, hstep]
    rw [returnedFrames, value, ← ReceivePc.step_returned hstep]
    simp only [spscMoves, System.ringMoves, hpc, Option.map_some, Option.getD_some]
    cases pc with
    | pop pc =>
      refine (trace_single _ _ _).trans ?_
      simp only [Spsc.returned, ringUse, hpc, Option.bind_some, ReceivePc.popping]
    | checkAfterTake =>
      refine trace_eq_nil ?_ _
      intro m mem
      refine others m ?_
      simp only [ReceivePc.ringMoves] at mem
      split at mem <;> simp_all
    | _ => rfl
  | task i env =>
    refine trace_eq_nil ?_ _
    intro m mem
    refine others m ?_
    cases found : s.tasks[i]? with
    | none => simp [spscMoves, System.ringMoves, found] at mem
    | some pc =>
      obtain ⟨m', mem, same⟩ := List.mem_filterMap.mp mem
      simp only [System.ringMoves, found, Option.map_some, Option.getD_some] at mem
      rcases TaskPc.mem_ringMoves mem with ⟨frame, rfl⟩ | rfl | ⟨what, n, rfl⟩ <;>
        obtain rfl := Option.some.inj same <;> simp
  | call i ok =>
    refine trace_eq_nil ?_ _
    intro m mem
    refine others m ?_
    cases found : s.calls[i]? with
    | none => simp [spscMoves, System.ringMoves, found] at mem
    | some pc =>
      obtain ⟨m', mem, same⟩ := List.mem_filterMap.mp mem
      simp only [System.ringMoves, found, Option.map_some, Option.getD_some] at mem
      rcases CallPc.mem_ringMoves mem with rfl | rfl | rfl <;> simp_all
      obtain rfl := same
      simp
  | _ =>
    refine trace_eq_nil ?_ _
    intro m mem
    refine others m ?_
    simp_all [spscMoves, System.ringMoves]

/-! ### From the driver to the caller -/

/-- The frames that the live task has still to publish, beside those published. -/
def Offers (s : System w) (stamped accepted : List RawCanFrame) : Prop :=
  ∃ one : Option (TaskPc w), s.tasks.filter TaskPc.live = one.toList ∧
    (accepted ++ (one.map TaskPc.offers).getD []).Sublist stamped

theorem Offers.next {stamped accepted : List RawCanFrame} (h : s.Offers stamped accepted)
    (acquired : s.Acquired) (within : s.withinAcquisition k = true) (step : s.next k = some t) :
    t.Offers (stamped ++ s.stampedFrames k) (accepted ++ s.acceptedFrames k) := by
  obtain ⟨one, tasks, sub⟩ := h
  have same (tasks' : t.tasks = s.tasks) (nothing : s.stampedFrames k = [] ∧ s.acceptedFrames k = []) :
      t.Offers (stamped ++ s.stampedFrames k) (accepted ++ s.acceptedFrames k) := by
    rw [nothing.1, nothing.2, List.append_nil, List.append_nil]
    exact ⟨one, by rw [tasks', tasks], sub⟩
  cases k with
  | task i env =>
    obtain ⟨pc, shared, control, hpc, hstep, rfl⟩ := next_task step
    simp only [stampedFrames, acceptedFrames, hpc, Option.map_some, Option.getD_some]
    cases live : pc.live with
    | true =>
      obtain ⟨rfl, left⟩ := filter_resume_alone hpc tasks live control
      refine ⟨_, left, ?_⟩
      have offers := TaskPc.step_offers hstep
      have kept : ((control.pc?.filter TaskPc.live).map TaskPc.offers).getD [] =
          (control.pc?.map TaskPc.offers).getD [] := by
        cases control with
        | ret value => rfl
        | next pc' =>
          cases live' : pc'.live with
          | true => simp [Option.filter, live']
          | false =>
            have nothing : pc'.offers = [] := by cases pc' <;> first | rfl | cases live'
            simp [Option.filter, live', nothing]
      rw [kept, List.append_assoc]
      refine (List.Sublist.append_left offers accepted).trans ?_
      rw [← List.append_assoc]
      exact List.Sublist.append_right sub _
    | false =>
      obtain ⟨-, -, -, stamps, accepts, dead⟩ := TaskPc.step_dead live hstep
      rw [stamps, accepts, List.append_nil, List.append_nil]
      exact ⟨one, (filter_resume_other hpc live dead).trans tasks, sub⟩
  | call i ok =>
    obtain ⟨pc, shared, control, hpc, -, rfl⟩ := next_call step
    have created : pc.created ok = [] := by
      rcases pc.created_cases ok with nothing | ⟨c, rfl, -, -⟩
      · exact nothing
      · cases acquired.prepared _ (List.mem_of_getElem? hpc)
    refine same ?_ ⟨rfl, rfl⟩
    show s.tasks ++ pc.created ok = s.tasks
    rw [created, List.append_nil]
  | beginStart c =>
    obtain rfl := Option.some.inj step
    exact same rfl ⟨rfl, rfl⟩
  | beginStop =>
    obtain rfl := Option.some.inj step
    exact same rfl ⟨rfl, rfl⟩
  | beginReceive timeoutMs =>
    obtain ⟨-, step⟩ := Option.ite_none_right_eq_some.mp step
    obtain rfl := Option.some.inj step
    exact same rfl ⟨rfl, rfl⟩
  | consumer granted =>
    obtain ⟨pc, shared, control, -, -, rfl⟩ := next_consumer step
    exact same rfl ⟨rfl, rfl⟩
  | beginStatistics | observer | busOff =>
    obtain ⟨frames, driver, observers, -, rfl⟩ := next_beside rfl step
    exact same rfl ⟨rfl, rfl⟩

/-- An acquisition by the start() with some configuration, with what the driver has given to
its task. -/
structure Follows (c : Configuration) (first : System w) (ls : List Choice) (s : System w) : Prop where
  acquired : s.Acquired
  busId : s.shared.busId = c.busId
  offers : s.Offers (((trace (guarded withinAcquisition next) driverMessages first ls).map
    (framed c.busId)).filter RawCanFrame.isValid)
      (trace (guarded withinAcquisition next) acceptedFrames first ls)

/-- The task has just been created by the start(). -/
structure Begins (c : Configuration) (s first : System w) : Prop where
  creating : s.calls = [.start c .createTask]
  creates : guarded apart next s (.call 0 true) = some first

theorem Begins.fresh {c : Configuration} (h : Begins c s first) (apart : s.Apart)
    (numbered : s.NumberedBy) :
    Follows c first [] first ∧ first.ringUse.toSpsc.Represents first.shared.frames.tail.toNat [] ∧
      first.consumer = none := by
  obtain ⟨creating, creates⟩ := h
  obtain ⟨allowed, step⟩ := guarded_eq_some.mp creates
  have after := apart.next allowed step
  obtain ⟨idle, none, ready⟩ := apart.preparing.alone c .createTask (by simp [creating]) rfl
  obtain ⟨shared, control, hstep, rfl⟩ := next_call_single creating step
  obtain ⟨inner, inside, rfl⟩ := CallPc.step_start hstep
  obtain ⟨rfl, rfl⟩ := Prod.mk.inj (Option.some.inj inside)
  have dead : s.tasks.filter TaskPc.live = [] := by
    rw [← List.length_eq_zero_iff, ← List.countP_eq_length_filter]
    exact none
  have tasks : (s.tasks ++ [TaskPc.loopTest]).filter TaskPc.live = [.loopTest] := by
    rw [List.filter_append, dead]
    rfl
  refine ⟨⟨⟨after, ?_⟩, numbered c .createTask (by simp [creating]) rfl,
    some .loopTest, tasks, .refl _⟩, ?_, idle⟩
  · intro pc mem
    obtain rfl := List.mem_singleton.mp mem
    rfl
  · have producer : ((s.tasks ++ [TaskPc.loopTest]).filter TaskPc.live).head?.bind TaskPc.pushing =
        Option.none := by
      rw [tasks]
      rfl
    have consumer : s.consumer.bind ReceivePc.popping = Option.none := by
      rw [idle]
      rfl
    show Agreement s.shared.frames (((s.tasks ++ [TaskPc.loopTest]).filter TaskPc.live).head?.bind
      TaskPc.pushing) (s.consumer.bind ReceivePc.popping) _ []
    rw [producer, consumer]
    exact .of_empty (ready.cleared rfl)

theorem follows {c : Configuration} (before : exec (guarded apart next) ({} : System w) ks = some s)
    (begins : Begins c s first) (run : exec (guarded withinAcquisition next) first ls = some t) :
    Follows c first ls t := by
  refine exec_history (P := fun ls t => Follows c first ls t) ?_ ?_ run
  · exact (begins.fresh (exec_apart before) (exec_numbered before)).1
  · intro ls t k u run h step
    obtain ⟨within, moved⟩ := guarded_eq_some.mp step
    obtain ⟨acquired, busId⟩ := h.acquired.next within moved
    refine ⟨acquired, busId.trans h.busId, ?_⟩
    have offers := h.offers.next h.acquired within moved
    rw [stampedFrames_eq, h.busId, ← List.filter_append, ← List.map_append,
      ← trace_concat run k, ← trace_concat run k] at offers
    exact offers

/-- What is returned is a prefix of what is queued, and this is made of the driver's messages. -/
theorem returned_of_driver (wide : 6 < w) {c : Configuration}
    (before : exec (guarded apart next) ({} : System w) ks = some s) (begins : Begins c s first)
    (run : exec (guarded withinAcquisition next) first ls = some t) :
    trace (guarded withinAcquisition next) returnedFrames first ls <+:
        trace (guarded withinAcquisition next) acceptedFrames first ls ∧
      (trace (guarded withinAcquisition next) acceptedFrames first ls).Sublist
        (((trace (guarded withinAcquisition next) driverMessages first ls).map
          (framed c.busId)).filter RawCanFrame.isValid) := by
  have divides : queueCapacity ∣ 2 ^ w := (Nat.pow_dvd_pow_iff_le_right Nat.one_lt_two).mpr wide.le
  have small : queueCapacity < 2 ^ w := Nat.pow_lt_pow_right Nat.one_lt_two wide
  obtain ⟨start, represents, idle⟩ := begins.fresh (exec_apart before) (exec_numbered before)
  have ring := acquisitionRing.exec_schedule start.acquired run
  have publishes : trace Spsc.next Spsc.published first.ringUse.toSpsc
      (acquisitionRing.schedule first ls) =
        trace (guarded withinAcquisition next) acceptedFrames first ls :=
    acquisitionRing.trace_schedule (fun h _ => h.trace_published _) start.acquired run
  have returns : trace Spsc.next Spsc.returned first.ringUse.toSpsc
      (acquisitionRing.schedule first ls) =
        trace (guarded withinAcquisition next) returnedFrames first ls :=
    acquisitionRing.trace_schedule (fun _ step => trace_returned (guarded_eq_some.mp step).2)
      start.acquired run
  constructor
  · rw [← publishes, ← returns]
    exact Spsc.returned_prefix_published small divides represents (by simp [ringUse, idle])
      ring
  · obtain ⟨one, -, offers⟩ := (follows before begins run).offers
    exact (List.sublist_append_left _ _).trans offers

/-- Where the frames are that the task has queued: returned, in the hand of receive(), or in the
ring. -/
theorem accepted_account (wide : 6 < w) {c : Configuration}
    (before : exec (guarded apart next) ({} : System w) ks = some s) (begins : Begins c s first)
    (run : exec (guarded withinAcquisition next) first ls = some t) :
    ∃ queue : List RawCanFrame,
      queue.length = RingIndex.distance t.shared.frames.head t.shared.frames.tail ∧
      trace (guarded withinAcquisition next) acceptedFrames first ls =
        trace (guarded withinAcquisition next) returnedFrames first ls ++
          ((t.consumer.map ReceivePc.inHand).getD [] ++ queue) := by
  have divides : queueCapacity ∣ 2 ^ w := (Nat.pow_dvd_pow_iff_le_right Nat.one_lt_two).mpr wide.le
  have small : queueCapacity < 2 ^ w := Nat.pow_lt_pow_right Nat.one_lt_two wide
  obtain ⟨start, represents, idle⟩ := begins.fresh (exec_apart before) (exec_numbered before)
  have ring := acquisitionRing.exec_schedule start.acquired run
  obtain ⟨queue, holds, fifo, taken⟩ := Spsc.exec_represents small divides represents ring
  have through := BoundedFifo.exec_conserves fifo
  rw [List.nil_append, Spsc.entered_trace, taken] at through
  have publishes : trace Spsc.next Spsc.published first.ringUse.toSpsc
      (acquisitionRing.schedule first ls) =
        trace (guarded withinAcquisition next) acceptedFrames first ls :=
    acquisitionRing.trace_schedule (fun h _ => h.trace_published _) start.acquired run
  have returns : trace Spsc.next Spsc.returned first.ringUse.toSpsc
      (acquisitionRing.schedule first ls) =
        trace (guarded withinAcquisition next) returnedFrames first ls :=
    acquisitionRing.trace_schedule (fun _ step => trace_returned (guarded_eq_some.mp step).2)
      start.acquired run
  have balance := trace_balance (fun _ _ _ => Spsc.next_returned) ring
  have nothing : Spsc.pending first.ringUse.toSpsc = [] := by
    simp [Spsc.pending, ringUse, idle]
  have hand : Spsc.pending t.ringUse.toSpsc = (t.consumer.map ReceivePc.inHand).getD [] := by
    simp only [Spsc.pending, ringUse]
    cases t.consumer with
    | none => rfl
    | some pc =>
      cases pc with
      | pop pc => cases pc <;> rfl
      | _ => rfl
  refine ⟨queue, ?_, ?_⟩
  · exact (holds.holds.distance_eq small).symm
  · have released : trace Spsc.next Spsc.dequeued first.ringUse.toSpsc
        (acquisitionRing.schedule first ls) =
          trace Spsc.next Spsc.returned first.ringUse.toSpsc (acquisitionRing.schedule first ls) ++
            Spsc.pending t.ringUse.toSpsc := by
      rw [← List.nil_append (trace Spsc.next Spsc.dequeued _ _), ← nothing]
      exact balance
    rw [← publishes, through, released, returns, hand, List.append_assoc]

/-- What is known of frames that are, in order, some of the driver's messages. -/
theorem framed_of_sublist {busId : BitVec 8} {messages : List (TwaiMessage × MonotonicTimestamp)}
    {frames : List RawCanFrame}
    (ordered : frames.Sublist ((messages.map (framed busId)).filter RawCanFrame.isValid)) :
    (∀ frame ∈ frames, frame.isValid = true ∧ frame.busId = busId ∧
        ∃ p ∈ messages, frame = framed busId p) ∧
      ((messages.map Prod.snd).Pairwise (· ≤ ·) →
        (frames.map RawCanFrame.timestampUs).Pairwise (· ≤ ·)) := by
  constructor
  · intro frame mem
    obtain ⟨mem, valid⟩ := List.mem_filter.mp (ordered.subset mem)
    obtain ⟨p, given, rfl⟩ := List.mem_map.mp mem
    exact ⟨valid, rfl, p, given, rfl⟩
  · intro clock
    have times : (messages.map (framed busId)).map RawCanFrame.timestampUs =
        messages.map Prod.snd := by
      rw [List.map_map]
      rfl
    rw [← times] at clock
    exact clock.sublist ((ordered.trans List.filter_sublist).map _)

/-- From the creation of a task by start() until another start() gets the controller, through
stop() and after it: what receive() returns is a prefix of what the task has queued, and
this is, in order, some of the valid messages that the driver gave to the task, each with
the time read for it and the bus id of the start(). Where these times do not decrease, the
timestamps do not. -/
theorem frames_from_driver (wide : 6 < w) {c : Configuration}
    (before : exec (guarded apart next) ({} : System w) ks = some s) (begins : Begins c s first)
    (run : exec (guarded withinAcquisition next) first ls = some t) :
    let messages := trace (guarded withinAcquisition next) driverMessages first ls
    let accepted := trace (guarded withinAcquisition next) acceptedFrames first ls
    let returned := trace (guarded withinAcquisition next) returnedFrames first ls
    returned <+: accepted ∧
      accepted.Sublist ((messages.map (framed c.busId)).filter RawCanFrame.isValid) ∧
      (∀ frame ∈ returned, frame.isValid = true ∧ frame.busId = c.busId ∧
        ∃ p ∈ messages, frame = framed c.busId p) ∧
      ((messages.map Prod.snd).Pairwise (· ≤ ·) →
        (returned.map RawCanFrame.timestampUs).Pairwise (· ≤ ·)) := by
  intro messages accepted returned
  obtain ⟨prefix', sub⟩ := returned_of_driver wide before begins run
  exact ⟨prefix', sub, framed_of_sublist (prefix'.sublist.trans sub)⟩

/-! ### Outside of Running -/

/-- The bus has left Running, and no call will take it back there. -/
structure Halted (s : System w) : Prop where
  settling : s.Settling
  state : s.shared.lifecycle.state ≠ .running

theorem Halted.next (h : s.Halted) (within : s.withinAcquisition k = true)
    (step : s.next k = some t) : t.Halted := by
  obtain ⟨settling, state⟩ := h.settling.next step
  refine ⟨settling, mt (state ?_) h.state⟩
  cases k with
  | call i ok =>
    simp only [withinAcquisition, Bool.and_eq_true] at within
    simp only [unreserved]
    cases found : s.calls[i]? with
    | none => rfl
    | some pc => simpa [found] using within.2
  | _ => rfl

/-- A start() that prepares has the bus Running. -/
theorem Halted.acquired (h : s.Halted) (apart : s.Apart) : s.Acquired := by
  refine ⟨apart, ?_⟩
  intro pc mem
  cases pc with
  | stop pc => rfl
  | start c pc =>
    by_contra prepares
    exact h.state (apart.preparing.alone c pc mem (eq_true_of_ne_false prepares)).2.2.running

/-- A receive() that has made its checks and is taking a frame. -/
def takesFrame (s : System w) : ℕ := (s.consumer.bind ReceivePc.popping).toList.length

/-- Only a receive() past its checks returns a frame. -/
theorem Halted.returned_step (h : s.Halted) (step : s.next k = some t) :
    (s.returnedFrames k).length + t.takesFrame ≤ s.takesFrame := by
  have same (nothing : s.returnedFrames k = []) (consumer : t.consumer = s.consumer) :
      (s.returnedFrames k).length + t.takesFrame ≤ s.takesFrame := by
    simp [nothing, takesFrame, consumer]
  cases k with
  | consumer granted =>
    obtain ⟨pc, shared, control, hpc, hstep, rfl⟩ := next_consumer step
    obtain ⟨returns, pops⟩ := ReceivePc.step_pop hstep
    have shown : s.returnedFrames (.consumer granted) =
        (control.value?.map deliveredFrame).getD [] := by
      simp only [returnedFrames, received, hpc, Option.bind_some, hstep]
    rw [shown]
    simp only [takesFrame, hpc, Option.bind_some]
    cases control with
    | next pc' =>
      cases pc' with
      | pop pop =>
        obtain ⟨pop', rfl⟩ := (pops pop rfl).resolve_right h.state
        rfl
      | _ => exact Nat.zero_le _
    | ret value =>
      obtain ⟨result, frame⟩ := value
      cases result with
      | ok =>
        obtain ⟨-, pop, rfl⟩ := returns _ rfl rfl
        cases frame <;> simp [deliveredFrame, Control.value?, Control.pc?, ReceivePc.popping]
      | _ => exact Nat.zero_le _
  | beginReceive timeoutMs =>
    obtain ⟨-, step⟩ := Option.ite_none_right_eq_some.mp step
    obtain rfl := Option.some.inj step
    exact Nat.zero_le _
  | beginStart c =>
    obtain rfl := Option.some.inj step
    exact same rfl rfl
  | beginStop =>
    obtain rfl := Option.some.inj step
    exact same rfl rfl
  | call i ok =>
    obtain ⟨pc, shared, control, -, -, rfl⟩ := next_call step
    exact same rfl rfl
  | task i env =>
    obtain ⟨pc, shared, control, -, -, rfl⟩ := next_task step
    exact same rfl rfl
  | beginStatistics | observer | busOff =>
    obtain ⟨frames, driver, observers, -, rfl⟩ := next_beside rfl step
    exact same rfl rfl

/-- Until another start() gets the bus, at most the receive() that was taking a frame returns
one. -/
theorem exec_halted (h : s.Halted) (run : exec (guarded withinAcquisition next) s ls = some t) :
    t.Halted ∧
      (trace (guarded withinAcquisition next) returnedFrames s ls).length + t.takesFrame ≤
        s.takesFrame := by
  refine exec_history (P := fun ls t => t.Halted ∧
    (trace (guarded withinAcquisition next) returnedFrames s ls).length + t.takesFrame ≤
      s.takesFrame) ⟨h, by simp [trace]⟩ ?_ run
  rintro ls t k u run ⟨halted, few⟩ step
  obtain ⟨within, moved⟩ := guarded_eq_some.mp step
  refine ⟨halted.next within moved, ?_⟩
  have one := halted.returned_step moved
  rw [trace_concat run, List.length_append]
  omega

/-- A message is queued and received, and a stop() begins. -/
def oneFrameStopRun : List Choice := oneFrameRun ++ .beginStop :: List.replicate 4 (.call 0 true)

theorem frames_from_driver_stopping :
    let created := final (guarded apart next) (final (guarded apart next) ({} : System 32) creatingRun)
      [.call 0 true]
    (trace (guarded withinAcquisition next) returnedFrames created oneFrameStopRun).length = 1 ∧
      ∀ frame ∈ trace (guarded withinAcquisition next) returnedFrames created oneFrameStopRun,
        frame.isValid = true := by
  intro created
  have before := exec_eq_final (guarded apart next) ({} : System 32) creatingRun (by decide)
  have creating : ∃ c, (final (guarded apart next) ({} : System 32) creatingRun).calls =
      [.start c .createTask] := ⟨_, rfl⟩
  obtain ⟨c, creating⟩ := creating
  have creates : guarded apart next (final (guarded apart next) ({} : System 32) creatingRun)
      (.call 0 true) = some created :=
    next_eq_final (guarded apart next) _ (.call 0 true) (by decide)
  have run := exec_eq_final (guarded withinAcquisition next) created oneFrameStopRun (by decide)
  refine ⟨by decide, ?_⟩
  intro frame mem
  exact ((frames_from_driver (by decide) before ⟨creating, creates⟩ run).2.2.1 frame mem).1

end System

end CanTelemetry.CanBus
