import CanTelemetry.CanBus.TerminalFault
import CanTelemetry.Firmware.BenchFrames
import CanTelemetry.VehicleTelemetry.FaultCause

/-! How the bench receiver ends. Its loop is left only when the receive task has met a failed
driver call or a bus-off alert and has latched it, so that receive() answers Faulted. When
app_main has returned, for whatever reason, no call of can_bus is in progress and the bus is
not Running. -/

namespace CanTelemetry

open Execution Threads VehicleCore

/-! ### On the bus -/

namespace CanBus

variable {w : ℕ}

/-- A start() that fails although the bus was Stopped does not leave it Running. -/
theorem StartPc.step_failed {configuration : Configuration} {sh sh' : Shared w} {ok : Bool}
    {pc : StartPc w} {result : Result} (valid : isConfigurationValid configuration = true)
    (granted : pc.Granted sh.lifecycle)
    (outline : (CallPc.start configuration pc).Outline sh.lifecycle)
    (settles : (CallPc.start configuration pc).settles = true)
    (step : pc.step configuration sh ok = some (sh', .ret result)) (failed : result ≠ .ok) :
    sh'.lifecycle.state ≠ .running := by
  have known : (StartPc.knows pc).Holds sh.lifecycle := outline.knows
  cases pc with
  | beginStart =>
    simp only [StartPc.step, valid, Bool.not_true, Bool.false_eq_true, if_false] at step
    cases (Prod.mk.inj (Option.some.inj step)).2
  | refused => exact granted.elim
  | abort pc result =>
    have uninstalled : sh.lifecycle.driverInstalled = false := known.installed false rfl
    have free : sh.lifecycle.taskOwned = false := known.disowned rfl
    have same := Option.some.inj step
    cases pc with
    | loadInstalled =>
      simp only [AbortPc.step, uninstalled] at same
      cases (Prod.mk.inj same).2
    | loadOwned =>
      simp only [AbortPc.step, free] at same
      cases (Prod.mk.inj same).2
    | storeStopped =>
      obtain ⟨rfl, -⟩ := Prod.mk.inj same
      simp [AbortPc.step]
  | reconcile pc result =>
    have same := Option.some.inj step
    cases pc with
    | loadOwned => cases (Prod.mk.inj same).2
    | loadInstalled => cases (Prod.mk.inj same).2
    | store target =>
      obtain ⟨rfl, -⟩ := Prod.mk.inj same
      exact of_decide_eq_true settles
  | setStartedBefore =>
    obtain ⟨-, same⟩ := Prod.mk.inj (Option.some.inj step)
    exact absurd (Control.ret.inj same).symm failed
  | createTaskStopped => cases (Prod.mk.inj (Option.some.inj step)).2
  | drainAvailable | drainTaskStopped =>
    rcases takeNow_eq_some step with ⟨s, s', -, -, same⟩ | ⟨s, -, -, same⟩ <;>
      cases (Prod.mk.inj same).2
  | driverInstall | driverStart | driverStop | driverUninstall =>
    cases ok <;> cases (Prod.mk.inj (Option.some.inj step)).2
  | clear pc =>
    have same := (Prod.mk.inj (Option.some.inj step)).2
    generalize (pc.step sh.frames ok).2 = control at same
    cases control <;> cases same
  | beginStop pc =>
    have same := (Prod.mk.inj (Option.some.inj step)).2
    generalize (pc.step sh.lifecycle ok).2 = control at same
    cases control <;> cases same
  | _ => cases (Prod.mk.inj (Option.some.inj step)).2

namespace System

variable {s t : System w} {k : Choice}

/-- The task that a step creates. -/
def createdTasks (s : System w) : Choice → List (TaskPc w)
  | .call i ok => (s.calls[i]?.map (CallPc.created ok)).getD []
  | _ => []

theorem createdTasks_eq_nil (step : s.next k = some t) (none : t.tasks = []) :
    s.createdTasks k = [] := by
  cases k with
  | call i ok =>
    obtain ⟨pc, shared, control, found, -, rfl⟩ := next_call step
    simp only [createdTasks, found, Option.map_some, Option.getD_some]
    exact (List.append_eq_nil_iff.mp none).2
  | _ => rfl

theorem oneTask_of_receiving (allowed : s.receiving k = true) : s.oneTask k = true := by
  simp only [receiving, Bool.and_eq_true] at allowed
  obtain ⟨serial, allowed⟩ := allowed
  cases k with
  | call i ok =>
    cases found : s.calls[i]? with
    | none => simp [oneTask, serial, found]
    | some pc =>
      simp only [found, Bool.or_eq_true, Bool.not_eq_true', Bool.and_eq_true,
        decide_eq_true_eq] at allowed
      simp only [oneTask, serial, found, Bool.true_and, Bool.or_eq_true, Bool.not_eq_true',
        decide_eq_true_eq]
      exact allowed.imp_right And.left
  | _ => simp [oneTask, serial]

end System

end CanBus

namespace Tcan485Bench

/-! ### In app_main -/

namespace AppPc

/-- Before start() has answered. -/
def boots : AppPc → Bool
  | .initializing _ | .start | .starting => true
  | _ => false

/-- After start() has answered Ok, and before stop() is called. -/
def serves : AppPc → Bool
  | .firstDeadline | .receive _ | .receiving _ | .checkSummary | .delay | .stop => true
  | _ => false

/-- On the way out. -/
def leaves : AppPc → Bool
  | .stopping | .disable _ _ => true
  | _ => false

variable {period : BitVec 32} {locals locals' : Locals} {pc : AppPc} {event : Event}
  {control : Control AppPc Unit}

theorem serves_batch (batchIndex : ℕ) :
    (batch batchIndex).serves = true ∧ batch batchIndex ≠ .stop := by
  rcases batch_cases batchIndex with ⟨same, -⟩ | ⟨same, -⟩ <;> rw [same] <;> simp [serves]

/-- The loop is left only after a receive() that answers neither Ok nor Timeout. -/
theorem Steps.serving (serves : pc.serves = true)
    (steps : pc.Steps period locals event locals' control) :
    (∃ pc', control = .next pc' ∧ pc'.serves = true ∧ pc ≠ .stop ∧
      (pc' = .stop → ∃ batchIndex result frame, pc = .receiving batchIndex ∧
        event = .received result frame ∧ result ≠ .ok ∧ result ≠ .timeout)) ∨
    pc = .stop ∧ event = .entered ∧ control = .next .stopping := by
  cases steps with
  | failure batchIndex result frame failed late =>
    exact .inl ⟨_, rfl, rfl, by simp, fun _ => ⟨batchIndex, result, frame, rfl, rfl, failed, late⟩⟩
  | count batchIndex frame =>
    obtain ⟨stays, notStop⟩ := serves_batch (batchIndex + 1)
    exact .inl ⟨_, rfl, stays, by simp, fun stop => absurd stop notStop⟩
  | stop => exact .inr ⟨rfl, rfl, rfl⟩
  | initializing | initialized | start | started | notStarted | stopped | disabling | disabled =>
    cases serves
  | _ => exact .inl ⟨_, rfl, rfl, by simp, by simp⟩

theorem Steps.leaving (leaves : pc.leaves = true)
    (steps : pc.Steps period locals event locals' control) :
    ∀ pc' ∈ control.pc?, pc'.leaves = true := by
  cases steps with
  | stopped result => simp [AppPc.leaves]
  | disabling inside => simp [AppPc.leaves]
  | disabled inside => simp
  | _ => cases leaves

end AppPc

namespace Bench

variable {w tickRate : ℕ} {s t : Bench w} {k : Choice} {ks : List Choice}
  {failed : List CanBus.TaskEnv} {made : List (CanBus.TaskPc w)}

/-- The bus stands still, or it makes a step that keeps its contract. -/
theorem Linked.bus_cases (h : s.Linked) (step : s.next tickRate k = some t) :
    s.busMove? k = none ∧ t.bus = s.bus ∨
      ∃ k', s.busMove? k = some k' ∧ s.bus.apart k' = true ∧ s.bus.next k' = some t.bus := by
  have moved := h.step_bus step
  cases asks : s.busMove? k with
  | none => exact .inl ⟨rfl, next_rests step asks⟩
  | some k' =>
    rw [asks] at moved
    obtain ⟨bus, moved, rest⟩ := exec_cons_eq_some.mp moved
    obtain rfl := Option.some.inj rest
    obtain ⟨allowed, moved⟩ := guarded_eq_some.mp moved
    exact .inr ⟨k', rfl, allowed, moved⟩

/-- receive() is called only where no other call is at work. -/
theorem Linked.receiving (h : s.Linked) {k' : CanBus.Choice} (step : s.next tickRate k = some t)
    (asks : s.busMove? k = some k') (allowed : s.bus.apart k' = true) :
    s.bus.receiving k' = true := by
  simp only [CanBus.System.apart, Bool.and_eq_true] at allowed
  obtain ⟨⟨serial, -⟩, allowed⟩ := allowed
  cases k' with
  | call i ok =>
    cases found : s.bus.calls[i]? with
    | none => simp [CanBus.System.receiving, serial, found]
    | some pc =>
      simp only [found, Option.any_some, Bool.or_eq_true, Bool.not_eq_true'] at allowed
      simp only [CanBus.System.receiving, serial, found, Bool.true_and, Bool.or_eq_true,
        Bool.not_eq_true', Bool.and_eq_true, decide_eq_true_eq]
      cases reserves : pc.reserves s.bus.shared.lifecycle with
      | false => exact .inl rfl
      | true => exact .inr ⟨h.apart.unowned reserves, allowed.resolve_left (by simp [reserves])⟩
  | beginReceive timeoutMs =>
    obtain ⟨offered, -⟩ := next_eq_some step
    cases k with
    | enter =>
      rcases h.enters asks with ⟨-, -, same⟩ | ⟨free, -, -⟩
      · cases same
      · simp [CanBus.System.receiving, serial, free]
    | bus k =>
      obtain rfl := Option.some.inj asks
      cases offered
    | _ => cases asks
  | _ => simp [CanBus.System.receiving, serial]

/-- What the bus keeps over the whole run. -/
structure Kept (s : Bench w) : Prop where
  linked : s.Linked
  asking : s.bus.Asking
  provided : s.bus.Provided
  settling : s.bus.Settling

theorem Kept.initial : ({} : Bench w).Kept where
  linked := .initial
  asking := CanBus.System.exec_asking (exec_nil _)
  provided := CanBus.System.exec_provided (exec_nil _)
  settling := by
    intro pc mem
    cases mem

theorem Kept.next (h : s.Kept) (step : s.next tickRate k = some t) : t.Kept := by
  have linked := h.linked.next step
  rcases h.linked.bus_cases step with ⟨-, same⟩ | ⟨k', asks, allowed, moved⟩
  · refine ⟨linked, ?_, ?_, ?_⟩ <;> rw [same]
    · exact h.asking
    · exact h.provided
    · exact h.settling
  · have receiving := h.linked.receiving step asks allowed
    have serial : s.bus.serialized k' = true := by
      simp only [CanBus.System.receiving, Bool.and_eq_true] at receiving
      exact receiving.1
    exact ⟨linked, h.asking.next (CanBus.System.oneTask_of_receiving receiving) moved,
      h.provided.next serial moved, (h.settling.next moved).1⟩

/-! ### The stages of a run -/

/-- The acquisition goes on, and app_main has not called stop(). -/
structure Serving (failed : List CanBus.TaskEnv) (s : Bench w) : Prop where
  created : s.Created
  acquiring : ∃ stamped accepted returned, s.bus.Acquiring stamped accepted returned
  terminal : s.bus.Terminal failed
  serves : ∃ pc, s.app.pc = some pc ∧ (pc = .starting ∨ pc.serves = true)
  stops : s.app.pc = some .stop → s.bus.shared.lifecycle.state = .faulted

/-- app_main returns and leaves a bus that does not run. Without a failure of the driver no task
has been created. -/
structure Leaving (failed : List CanBus.TaskEnv) (made : List (CanBus.TaskPc w)) (s : Bench w) :
    Prop where
  halted : s.bus.Halted
  leaves : ∀ pc ∈ s.app.pc, pc.leaves = true
  taskless : failed = [] → made = []

inductive Course (failed : List CanBus.TaskEnv) (made : List (CanBus.TaskPc w)) (s : Bench w) :
    Prop
  | booting (early : s.Unstarted) (quiet : failed = []) (taskless : made = [])
    (boots : ∃ pc, s.app.pc = some pc ∧ pc.boots = true)
  | serving (serving : s.Serving failed)
  | leaving (leaving : s.Leaving failed made)

theorem onBus_createdTasks (step : s.next tickRate k = some t) (none : t.bus.tasks = []) :
    onBus CanBus.System.createdTasks s k = [] := by
  cases asks : s.busMove? k with
  | none => rw [onBus, asks, Option.map_none, Option.getD_none]
  | some k' =>
    rw [onBus, asks, Option.map_some, Option.getD_some]
    exact CanBus.System.createdTasks_eq_nil (next_moves step asks) none

theorem later_failures : Later (CanBus.System.failures (w := w)) := by
  intro bus k tasks idle
  cases k <;> first | rfl | simp [CanBus.System.failures, tasks]

/-- Only stop() can still be at work. -/
theorem Leaving.stops (h : s.Leaving failed made) (linked : s.Linked) :
    ∀ pc ∈ s.bus.calls, ∃ inner, pc = .stop inner := by
  have stands := linked.stands
  have leaves := h.leaves
  generalize s.app.pc = at_pc at stands leaves
  cases stands with
  | stopping inside idle =>
    intro pc mem
    rw [inside] at mem
    exact ⟨_, List.mem_singleton.mp mem⟩
  | outside other free idle => simp [free]
  | before fresh early => simp [fresh]
  | starting inside idle granted => simp [AppPc.leaves] at leaves
  | receiving batchIndex pc inside free => simp [AppPc.leaves] at leaves

theorem Leaving.next (h : s.Leaving failed made) (kept : s.Kept)
    (step : s.next tickRate k = some t) (more : List CanBus.TaskEnv) :
    t.Leaving (failed ++ more) (made ++ onBus CanBus.System.createdTasks s k) := by
  obtain ⟨halted, none⟩ : t.bus.Halted ∧ onBus CanBus.System.createdTasks s k = [] := by
    rcases kept.linked.bus_cases step with ⟨rests, same⟩ | ⟨k', asks, allowed, moved⟩
    · rw [same, onBus, rests]
      exact ⟨h.halted, rfl⟩
    · rw [onBus, asks, Option.map_some, Option.getD_some]
      refine ⟨h.halted.next ?_ moved, ?_⟩
      · simp only [CanBus.System.withinAcquisition, allowed, Bool.true_and]
        cases k' with
        | call i ok =>
          obtain ⟨pc, -, -, found, -, -⟩ := CanBus.System.next_call moved
          obtain ⟨inner, rfl⟩ := h.stops kept.linked pc (List.mem_of_getElem? found)
          simp only [found]
          rfl
        | _ => rfl
      · cases k' with
        | call i ok =>
          obtain ⟨pc, -, -, found, -, -⟩ := CanBus.System.next_call moved
          obtain ⟨inner, rfl⟩ := h.stops kept.linked pc (List.mem_of_getElem? found)
          rw [CanBus.System.createdTasks, found]
          rfl
        | _ => rfl
  refine ⟨halted, ?_, fun quiet => ?_⟩
  case refine_2 =>
    rw [none, List.append_nil]
    exact h.taskless (List.append_eq_nil_iff.mp quiet).1
  cases hears : s.event? k with
  | none =>
    rw [next_unheard step hears]
    exact h.leaves
  | some event =>
    obtain ⟨pc, control, at_pc, inside, left⟩ := App.next_step (next_hears step hears)
    rw [left]
    exact (AppPc.step_cases inside).leaving (h.leaves pc at_pc)

/-- start() fails. -/
theorem leaving_of_notStarted (kept : s.Kept) {ok : Bool} {result : CanBus.Result}
    (at_pc : s.app.pc = some .starting) (step : s.next tickRate (.call ok) = some t)
    (returned : s.bus.returned (.call 0 ok) = some result) (notOk : result ≠ .ok)
    (taskless : made = []) : t.Leaving failed made := by
  have moved := next_moves step rfl
  have hears : s.event? (.call ok) = some (.started result) := by
    simp only [event?, returned, at_pc]
    rfl
  have stands := kept.linked.stands
  rw [at_pc] at stands
  refine ⟨⟨(kept.next step).settling, ?_⟩, ?_, fun _ => taskless⟩
  · cases stands with
    | before fresh early => simp at early
    | outside other free idle =>
      obtain ⟨pc, -, -, found, -, -⟩ := CanBus.System.next_call moved
      simp [free] at found
    | starting inside idle granted =>
      rename_i pc
      obtain ⟨shared, control, hstep, after⟩ := CanBus.System.next_call_single inside moved
      obtain ⟨inner, within, rfl⟩ := CanBus.CallPc.step_start hstep
      have member : .start configuration pc ∈ s.bus.calls := by
        rw [inside]
        exact List.mem_singleton_self _
      have ended : inner = .ret result := by
        simp only [CanBus.System.returned, inside, List.getElem?_cons_zero, Option.bind_some,
          hstep] at returned
        cases inner with
        | next pc' => cases returned
        | ret result' => exact congrArg _ (Option.some.inj returned)
      subst ended
      rw [after]
      exact CanBus.StartPc.step_failed rfl granted
        (kept.linked.apart.preparing.outlined.outline member).2 (kept.settling _ member) within
        notOk
  · obtain ⟨pc, control, at_pc', inside, left⟩ := App.next_step (next_hears step hears)
    obtain rfl := Option.some.inj (at_pc.symm.trans at_pc')
    have steps := AppPc.step_cases inside
    generalize t.app.locals = locals' at steps
    rw [left]
    cases steps with
    | started => exact absurd rfl notOk
    | notStarted failed => simp [AppPc.leaves]

/-- What app_main is told of a receive() is what the receive() returns. -/
theorem received_of_event {result : CanBus.Result} {frame : RawCanFrame}
    (hears : s.event? k = some (.received result frame)) :
    ∃ granted, k = .receive granted ∧
      ∃ frame', s.bus.received (.consumer granted) = some (result, frame') := by
  cases k with
  | receive granted =>
    obtain ⟨value, received, same⟩ := Option.map_eq_some_iff.mp hears
    obtain ⟨rfl, -⟩ := Event.received.inj same
    exact ⟨granted, rfl, value.2, received⟩
  | call ok =>
    obtain ⟨value, -, same⟩ := Option.map_eq_some_iff.mp hears
    unfold answer at same
    split at same <;> cases same
  | _ => cases hears

theorem enters_stop (hears : s.event? k = some .entered) (at_pc : s.app.pc = some .stop) :
    s.busMove? k = some .beginStop := by
  cases k with
  | enter =>
    rw [busMove?, at_pc]
    rfl
  | call ok =>
    obtain ⟨value, -, same⟩ := Option.map_eq_some_iff.mp hears
    unfold answer at same
    split at same <;> cases same
  | receive granted =>
    obtain ⟨value, -, same⟩ := Option.map_eq_some_iff.mp hears
    cases same
  | _ => cases hears

/-- receive() answers with a frame or a timeout, or the bus is Faulted. -/
theorem Serving.answers (small : CanBus.queueCapacity < 2 ^ w)
    (divides : CanBus.queueCapacity ∣ 2 ^ w) (h : s.Serving failed) {granted : Bool}
    {result : CanBus.Result} {frame : Option RawCanFrame} {bus : CanBus.System w}
    (received : s.bus.received (.consumer granted) = some (result, frame))
    (moved : s.bus.next (.consumer granted) = some bus) :
    result = .ok ∨ result = .timeout ∨
      result = .faulted ∧ s.bus.shared.lifecycle.state = .faulted := by
  obtain ⟨stamped, accepted, returned, acquiring⟩ := h.acquiring
  have blameless : result ≠ .driverFailure :=
    (acquiring.next small divides rfl moved).2 (result, frame) received
  obtain ⟨pc, shared, control, found, inside, -⟩ := CanBus.System.next_consumer moved
  have ended : control.value? = some (result, frame) := by
    simpa only [CanBus.System.received, found, Option.bind_some, inside] using received
  cases control with
  | next pc' => cases ended
  | ret value =>
    obtain rfl := Option.some.inj ended
    obtain ⟨task, -, feed⟩ := acquiring.feed
    rcases CanBus.ReceivePc.step_answers feed.active inside with ok | timeout | failed | faulted
    · exact .inl ok
    · exact .inr (.inl timeout)
    · exact absurd failed blameless
    · exact .inr (.inr faulted)

theorem Serving.next (small : CanBus.queueCapacity < 2 ^ w)
    (divides : CanBus.queueCapacity ∣ 2 ^ w) (h : s.Serving failed) (kept : s.Kept)
    (step : s.next tickRate k = some t) :
    t.Serving (failed ++ onBus CanBus.System.failures s k) ∨ t.Leaving failed made := by
  obtain ⟨pc, at_pc, serves⟩ := h.serves
  by_cases stopping : s.busMove? k = some .beginStop
  · -- app_main calls stop(), which it does only with a Faulted bus
    right
    obtain ⟨offered, -⟩ := next_eq_some step
    have entering : k = .enter ∧ pc = .stop := by
      cases k with
      | enter =>
        rcases kept.linked.enters stopping with
          ⟨-, -, same⟩ | ⟨-, -, ⟨batchIndex, -, same⟩ | ⟨same, -⟩⟩
        · cases same
        · cases same
        · exact ⟨rfl, Option.some.inj (at_pc.symm.trans same)⟩
      | bus k =>
        obtain rfl := Option.some.inj stopping
        cases offered
      | _ => cases stopping
    obtain ⟨rfl, rfl⟩ := entering
    have moved := next_moves step stopping
    obtain after := Option.some.inj moved
    have faulted := h.stops at_pc
    refine ⟨⟨(kept.next step).settling, ?_⟩, ?_, ?_⟩
    · rw [← after]
      show s.bus.shared.lifecycle.state ≠ .running
      simp [faulted]
    · obtain ⟨pc, control, at_pc', inside, left⟩ := App.next_step (next_hears step rfl)
      obtain rfl := Option.some.inj (at_pc.symm.trans at_pc')
      have steps := AppPc.step_cases inside
      generalize t.app.locals = locals' at steps
      cases steps
      rw [left]
      simp [AppPc.leaves]
    · intro none
      cases faulted.symm.trans (h.terminal.healthy none).1
  · left
    have created := (h.created.next kept.linked step).1
    have bus : (∃ stamped accepted returned, t.bus.Acquiring stamped accepted returned) ∧
        t.bus.Terminal (failed ++ onBus CanBus.System.failures s k) := by
      rcases kept.linked.bus_cases step with ⟨rests, same⟩ | ⟨k', asks, allowed, moved⟩
      · rw [same, onBus, rests]
        refine ⟨h.acquiring, ?_⟩
        rw [Option.map_none, Option.getD_none, List.append_nil]
        exact h.terminal
      · have receiving := kept.linked.receiving step asks allowed
        have oneTask := CanBus.System.oneTask_of_receiving receiving
        have goesOn : k' ≠ .beginStop := by
          rintro rfl
          exact stopping asks
        obtain ⟨stamped, accepted, returned, acquiring⟩ := h.acquiring
        rw [onBus, asks, Option.map_some, Option.getD_some]
        refine ⟨⟨_, _, _, (acquiring.next small divides ?_ moved).1⟩, h.terminal.next ?_ moved⟩
        · simp only [CanBus.System.withinRun, receiving, Bool.true_and]
        · simp only [CanBus.System.unstopped, oneTask, Bool.true_and]
    -- a bus that is Faulted stays so
    have stays (faulted : s.bus.shared.lifecycle.state = .faulted) :
        t.bus.shared.lifecycle.state = .faulted := by
      have halted : s.bus.Halted := ⟨kept.settling, by simp [faulted]⟩
      have after : t.bus.Halted := by
        refine exec_invariant (P := CanBus.System.Halted) ?_
          (h.created.next kept.linked step).2 halted
        intro s k t halted step
        obtain ⟨within, step⟩ := guarded_eq_some.mp step
        exact halted.next within step
      exact bus.2.manned.active.resolve_left after.state
    cases hears : s.event? k with
    | none =>
      have same := next_unheard step hears
      refine ⟨created, bus.1, bus.2, ?_, ?_⟩ <;> rw [same]
      · exact h.serves
      · exact fun at_stop => stays (h.stops at_stop)
    | some event =>
      obtain ⟨pc', control, at_pc', inside, left⟩ := App.next_step (next_hears step hears)
      obtain rfl := Option.some.inj (at_pc.symm.trans at_pc')
      have steps := AppPc.step_cases inside
      have past := created.past
      rw [left] at past
      refine ⟨created, bus.1, bus.2, ?_, ?_⟩ <;> rw [left]
      · rcases serves with rfl | serves
        · generalize t.app.locals = locals' at steps
          cases steps with
          | started => exact ⟨_, rfl, .inr rfl⟩
          | notStarted failed => simp [AppPc.beforeLoop] at past
        · rcases steps.serving serves with ⟨pc', rfl, serves', -⟩ | ⟨rfl, rfl, -⟩
          · exact ⟨pc', rfl, .inr serves'⟩
          · exact absurd (enters_stop hears at_pc) stopping
      · intro at_stop
        rcases serves with rfl | serves
        · generalize t.app.locals = locals' at steps
          cases steps <;> cases at_stop
        · rcases steps.serving serves with ⟨pc', rfl, -, -, fails⟩ | ⟨rfl, rfl, -⟩
          · obtain ⟨batchIndex, result, frame, -, rfl, failed, late⟩ :=
              fails (Option.some.inj at_stop)
            obtain ⟨granted, rfl, frame', received⟩ := received_of_event hears
            rcases h.answers small divides received (next_moves step rfl) with
              ok | timeout | ⟨-, faulted⟩
            · exact absurd ok failed
            · exact absurd timeout late
            · exact stays faulted
          · exact absurd (enters_stop hears at_pc) stopping

/-- The task that start() creates serves app_main. -/
theorem serving_of_creates (kept : s.Kept) (creates : s.creates k)
    (step : s.next tickRate k = some t) : t.Serving [] := by
  obtain ⟨rfl, at_pc, same, created, begins⟩ := Created.of_creates kept.linked creates step
  have moved := next_moves step rfl
  refine ⟨created, ⟨[], [], [], kept.linked.apart.preparing.acquiring begins.creating moved⟩,
    kept.asking.terminal kept.provided begins.creating moved, ⟨_, same ▸ at_pc, .inl rfl⟩, ?_⟩
  intro at_stop
  rw [same, at_pc] at at_stop
  cases at_stop

theorem rests_of_gpio {done : Bool} (hears : s.event? k = some (.gpio done))
    (step : s.next tickRate k = some t) : t.bus = s.bus := by
  cases k with
  | gpio ok => exact next_rests step rfl
  | call ok =>
    obtain ⟨value, -, same⟩ := Option.map_eq_some_iff.mp hears
    unfold answer at same
    split at same <;> cases same
  | receive granted =>
    obtain ⟨value, -, same⟩ := Option.map_eq_some_iff.mp hears
    cases same
  | _ => cases hears

/-- The bus is not touched before the board is set up. -/
theorem Linked.fresh (h : s.Linked) {pc : InitializePc}
    (at_pc : s.app.pc = some (.initializing pc)) :
    s.bus = {} := by
  have stands := h.stands
  rw [at_pc] at stands
  cases stands with
  | before fresh early => exact fresh
  | outside other free idle => simp [AppPc.beforeLoop] at other

/-- Up to the creation of the task app_main boots, or it gives up. -/
theorem Unstarted.booting_next (early : s.Unstarted) (kept : s.Kept)
    (boots : ∃ pc, s.app.pc = some pc ∧ pc.boots = true) (step : s.next tickRate k = some t) :
    s.creates k ∨ t.Unstarted ∧
      ((∃ pc, t.app.pc = some pc ∧ pc.boots = true) ∨ t.Leaving [] ([] : List (CanBus.TaskPc w))) := by
  rcases early.next kept.linked step with creates | early'
  · exact .inl creates
  · refine .inr ⟨early', ?_⟩
    obtain ⟨pc, at_pc, boots⟩ := boots
    cases hears : s.event? k with
    | none => exact .inl ⟨pc, (next_unheard step hears) ▸ at_pc, boots⟩
    | some event =>
      obtain ⟨pc', control, at_pc', inside, left⟩ := App.next_step (next_hears step hears)
      obtain rfl := Option.some.inj (at_pc.symm.trans at_pc')
      have steps := AppPc.step_cases inside
      have ahead := early'.early
      rw [left] at ahead
      clear inside
      generalize t.app.locals = locals' at steps
      cases steps with
      | initializing inside => exact .inl ⟨_, left, rfl⟩
      | start => exact .inl ⟨_, left, rfl⟩
      | initialized inside =>
        rename_i ready
        cases ready with
        | true => exact .inl ⟨_, left, rfl⟩
        | false =>
          refine .inr ⟨⟨(kept.next step).settling, ?_⟩, by simp [left], fun _ => rfl⟩
          rw [rests_of_gpio hears step, kept.linked.fresh at_pc]
          simp
      | started => simp at ahead
      | notStarted failed =>
        right
        cases k with
        | call ok =>
          obtain ⟨result', returned, same⟩ := Option.map_eq_some_iff.mp hears
          rw [at_pc] at same
          obtain rfl := Event.started.inj same
          exact leaving_of_notStarted kept at_pc step returned failed rfl
        | receive granted =>
          obtain ⟨value, -, same⟩ := Option.map_eq_some_iff.mp hears
          cases same
        | _ => cases hears
      | _ => cases boots

theorem Course.next (small : CanBus.queueCapacity < 2 ^ w)
    (divides : CanBus.queueCapacity ∣ 2 ^ w) (h : s.Course failed made) (kept : s.Kept)
    (step : s.next tickRate k = some t) :
    t.Course (failed ++ onBus CanBus.System.failures s k)
      (made ++ onBus CanBus.System.createdTasks s k) := by
  cases h with
  | booting early quiet taskless boots =>
    have silent : onBus CanBus.System.failures s k = [] := by
      unfold onBus
      cases s.busMove? k with
      | none => rfl
      | some k' => exact later_failures s.bus k' early.tasks (kept.linked.consumer early)
    rw [quiet, silent, taskless]
    rcases early.booting_next kept boots step with creates | ⟨early', boots' | leaving⟩
    · exact .serving (serving_of_creates kept creates step)
    · exact .booting early' rfl (onBus_createdTasks step early'.tasks) boots'
    · rw [onBus_createdTasks step early'.tasks]
      exact .leaving leaving
  | serving serving =>
    have goesOn : t.Serving (failed ++ onBus CanBus.System.failures s k) ∨
        t.Leaving failed (made ++ onBus CanBus.System.createdTasks s k) :=
      serving.next small divides kept step
    rcases goesOn with serving' | leaving
    · exact .serving serving'
    · refine .leaving ⟨leaving.halted, leaving.leaves, fun none => ?_⟩
      exact leaving.taskless (List.append_eq_nil_iff.mp none).1
  | leaving leaving => exact .leaving (leaving.next kept step _)

/-! ### The end -/

/-- What app_main logs at the step. -/
def logged (s : Bench w) (k : Choice) : List Log := ((s.event? k).map s.app.logs).getD []

end Bench

/-- A receive failure is logged where receive() has failed. -/
theorem App.receiving_of_logs {s : App} {event : Event} {result : CanBus.Result}
    (logs : .receiveFailure result ∈ s.logs event) :
    ∃ frame, event = .received result frame ∧ (∃ batchIndex, s.pc = some (.receiving batchIndex)) ∧
      result ≠ .ok ∧ result ≠ .timeout := by
  cases at_pc : s.pc with
  | none => simp [App.logs, at_pc] at logs
  | some pc =>
    simp only [App.logs, at_pc, Option.map_some, Option.getD_some] at logs
    cases pc with
    | receiving batchIndex =>
      cases event with
      | received result' frame =>
        simp only [AppPc.logs] at logs
        split_ifs at logs with late failed first
        · cases logs
        · obtain rfl := Log.receiveFailure.inj (List.mem_singleton.mp logs)
          exact ⟨frame, rfl, ⟨batchIndex, rfl⟩, failed, late⟩
        · cases List.mem_singleton.mp logs
        · cases logs
      | _ => cases logs
    | initializing pc =>
      cases event with
      | gpio done =>
        simp only [AppPc.logs] at logs
        split at logs <;> simp at logs
      | _ => cases logs
    | disable pc started =>
      cases event with
      | gpio done =>
        simp only [AppPc.logs] at logs
        split at logs
        · cases started <;> simp at logs
        · cases logs
      | _ => cases logs
    | starting =>
      cases event with
      | started result =>
        simp only [AppPc.logs] at logs
        split at logs <;> simp at logs
      | _ => cases logs
    | checkSummary =>
      cases event with
      | ticks now =>
        simp only [AppPc.logs] at logs
        split at logs <;> simp at logs
      | _ => cases logs
    | stopping =>
      cases event with
      | stopped result =>
        simp only [AppPc.logs] at logs
        split at logs <;> simp at logs
      | _ => cases logs
    | _ => cases event <;> cases logs

namespace Bench

variable {w tickRate : ℕ} {s t : Bench w} {k : Choice} {ks : List Choice}
  {failed : List CanBus.TaskEnv} {made : List (CanBus.TaskPc w)}

/-- A failure of receive() is logged only for a Faulted bus. -/
theorem Course.faulted_of_logged (small : CanBus.queueCapacity < 2 ^ w)
    (divides : CanBus.queueCapacity ∣ 2 ^ w) (h : s.Course failed made)
    (step : s.next tickRate k = some t) {result : CanBus.Result}
    (logs : .receiveFailure result ∈ s.logged k) : result = .faulted ∧ failed ≠ [] := by
  unfold logged at logs
  cases hears : s.event? k with
  | none =>
    rw [hears] at logs
    cases logs
  | some event =>
    rw [hears, Option.map_some, Option.getD_some] at logs
    obtain ⟨frame, rfl, ⟨batchIndex, at_pc⟩, notOk, late⟩ := App.receiving_of_logs logs
    obtain ⟨granted, rfl, frame', received⟩ := received_of_event hears
    cases h with
    | booting early quiet taskless boots =>
      obtain ⟨pc, at_pc', boots⟩ := boots
      obtain rfl := Option.some.inj (at_pc'.symm.trans at_pc)
      cases boots
    | leaving leaving => cases leaving.leaves _ at_pc
    | serving serving =>
      rcases serving.answers small divides received (next_moves step rfl) with
        ok | timeout | ⟨faulted, state⟩
      · exact absurd ok notOk
      · exact absurd timeout late
      · refine ⟨faulted, ?_⟩
        intro none
        cases state.symm.trans (serving.terminal.healthy none).1

/-- In every run of the bench receiver, app_main logs a failure of receive() only for a bus that
is Faulted, and only after a driver call of the receive task has failed or has reported
bus-off. Once app_main has returned, no call of can_bus is in progress and the bus is not
Running, whatever has failed; and if no call of the task has, no step has created a task. -/
theorem stops_on_failure (wide : 6 < w)
    (run : exec (Bench.next tickRate) ({} : Bench w) ks = some s) :
    let failed := trace (Bench.next tickRate) (onBus CanBus.System.failures) ({} : Bench w) ks
    (∀ result, .receiveFailure result ∈ trace (Bench.next tickRate) logged ({} : Bench w) ks →
      result = .faulted ∧ failed ≠ []) ∧
      (s.app.pc = none → s.bus.calls = [] ∧ s.bus.consumer = none ∧
        s.bus.shared.lifecycle.state ≠ .running ∧
        (failed = [] → trace (Bench.next tickRate) (onBus CanBus.System.createdTasks)
          ({} : Bench w) ks = [])) := by
  intro failed
  have small : CanBus.queueCapacity < 2 ^ w := Nat.pow_lt_pow_right Nat.one_lt_two wide
  have divides : CanBus.queueCapacity ∣ 2 ^ w :=
    (Nat.pow_dvd_pow_iff_le_right Nat.one_lt_two).mpr wide.le
  obtain ⟨kept, course, logged⟩ : s.Kept ∧
      s.Course failed (trace (Bench.next tickRate) (onBus CanBus.System.createdTasks) {} ks) ∧
      ∀ result, .receiveFailure result ∈ trace (Bench.next tickRate) logged ({} : Bench w) ks →
        result = .faulted ∧ failed ≠ [] := by
    refine exec_history (P := fun ks (s : Bench w) => s.Kept ∧
      s.Course (trace (Bench.next tickRate) (onBus CanBus.System.failures) {} ks)
        (trace (Bench.next tickRate) (onBus CanBus.System.createdTasks) {} ks) ∧
      ∀ result, .receiveFailure result ∈ trace (Bench.next tickRate) logged {} ks →
        result = .faulted ∧
          trace (Bench.next tickRate) (onBus CanBus.System.failures) {} ks ≠ []) ?_ ?_ run
    · exact ⟨.initial, .booting .initial rfl rfl ⟨_, rfl, rfl⟩, by simp [trace]⟩
    · rintro ks s k t run ⟨kept, course, logged⟩ step
      rw [trace_concat run, trace_concat run, trace_concat run]
      refine ⟨kept.next step, course.next small divides kept step, ?_⟩
      intro result mem
      have earlier : result = .faulted ∧
          trace (Bench.next tickRate) (onBus CanBus.System.failures) ({} : Bench w) ks ≠ [] := by
        rcases List.mem_append.mp mem with old | new
        · exact logged result old
        · exact course.faulted_of_logged small divides step new
      exact ⟨earlier.1, fun none => earlier.2 (List.append_eq_nil_iff.mp none).1⟩
  refine ⟨logged, ?_⟩
  intro returned
  obtain ⟨free, idle⟩ : s.bus.calls = [] ∧ s.bus.consumer = none := by
    have stands := kept.linked.stands
    rw [returned] at stands
    cases stands with
    | outside other free idle => exact ⟨free, idle⟩
  cases course with
  | booting early quiet taskless boots =>
    obtain ⟨pc, at_pc, -⟩ := boots
    cases returned.symm.trans at_pc
  | serving serving =>
    obtain ⟨pc, at_pc, -⟩ := serving.serves
    cases returned.symm.trans at_pc
  | leaving leaving => exact ⟨free, idle, leaving.halted.state, leaving.taskless⟩

/-- The driver's receive call fails; app_main is told so, stops the bus and returns. -/
def failedRun : List Choice :=
  List.replicate 17 (.gpio true) ++ .enter :: List.replicate 36 (.call true) ++
    [.ticks 0, .bus (.task 0 {}), .bus (.task 0 { received := .failed })] ++
    List.replicate 6 (.bus (.task 0 {})) ++ [.enter, .receive true, .enter] ++
    List.replicate 16 (.call true) ++ List.replicate 3 (.gpio true)

theorem stops_on_failure_latched :
    let s := final (Bench.next 100) ({} : Bench 32) failedRun
    trace (Bench.next 100) (onBus CanBus.System.failures) ({} : Bench 32) failedRun ≠ [] ∧
      s.app.pc = none ∧ s.bus.shared.lifecycle.state ≠ .running := by
  intro s
  have run : exec (Bench.next 100) ({} : Bench 32) failedRun = some s :=
    exec_eq_final _ _ failedRun (by decide)
  have logs :
      .receiveFailure .faulted ∈ trace (Bench.next 100) logged ({} : Bench 32) failedRun := by
    decide
  have returned : s.app.pc = none := by decide
  obtain ⟨cause, leaves⟩ := stops_on_failure (by decide) run
  exact ⟨(cause .faulted logs).2, returned, (leaves returned).2.2.1⟩

end Bench

end Tcan485Bench

end CanTelemetry
