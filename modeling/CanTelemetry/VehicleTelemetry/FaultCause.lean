import CanTelemetry.VehicleTelemetry.Backlog

/-! Where a fault of the worker comes from. Until a stop() enters the bus, receive() answers
with a frame or a timeout, or with a fault that the bus's task has latched; it is never told
that the bus is not started, and never finds the ring empty after it has taken a token. So a
worker that stores Faulted has got a fault from the processor, or the bus is Faulted. -/

namespace CanTelemetry

open Execution Threads VehicleCore

/-! ### The answers of receive() -/

/-- While the bus is Running or Faulted, receive() refuses only a Faulted one. -/
theorem CanBus.ReceivePc.step_answers {w : ℕ} {sh sh' : CanBus.Shared w} {granted : Bool}
    {pc : CanBus.ReceivePc w} {value : CanBus.Result × Option RawCanFrame}
    (active : sh.lifecycle.state = .running ∨ sh.lifecycle.state = .faulted)
    (step : pc.step sh granted = some (sh', .ret value)) :
    value.1 = .ok ∨ value.1 = .timeout ∨ value.1 = .driverFailure ∨
      value.1 = .faulted ∧ sh.lifecycle.state = .faulted := by
  cases pc with
  | checkState timeoutMs =>
    have same := (Prod.mk.inj (Option.some.inj step)).2
    rcases active with state | state <;>
      simp [CanBus.refuseOr, CanBus.receiveRefusal, state] at same
    subst same
    exact .inr (.inr (.inr ⟨rfl, state⟩))
  | take timeoutMs =>
    simp only [CanBus.ReceivePc.step] at step
    split at step
    · rcases CanBus.takeNow_eq_some step with ⟨s, s', -, -, same⟩ | ⟨s, -, -, same⟩ <;>
        cases (Prod.mk.inj same).2
    · rcases CanBus.takeWithin_eq_some step with ⟨s, s', -, -, -, same⟩ | ⟨-, same⟩ <;>
        cases (Prod.mk.inj same).2
  | checkAfterTimeout =>
    have same := (Prod.mk.inj (Option.some.inj step)).2
    rcases active with state | state <;>
      simp [CanBus.refuseOr, CanBus.receiveRefusal, state] at same <;> subst same
    · exact .inr (.inl rfl)
    · exact .inr (.inr (.inr ⟨rfl, state⟩))
  | checkAfterTake =>
    have same := (Prod.mk.inj (Option.some.inj step)).2
    rcases active with state | state <;>
      simp [CanBus.refuseOr, CanBus.receiveRefusal, state] at same
    subst same
    exact .inr (.inr (.inr ⟨rfl, state⟩))
  | pop pc =>
    have same := (Prod.mk.inj (Option.some.inj step)).2
    generalize (pc.step sh.frames).2 = control at same
    cases control with
    | next pc' => cases same
    | ret frame =>
      obtain rfl := Control.ret.inj same
      cases frame with
      | none => exact .inr (.inr (.inl rfl))
      | some frame => exact .inl rfl

/-- The status that the worker's pass has got from receive(). -/
def VehicleTelemetry.WorkerPc.status? : VehicleTelemetry.WorkerPc →
    Option VehicleTelemetry.ReceiveStatus
  | .sampleTime status _ => some status
  | .recheck pass | .process pass | .sample pass | .update pass _ _ | .onFrameProcessed pass _
  | .onDiagnostics pass _ => some pass.status
  | _ => none

/-- A pass keeps its status. -/
theorem VehicleTelemetry.WorkerPc.step_status {platform : VehicleTelemetry.Platform}
    {answers : VehicleTelemetry.Answers} {sh : VehicleTelemetry.Shared}
    {pc pc' : VehicleTelemetry.WorkerPc} {status : VehicleTelemetry.ReceiveStatus}
    (live : pc' ∈ (pc.step platform answers sh).2.live) (has : pc'.status? = some status) :
    pc.status? = some status ∨ pc = .receive ∧ status = answers.received := by
  cases pc with
  | receive =>
    obtain rfl := List.mem_singleton.mp live
    exact .inr ⟨rfl, (Option.some.inj has).symm⟩
  | loopTest =>
    obtain rfl := List.mem_singleton.mp live
    split at has
    · cases platform <;> cases has
    · cases has
  | recheck pass =>
    obtain rfl := List.mem_singleton.mp live
    split at has
    · cases platform <;> cases has
    · split at has <;> exact .inl has
  | update pass statistics timeoutNow =>
    obtain rfl := List.mem_singleton.mp live
    split at has <;> exact .inl has
  | onDiagnostics pass snapshot =>
    obtain rfl := List.mem_singleton.mp live
    split at has <;> cases has
  | clearActive => cases live
  | _ =>
    obtain rfl := List.mem_singleton.mp live
    exact .inl has

namespace CanBusSource.Pipeline

variable {w : ℕ} {platform : VehicleTelemetry.Platform} {configuration : CanBus.Configuration}
  {s t first : Pipeline w} {k : Choice} {ks ls : List Choice}
  {stamped accepted returned : List RawCanFrame}

/-- What has come out of receive() is a frame, a timeout, or the fault of a Faulted bus. -/
structure Caused (s : Pipeline w) : Prop where
  reception : ∀ value, s.reception = some (.returned value) →
    value.1 = .ok ∨ value.1 = .timeout ∨
      value.1 = .faulted ∧ s.bus.shared.lifecycle.state = .faulted
  workers : ∀ p ∈ s.runtime.workers, ∀ status, p.2.status? = some status →
    status = .frame ∨ status = .timeout ∨
      status = .fault ∧ s.bus.shared.lifecycle.state = .faulted

theorem Uninterrupted.active (h : s.Uninterrupted platform stamped accepted returned) :
    s.bus.shared.lifecycle.state = .running ∨ s.bus.shared.lifecycle.state = .faulted := by
  obtain ⟨task, -, feed⟩ := h.feed.feed
  exact feed.active

theorem Linked.halted (h : s.Linked platform) (halted : s.busView.Halted)
    (within : s.withinAcquisition k = true) (step : s.next platform configuration k = some t) :
    t.busView.Halted := by
  refine exec_invariant (P := CanBus.System.Halted) ?_ (h.step_acquisition within step) halted
  intro s k t halted step
  obtain ⟨within, step⟩ := guarded_eq_some.mp step
  exact halted.next within step

theorem Linked.settling (h : s.Linked platform) (settling : s.busView.Settling)
    (allowed : s.proper k = true) (step : s.next platform configuration k = some t) :
    t.busView.Settling := by
  refine exec_invariant (P := CanBus.System.Settling) ?_ (h.step_bus allowed step) settling
  intro s k t settling step
  exact (settling.next (guarded_eq_some.mp step).2).1

/-- receive() finds the ring as its token says. -/
theorem Uninterrupted.answers (small : CanBus.queueCapacity < 2 ^ w)
    (divides : CanBus.queueCapacity ∣ 2 ^ w)
    (h : s.Uninterrupted platform stamped accepted returned) {granted : Bool}
    {pc : CanBus.ReceivePc w} {shared : CanBus.Shared w} {value : CanBus.Result × Option RawCanFrame}
    (present : s.bus.consumer = some pc)
    (step : pc.step s.bus.shared granted = some (shared, .ret value)) :
    value.1 = .ok ∨ value.1 = .timeout ∨
      value.1 = .faulted ∧ s.bus.shared.lifecycle.state = .faulted := by
  have blameless : value.1 ≠ .driverFailure := by
    have at_pc : s.busView.consumer = some pc := present
    have inside : pc.step s.busView.shared granted = some (shared, .ret value) := step
    have moved : s.busView.next (.consumer granted) =
        some { s.busView with shared := shared, consumer := none } := by
      simp only [CanBus.System.next, at_pc, Option.bind_some, inside, Option.map_some]
      rfl
    have within : s.busView.withinRun (.consumer granted) = true := rfl
    refine (h.feed.next small divides within moved).2 value ?_
    simp only [CanBus.System.received, at_pc, Option.bind_some, inside]
    rfl
  rcases CanBus.ReceivePc.step_answers h.active step with ok | timeout | failed | faulted
  · exact .inl ok
  · exact .inr (.inl timeout)
  · exact absurd failed blameless
  · exact .inr (.inr faulted)

theorem Caused.next (small : CanBus.queueCapacity < 2 ^ w) (divides : CanBus.queueCapacity ∣ 2 ^ w)
    (h : s.Caused) (uninterrupted : s.Uninterrupted platform stamped accepted returned)
    (settling : s.busView.Settling) (within : s.withinRun k = true)
    (step : s.next platform configuration k = some t) : t.Caused := by
  have linked := uninterrupted.acquiring.linked
  have stays (faulted : s.bus.shared.lifecycle.state = .faulted) :
      t.bus.shared.lifecycle.state = .faulted := by
    have halted : s.busView.Halted := ⟨settling, by
      intro running
      cases running.symm.trans faulted⟩
    have after := (uninterrupted.next small divides within step).active
    simp only [withinRun, Bool.and_eq_true] at within
    exact after.resolve_left (linked.halted halted within.1 step).state
  have kept {value : CanBus.Result × Option RawCanFrame}
      (present : s.reception = some (.returned value)) :
      value.1 = .ok ∨ value.1 = .timeout ∨
        value.1 = .faulted ∧ t.bus.shared.lifecycle.state = .faulted :=
    (h.reception value present).imp_right (.imp_right (.imp_right stays))
  have passes {p : ℕ × VehicleTelemetry.WorkerPc} (mem : p ∈ s.runtime.workers)
      {status : VehicleTelemetry.ReceiveStatus} (has : p.2.status? = some status) :
      status = .frame ∨ status = .timeout ∨
        status = .fault ∧ t.bus.shared.lifecycle.state = .faulted :=
    (h.workers p mem status has).imp_right (.imp_right (.imp_right stays))
  cases k with
  | source k =>
    cases k with
    | runtime k =>
      obtain ⟨received, system, inner, rfl⟩ := next_source_runtime step
      obtain ⟨-, runtime, moved, rfl⟩ := System.next_runtime inner
      refine ⟨?_, ?_⟩
      · intro value present
        dsimp only at present
        split_ifs at present
        exact kept present
      · intro p mem status has
        cases k with
        | worker i answers =>
          obtain ⟨id, pc, found, -, rfl⟩ := VehicleTelemetry.System.next_worker moved
          have member := List.mem_of_getElem? found
          rcases mem_of_mem_resume found mem with old | own
          · exact passes old has
          · cases control : (pc.step platform answers s.runtime.shared).2 with
            | ret u =>
              rw [control] at own
              cases own
            | next pc' =>
              rw [control] at own
              obtain rfl := List.mem_singleton.mp own
              have live : pc' ∈ (pc.step platform answers s.runtime.shared).2.live := by
                rw [control]
                exact List.mem_singleton_self pc'
              rcases VehicleTelemetry.WorkerPc.step_status live has with before | ⟨rfl, rfl⟩
              · exact passes member before
              · have takes : s.takes (.worker i answers) = true := by simp [Pipeline.takes, found]
                obtain ⟨i', answers', id', value, same, -, returned', answer, -⟩ :=
                  received_takes received takes
                obtain ⟨rfl, rfl⟩ := VehicleTelemetry.Choice.worker.inj same
                rw [answer]
                rcases kept returned' with ok | timeout | ⟨faulted, state⟩
                · exact .inl (by rw [ok]; rfl)
                · exact .inr (.inl (by rw [timeout]; rfl))
                · exact .inr (.inr ⟨by rw [faulted]; rfl, state⟩)
        | call i answers =>
          obtain ⟨caller, pc, shared, control, found, inside, rfl⟩ :=
            VehicleTelemetry.System.next_call moved
          rcases List.mem_append.mp mem with old | new
          · exact passes old has
          · unfold VehicleTelemetry.CallPc.spawned at new
            split at new
            · split_ifs at new
              · obtain rfl := List.mem_singleton.mp new
                cases has
              · cases new
            · cases new
        | begin caller operation =>
          obtain ⟨-, rfl⟩ := VehicleTelemetry.System.next_begin moved
          exact passes mem has
        | beginDestroy caller =>
          obtain ⟨-, -, -, rfl⟩ := VehicleTelemetry.System.next_beginDestroy moved
          exact passes mem has
        | beginDiagnostics caller =>
          obtain ⟨-, rfl⟩ := VehicleTelemetry.System.next_beginDiagnostics moved
          exact passes mem has
        | reader i answers =>
          obtain ⟨caller, pc, found, rfl⟩ := VehicleTelemetry.System.next_reader moved
          exact passes mem has
    | enter i =>
      obtain ⟨system, inner, rfl⟩ := next_source (by simp) step
      obtain ⟨-, caller, pc, entry, -, -, rfl⟩ := System.next_enter inner
      exact ⟨h.reception, h.workers⟩
    | call ok =>
      obtain ⟨system, inner, rfl⟩ := next_source (by simp) step
      obtain ⟨pc, shared, control, -, -, rfl⟩ := System.next_call inner
      exact ⟨fun value => kept, fun p mem status => passes mem⟩
    | bus k =>
      obtain ⟨system, inner, rfl⟩ := next_source (by simp) step
      obtain ⟨bus, moved, rfl⟩ := System.next_bus inner
      exact ⟨fun value => kept, fun p mem status => passes mem⟩
  | enterReceive i =>
    obtain ⟨-, -, -, rfl⟩ := next_enterReceive step
    exact ⟨fun value present => (by cases present), h.workers⟩
  | receive granted =>
    obtain ⟨pc, shared, control, present, inside, rfl⟩ := next_receive step
    refine ⟨?_, fun p mem status => passes mem⟩
    intro value returned
    cases control with
    | next pc' => cases returned
    | ret value' =>
      obtain rfl := Reception.returned.inj (Option.some.inj returned)
      exact (uninterrupted.answers small divides present inside).imp_right
        (.imp_right (.imp_right stays))

/-- The driver fails, the task latches the fault, and the worker is told. -/
def failedRun : List Choice :=
  [.source (.call true)] ++ (System.operates 8 {}).map .source ++
    [.source (.runtime (.worker 0 {})), .source (.bus (.task 0 {})),
      .source (.bus (.task 0 { received := .failed }))] ++
    List.replicate 3 (.source (.bus (.task 0 {}))) ++ [.enterReceive 0, .receive true] ++
    .source (.runtime (.worker 0 { received := .fault })) ::
      List.replicate 4 (.source (.runtime (.worker 0 {})))

end CanBusSource.Pipeline

end CanTelemetry
