import CanTelemetry.VehicleTelemetry.EndToEnd

/-! How many frames are still on their way. While the bus is Running and no stop() has come,
those that the task has queued and the processor has not got are in the worker's hand, in
receive(), or in the ring with a token each. Once the bus is not Running, at most one of them
still gets to the processor. -/

namespace CanTelemetry.CanBusSource.Pipeline

open Execution Threads VehicleCore

variable {w : ℕ} {platform : VehicleTelemetry.Platform} {configuration : CanBus.Configuration}
  {s t first : Pipeline w} {k : Choice} {ks ls : List Choice}

/-! ### Until a stop() of the bus begins -/

/-- No stop() enters the bus. -/
def withinRun (s : Pipeline w) (k : Choice) : Bool :=
  s.withinAcquisition k && match k with
    | .source (.enter i) => s.runtime.calls[i]?.any (·.2 = .start .startSource)
    | _ => true

/-- Where no stop() begins, the calls are those of start(). -/
theorem starts_next {bus bus' : CanBus.System w} {k : CanBus.Choice}
    (starts : ∀ pc ∈ bus.calls, ∃ c inner, pc = .start c inner) (within : bus.withinRun k = true)
    (step : bus.next k = some bus') : ∀ pc ∈ bus'.calls, ∃ c inner, pc = .start c inner := by
  intro pc mem
  cases k with
  | beginStart c =>
    obtain rfl := Option.some.inj step
    rcases List.mem_append.mp mem with old | new
    · exact starts pc old
    · exact ⟨c, .beginStart, List.mem_singleton.mp new⟩
  | beginStop =>
    simp only [CanBus.System.withinRun, Bool.and_false] at within
    cases within
  | call i ok =>
    obtain ⟨pc', shared, control, found, inside, rfl⟩ := CanBus.System.next_call step
    rcases mem_of_mem_resume found mem with old | own
    · exact starts pc old
    · obtain ⟨c, inner, rfl⟩ := starts pc' (List.mem_of_getElem? found)
      obtain ⟨after, -, rfl⟩ := CanBus.CallPc.step_start inside
      cases after with
      | next inner' => exact ⟨c, inner', List.mem_singleton.mp own⟩
      | ret result => cases own
  | task i env =>
    obtain ⟨pc', shared, control, -, -, rfl⟩ := CanBus.System.next_task step
    exact starts pc mem
  | beginReceive timeoutMs =>
    obtain ⟨-, begins⟩ := Option.ite_none_right_eq_some.mp step
    obtain rfl := Option.some.inj begins
    exact starts pc mem
  | consumer granted =>
    obtain ⟨pc', shared, control, -, -, rfl⟩ := CanBus.System.next_consumer step
    exact starts pc mem
  | beginStatistics | observer | busOff =>
    obtain ⟨frames, driver, observers, -, rfl⟩ := CanBus.System.next_beside rfl step
    exact starts pc mem

/-- An acquisition that no stop() has entered, with the frames of its task. -/
structure Uninterrupted (platform : VehicleTelemetry.Platform) (s : Pipeline w)
    (stamped accepted returned : List RawCanFrame) : Prop where
  acquiring : s.Acquiring platform
  unstopped : ∀ pc ∈ s.busView.calls, ∃ c inner, pc = .start c inner
  feed : s.busView.Acquiring stamped accepted returned

/-- Every step of such an acquisition is a step of the bus within a run, or none. -/
theorem Uninterrupted.step_run {stamped accepted returned : List RawCanFrame}
    (h : s.Uninterrupted platform stamped accepted returned) (within : s.withinRun k = true)
    (step : s.next platform configuration k = some t) :
    exec (guarded CanBus.System.withinRun CanBus.System.next) s.busView
      (s.busMoves configuration k) = some t.busView := by
  simp only [withinRun, Bool.and_eq_true] at within
  have moved := h.acquiring.linked.step_acquisition within.1 step
  rcases busMoves_cases configuration s k with none | ⟨k', one⟩
  · rw [none] at moved ⊢
    exact moved
  · rw [one] at moved ⊢
    obtain ⟨bus, stepped, rest⟩ := exec_cons_eq_some.mp moved
    obtain rfl := Option.some.inj rest
    obtain ⟨allowed, stepped⟩ := guarded_eq_some.mp stepped
    refine exec_single (guarded_eq_some.mpr ⟨?_, stepped⟩)
    simp only [CanBus.System.withinAcquisition, CanBus.System.apart, Bool.and_eq_true] at allowed
    simp only [CanBus.System.withinRun, CanBus.System.receiving, allowed.1.1.1, Bool.true_and,
      Bool.and_eq_true]
    cases k' with
    | call i ok =>
      refine ⟨?_, rfl⟩
      dsimp only
      cases found : s.busView.calls[i]? with
      | none => rfl
      | some pc =>
        have unreserved := allowed.2
        simp only [found, Option.any_some] at unreserved
        simp only [unreserved, Bool.true_or]
    | beginReceive timeoutMs =>
      refine ⟨?_, rfl⟩
      have proper : s.proper k = true := by
        have acquisition := within.1
        simp only [withinAcquisition, Bool.and_eq_true] at acquisition
        exact acquisition.1
      cases k with
      | enterReceive i =>
        obtain ⟨-, -, ⟨id, found, -⟩, -⟩ := next_enterReceive step
        refine List.all_eq_true.mpr fun pc mem => ?_
        obtain ⟨c, inner, rfl⟩ := h.unstopped pc mem
        obtain ⟨stop, same⟩ := h.acquiring.linked.not_starting (List.mem_of_getElem? found) mem
        cases same
      | source k =>
        cases k with
        | bus k =>
          obtain rfl := List.singleton_inj.mp one
          cases proper
        | enter i =>
          simp only [busMoves] at one
          split at one <;> simp at one
        | runtime k => cases one
        | call ok => cases List.singleton_inj.mp one
      | receive granted => cases List.singleton_inj.mp one
    | beginStop =>
      exfalso
      cases k with
      | source k =>
        cases k with
        | bus k =>
          obtain rfl := List.singleton_inj.mp one
          have acquisition := within.1
          simp only [withinAcquisition, Bool.and_eq_true] at acquisition
          cases acquisition.1
        | enter i =>
          obtain ⟨⟨caller, pc⟩, found, starts⟩ := (Option.any_eq_true _ _).mp within.2
          obtain rfl := of_decide_eq_true starts
          simp [busMoves, found, request] at one
        | runtime k => cases one
        | call ok => cases List.singleton_inj.mp one
      | enterReceive i => cases List.singleton_inj.mp one
      | receive granted => cases List.singleton_inj.mp one
    | _ => exact ⟨rfl, rfl⟩

theorem Uninterrupted.next (small : CanBus.queueCapacity < 2 ^ w)
    (divides : CanBus.queueCapacity ∣ 2 ^ w) {stamped accepted returned : List RawCanFrame}
    (h : s.Uninterrupted platform stamped accepted returned) (within : s.withinRun k = true)
    (step : s.next platform configuration k = some t) :
    t.Uninterrupted platform (stamped ++ onBus configuration CanBus.System.stampedFrames s k)
      (accepted ++ onBus configuration CanBus.System.acceptedFrames s k)
      (returned ++ onBus configuration CanBus.System.returnedFrames s k) := by
  have moved := h.step_run within step
  simp only [withinRun, Bool.and_eq_true] at within
  refine ⟨h.acquiring.next within.1 step, ?_, ?_⟩
  · refine exec_invariant (P := fun bus : CanBus.System w =>
      ∀ pc ∈ bus.calls, ∃ c inner, pc = .start c inner) ?_ moved h.unstopped
    intro bus k' bus' starts step
    obtain ⟨allowed, step⟩ := guarded_eq_some.mp step
    exact starts_next starts allowed step
  · simp only [onBus]
    rcases busMoves_cases configuration s k with none | ⟨k', one⟩
    · rw [none] at moved ⊢
      obtain same := Option.some.inj moved
      simpa [← same] using h.feed
    · rw [one] at moved ⊢
      obtain ⟨bus, stepped, rest⟩ := exec_cons_eq_some.mp moved
      obtain rfl := Option.some.inj rest
      obtain ⟨allowed, stepped⟩ := guarded_eq_some.mp stepped
      simpa using (h.feed.next small divides allowed stepped).1

theorem Begins.uninterrupted (begins : Begins platform configuration s first)
    (before : exec (guarded proper (next platform configuration)) ({} : Pipeline w) ks = some s) :
    first.Uninterrupted platform [] [] [] := by
  obtain ⟨linked, configured, -⟩ := exec_linked before
  have bus := begins.bus linked configured
  have feed := linked.bus.preparing.acquiring bus.creating (guarded_eq_some.mp bus.creates).2
  refine ⟨begins.acquiring before, ?_, feed⟩
  obtain ⟨shared, control, inside, after⟩ :=
    CanBus.System.next_call_single bus.creating (guarded_eq_some.mp bus.creates).2
  obtain ⟨inner, -, rfl⟩ := CanBus.CallPc.step_start inside
  intro pc mem
  rw [after] at mem
  cases inner with
  | next inner' => exact ⟨_, inner', List.mem_singleton.mp mem⟩
  | ret result => cases mem

/-- Until a stop() enters the bus, and while it is Running and no stop is requested: what the
processor has not got of the frames that the task has queued is in the worker's hand, or
receive() has it, or it is in the ring with a token for it. -/
theorem frames_outstanding (wide : 6 < w)
    (before : exec (guarded proper (next platform configuration)) ({} : Pipeline w) ks = some s)
    (begins : Begins platform configuration s first)
    (run : exec (guarded withinRun (next platform configuration)) first ls = some t)
    (running : t.bus.shared.lifecycle.state = .running)
    (wanted : t.runtime.shared.stopRequested = false) :
    let next' := guarded withinRun (next platform configuration)
    let accepted := trace next' (onBus configuration CanBus.System.acceptedFrames) first ls
    let handed := trace next' handedFrames first ls
    handed <+: accepted ∧ ∃ available, t.bus.shared.available = some available ∧
      accepted.length = handed.length + t.inHand.length +
        ((t.bus.consumer.map CanBus.ReceivePc.inHand).getD []).length + available.tokens +
        t.bus.owedGives + t.bus.heldTokens := by
  intro next' accepted handed
  have small : CanBus.queueCapacity < 2 ^ w := Nat.pow_lt_pow_right Nat.one_lt_two wide
  have divides : CanBus.queueCapacity ∣ 2 ^ w :=
    (Nat.pow_dvd_pow_iff_le_right Nat.one_lt_two).mpr wide.le
  obtain ⟨linked, -, -⟩ := exec_linked before
  have fresh := begins.uninterrupted before
  have both : t.Uninterrupted platform
      (trace next' (onBus configuration CanBus.System.stampedFrames) first ls)
      (trace next' (onBus configuration CanBus.System.acceptedFrames) first ls)
      (trace next' (onBus configuration CanBus.System.returnedFrames) first ls) ∧
      t.Delivers (trace next' (onBus configuration CanBus.System.returnedFrames) first ls)
        (trace next' handedFrames first ls) := by
    refine exec_history (P := fun ls t => t.Uninterrupted platform
      (trace next' (onBus configuration CanBus.System.stampedFrames) first ls)
      (trace next' (onBus configuration CanBus.System.acceptedFrames) first ls)
      (trace next' (onBus configuration CanBus.System.returnedFrames) first ls) ∧
      t.Delivers (trace next' (onBus configuration CanBus.System.returnedFrames) first ls)
        (trace next' handedFrames first ls)) ⟨fresh, begins.fresh linked⟩ ?_ run
    rintro ls t k u run ⟨uninterrupted, delivers⟩ step
    obtain ⟨within, moved⟩ := guarded_eq_some.mp step
    rw [trace_concat run, trace_concat run, trace_concat run, trace_concat run]
    refine ⟨uninterrupted.next small divides within moved, ?_⟩
    have acquiring := uninterrupted.acquiring
    simp only [withinRun, withinAcquisition, Bool.and_eq_true] at within
    exact delivers.next acquiring.linked acquiring.acquired acquiring.answered within.1.1 moved
  obtain ⟨uninterrupted, dropped, account, -, left⟩ := both
  have kept : dropped = [] := by
    by_contra some
    exact Bool.false_ne_true (wanted.symm.trans (left some).requested)
  subst kept
  obtain ⟨task, one, feed⟩ := uninterrupted.feed.feed
  obtain ⟨position, queue, feed⟩ := feed.queue
  obtain ⟨available, has, balance⟩ := feed.tokens running
  have frames := feed.frames
  rw [account] at frames
  refine ⟨?_, available, has, ?_⟩
  · simp only [accepted, frames, List.append_nil, List.append_assoc]
    exact List.prefix_append _ _
  · have owed : t.bus.owedGives = (task.map CanBus.TaskPc.owesGive).getD 0 := by
      rw [CanBus.System.owedGives]
      exact CanBus.System.Acquiring.owedGives_eq one
    have held : t.bus.heldTokens = (t.busView.consumer.map CanBus.ReceivePc.holdsToken).getD 0 := rfl
    have hand : t.busView.consumer = t.bus.consumer := rfl
    have lengths := congrArg List.length frames
    simp only [List.length_append, List.length_nil, hand] at lengths balance
    rw [hand] at held
    simp only [accepted, handed, owed, held]
    omega

theorem frames_outstanding_processed :
    let next' := guarded withinRun (next (w := 32) .host {})
    let created := final (guarded proper (next .host {}))
      (final (guarded proper (next .host {})) ({} : Pipeline 32) creatingRun) [.source (.call true)]
    (trace next' handedFrames created (deliveredRun ++ processRun)).length = 1 ∧
      trace next' handedFrames created (deliveredRun ++ processRun) <+:
        trace next' (onBus {} CanBus.System.acceptedFrames) created (deliveredRun ++ processRun) := by
  intro next' created
  have before := exec_eq_final (guarded proper (next .host {})) ({} : Pipeline 32) creatingRun
    (by decide)
  have creates : guarded proper (next .host {})
      (final (guarded proper (next .host {})) ({} : Pipeline 32) creatingRun)
      (.source (.call true)) = some created :=
    next_eq_final (guarded proper (next .host {})) _ (.source (.call true)) (by decide)
  have run := exec_eq_final next' created (deliveredRun ++ processRun) (by decide)
  exact ⟨by decide, (frames_outstanding (by decide) before ⟨⟨_, rfl⟩, creates⟩ run (by decide)
    (by decide)).1⟩

/-! ### After the bus has left Running -/

theorem exec_settling
    (run : exec (guarded proper (next platform configuration)) ({} : Pipeline w) ks = some s) :
    s.busView.Settling := by
  refine exec_invariant (P := CanBus.System.Settling) ?_
    ((wholeBus platform configuration).exec_schedule .initial run)
    (by simp [CanBus.System.Settling, wholeBus, busView])
  intro s k t h step
  exact (h.next (guarded_eq_some.mp step).2).1

/-- The worker has one frame at most, in its hand or at the pop of receive(). -/
theorem Linked.inHand_le (h : s.Linked platform) : s.inHand.length + s.busView.takesFrame ≤ 1 := by
  have popping (free : s.bus.consumer = none) : s.busView.takesFrame = 0 := by
    simp [CanBus.System.takesFrame, busView, free]
  cases waits : s.reception with
  | none =>
    rw [popping (h.consumer (by simp [waits]))]
    simp only [inHand, waits, Option.map_none, Option.getD_none, List.nil_append]
    rcases workers : s.runtime.workers with _ | ⟨⟨id, pc⟩, rest⟩
    · exact Nat.zero_le 1
    · have alone := h.governed.single.1
      rw [workers] at alone
      obtain rfl := List.length_eq_zero_iff.mp (Nat.le_zero.mp (Nat.le_of_succ_le_succ alone))
      simpa using pc.carried_length
  | some reception =>
    obtain ⟨id, only⟩ := h.worker (by simp [waits])
    simp only [inHand, waits, only, Option.map_some, Option.getD_some, List.flatMap_singleton,
      VehicleTelemetry.WorkerPc.carried, List.append_nil]
    cases reception with
    | waiting =>
      simp only [Reception.frames, List.length_nil, Nat.zero_add, CanBus.System.takesFrame]
      exact Option.length_toList_le
    | returned value =>
      rw [popping (h.consumer (by simp [waits]))]
      obtain ⟨result, frame⟩ := value
      cases result with
      | ok => exact Option.length_toList_le
      | _ => exact Nat.zero_le 1

/-- Whenever the bus is not Running, be it that the task has latched a fault or that a stop()
has begun, at most one frame reaches the processor until another start() gets the bus. -/
theorem frames_after_running (before : exec (guarded proper (next platform configuration))
      ({} : Pipeline w) ks = some s) (left : s.bus.shared.lifecycle.state ≠ .running)
    (run : exec (guarded withinAcquisition (next platform configuration)) s ls = some t) :
    let next' := guarded withinAcquisition (next platform configuration)
    (trace next' handedFrames s ls).length + t.inHand.length + t.busView.takesFrame ≤
        s.inHand.length + s.busView.takesFrame ∧
      s.inHand.length + s.busView.takesFrame ≤ 1 ∧
      t.bus.shared.lifecycle.state ≠ .running := by
  intro next'
  obtain ⟨linked, -, answered⟩ := exec_linked before
  have halted : s.busView.Halted := ⟨exec_settling before, left⟩
  have start : s.Acquiring platform := ⟨linked, halted.acquired linked.bus, answered⟩
  obtain ⟨halted', few⟩ :=
    CanBus.System.exec_halted halted ((acquisitionBus platform configuration).exec_schedule linked run)
  have returns := trace_onBus CanBus.System.returnedFrames linked run
  -- the frame in hand counts as returned before
  have owes : s.Delivers s.inHand [] := ⟨[], by simp, by simp, by simp⟩
  obtain ⟨-, dropped, account, -, -⟩ := exec_delivers start owes run
  have lengths := congrArg List.length account
  refine ⟨?_, linked.inHand_le, halted'.state⟩
  rw [returns] at few
  simp only [List.length_append] at lengths
  simp only [next']
  have same : ((acquisitionBus platform configuration).view t).takesFrame = t.busView.takesFrame :=
    rfl
  omega

/-- After the frame has been returned, the task cannot read the driver's status and latches the
fault. -/
def faultedRun : List Choice :=
  creatingRun ++ [.source (.call true)] ++ deliveredRun ++
    List.replicate 4 (.source (.bus (.task 0 { status := none })))

theorem frames_after_running_faulted :
    let faulted := final (guarded proper (next .host {})) ({} : Pipeline 32) faultedRun
    let processed := final (guarded withinAcquisition (next .host {})) faulted processRun
    (trace (guarded withinAcquisition (next .host {})) handedFrames faulted processRun).length = 1 ∧
      processed.bus.shared.lifecycle.state ≠ .running := by
  intro faulted processed
  have before := exec_eq_final (guarded proper (next .host {})) ({} : Pipeline 32) faultedRun
    (by decide)
  have run := exec_eq_final (guarded withinAcquisition (next .host {})) faulted processRun (by decide)
  exact ⟨by decide, (frames_after_running before (by decide) run).2.2⟩

end CanTelemetry.CanBusSource.Pipeline
