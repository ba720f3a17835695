import CanTelemetry.VehicleTelemetry.Backlog
import CanTelemetry.VehicleTelemetry.FrameAccount

/-! The diagnostics against the bus. From the creation of the bus's task until another start()
gets the bus, the counters of diagnostics() hold what has become of the frames that the task
has queued: every one of them is counted, or is at one of the few places between the ring and
the counters. -/

namespace CanTelemetry

open Execution Threads VehicleCore

namespace VehicleTelemetry

/-- What is handed over has a result. -/
theorem WorkerCall.length_handed (calls : List WorkerCall) :
    (calls.filterMap WorkerCall.handed?).length = (results calls).length := by
  unfold results
  induction calls with
  | nil => rfl
  | cons c calls ih =>
    rw [List.filterMap_cons, List.filterMap_cons]
    cases c with
    | process frame result => simpa [WorkerCall.handed?, WorkerCall.result?] using ih
    | _ => exact ih

theorem WorkerPc.length_uncounted (pc : WorkerPc) : pc.uncounted.length ≤ 1 := by
  cases pc with
  | sample pass | update pass now snapshot =>
    cases result : pass.result <;> simp [WorkerPc.uncounted, result]
  | _ => exact Nat.zero_le 1

/-- The point behind the clearing of the diagnostics is reached by clearing them. -/
theorem StartPc.step_created {platform : Platform} {fresh : ℕ} {answers : Answers}
    {sh sh' : Shared} {pc pc' : StartPc}
    (step : pc.step platform fresh answers sh = some (sh', .next pc'))
    (behind : pc' = .storeRunning ∨ pc' = .createWorker) :
    pc = .resetDiagnostics ∨ pc = .storeRunning := by
  have announces : pc'.announcing = true := by rcases behind with rfl | rfl <;> rfl
  rcases (step_announcing step).1 announces with announcing | ⟨rfl, ok⟩
  · cases pc with
    | resetDiagnostics => exact .inl rfl
    | storeRunning => exact .inr rfl
    | clearStopRequested | setWorkerActive =>
      obtain rfl := Control.next.inj (Prod.mk.inj (Option.some.inj step)).2
      rcases behind with same | same <;> cases same
    | createWorker =>
      cases platform <;> simp only [StartPc.step] at step <;> split_ifs at step <;>
        simp only [Option.some.injEq, Prod.mk.injEq, Control.next.injEq] at step <;>
        obtain ⟨-, rfl⟩ := step <;> rcases behind with same | same <;> cases same
    | _ => cases announcing
  · simp only [StartPc.step, if_pos ok] at step
    obtain rfl := Control.next.inj (Prod.mk.inj (Option.some.inj step)).2
    rcases behind with same | same <;> cases same

/-- One start() or stop() works on the runtime at a time. -/
theorem System.Governed.alone {platform : Platform} {s : System} (h : s.Governed platform)
    {caller caller' : Caller} {pc pc' : StartPc} (member : (caller, .start pc) ∈ s.calls)
    (member' : (caller', .start pc') ∈ s.calls) (operating : pc.operating = true)
    (operating' : pc'.operating = true) : pc = pc' := by
  cases h with
  | usable alive held =>
    have same := held.unique member member' operating operating'
    exact CallPc.start.inj (Prod.mk.inj same).2
  | gone destroyed only inactive ended =>
    obtain ⟨destroyer, same⟩ := only _ member
    cases same

/-- Clearing the diagnostics, a start() is past the source's start(), and so is every other. -/
theorem System.Governed.cleared {platform : Platform} {s t : System} (h : s.Governed platform)
    {k : Choice} (reset : s.resets k = true) (step : s.next platform k = some t)
    {caller : Caller} {pc : StartPc} (member : (caller, .start pc) ∈ t.calls) :
    pc.clearing = false ∧ pc ≠ .startSource := by
  cases k with
  | call i answers =>
    have after := h.next step
    obtain ⟨caller', pc', shared, control, found, inside, rfl⟩ := next_call step
    obtain rfl : pc' = .start .resetDiagnostics := by simpa [resets, found] using reset
    obtain ⟨-, rfl⟩ := Prod.mk.inj (Option.some.inj inside)
    have own : (caller', CallPc.start .storeRunning) ∈ resume s.calls i
        (((Control.next .storeRunning : Control StartPc ResultCode).call CallPc.start
          fun result => .ret (some result)).call (caller', ·) .ret) :=
      mem_resume_live found (List.mem_singleton.mpr rfl)
    by_cases operating : pc.operating = true
    · obtain rfl := after.alone member own operating rfl
      exact ⟨rfl, by simp⟩
    · cases pc <;> first | exact absurd rfl operating | exact ⟨rfl, by simp⟩
  | _ => cases reset

end VehicleTelemetry

namespace CanBusSource.Pipeline

variable {w : ℕ} {platform : VehicleTelemetry.Platform} {configuration : CanBus.Configuration}
  {s t first : Pipeline w} {k : Choice} {ks ls : List Choice}
  {answers : List VehicleTelemetry.ProcessStatus}

/-- The result of a process() call. -/
def processed (s : Pipeline w) : Choice → List VehicleTelemetry.ProcessStatus
  | .source (.runtime k) => VehicleTelemetry.results (s.runtime.workerCalls k)
  | _ => []

/-- The results that are not counted yet. -/
def uncounted (s : Pipeline w) : List VehicleTelemetry.ProcessStatus :=
  s.runtime.workers.flatMap (·.2.uncounted)

theorem Linked.length_uncounted (h : s.Linked platform) : s.uncounted.length ≤ 1 := by
  obtain ⟨few, -⟩ := h.governed.single
  unfold uncounted
  cases workers : s.runtime.workers with
  | nil => exact Nat.zero_le 1
  | cons p rest =>
    rw [workers, List.length_cons] at few
    obtain rfl : rest = [] := List.eq_nil_of_length_eq_zero (by omega)
    simpa using p.2.length_uncounted

theorem length_handedFrames (s : Pipeline w) (k : Choice) :
    (s.handedFrames k).length = (s.processed k).length := by
  cases k with
  | source k =>
    cases k with
    | runtime k => exact VehicleTelemetry.WorkerCall.length_handed _
    | _ => rfl
  | _ => rfl

/-- Before the start() clears the diagnostics there is nothing to count; from then on they are
those of this acquisition. -/
inductive Reported (s : Pipeline w) (answers : List VehicleTelemetry.ProcessStatus) : Prop
  | starting (idle : s.runtime.workers = [])
    (early : ∀ caller pc, (caller, .start pc) ∈ s.runtime.calls →
      pc ≠ .storeRunning ∧ pc ≠ .createWorker) (nothing : answers = [])
  | counting (made : List VehicleTelemetry.WorkerCall)
    (counted : List VehicleTelemetry.ProcessStatus) (account : s.runtime.Accounting made counted)
    (cleared : ¬s.Entering VehicleTelemetry.StartPc.clearing)
    (same : VehicleTelemetry.results made = answers)

/-- The runtime before it clears the diagnostics: there is no worker, and none is created. -/
theorem Reported.early (idle : s.runtime.workers = [])
    (early : ∀ caller pc, (caller, .start pc) ∈ s.runtime.calls → pc ≠ .storeRunning ∧
      pc ≠ .createWorker)
    {k : VehicleTelemetry.Choice} {runtime : VehicleTelemetry.System}
    (kept : s.runtime.resets k = false) (moved : s.runtime.next platform k = some runtime) :
    s.runtime.workerCalls k = [] ∧ runtime.workers = [] ∧
      ∀ caller pc, (caller, .start pc) ∈ runtime.calls → pc ≠ .storeRunning ∧
        pc ≠ .createWorker := by
  cases k with
  | call i answers =>
    obtain ⟨caller, pc, shared, control, found, inside, rfl⟩ :=
      VehicleTelemetry.System.next_call moved
    have member := List.mem_of_getElem? found
    have nobody : pc.spawned s.runtime.created answers = [] := by
      refine VehicleTelemetry.CallPc.spawned_eq_nil _ _ ?_
      rintro rfl
      exact (early caller _ member).2 rfl
    refine ⟨rfl, by simp [nobody, idle], ?_⟩
    intro caller' pc' mem
    rcases mem_of_mem_resume found mem with old | own
    · exact early caller' pc' old
    · cases control with
      | ret value => cases own
      | next after =>
        obtain ⟨rfl, rfl⟩ := Prod.mk.inj (List.mem_singleton.mp own)
        obtain ⟨before, rfl, goes⟩ := VehicleTelemetry.CallPc.step_goes_start inside
        rw [← not_or]
        intro behind
        rcases VehicleTelemetry.StartPc.step_created goes behind with rfl | rfl
        · simp [VehicleTelemetry.System.resets, found] at kept
        · exact (early _ _ member).1 rfl
  | begin caller operation =>
    obtain ⟨-, rfl⟩ := VehicleTelemetry.System.next_begin moved
    refine ⟨rfl, idle, ?_⟩
    intro caller' pc mem
    rcases List.mem_append.mp mem with old | new
    · exact early caller' pc old
    · have entry := (Prod.mk.inj (List.mem_singleton.mp new)).2
      cases operation <;> cases entry
      simp
  | beginDestroy caller =>
    obtain ⟨-, -, -, rfl⟩ := VehicleTelemetry.System.next_beginDestroy moved
    refine ⟨rfl, idle, ?_⟩
    intro caller' pc mem
    cases (Prod.mk.inj (List.mem_singleton.mp mem)).2
  | beginDiagnostics caller =>
    obtain ⟨-, rfl⟩ := VehicleTelemetry.System.next_beginDiagnostics moved
    exact ⟨rfl, idle, early⟩
  | reader i answers =>
    obtain ⟨caller, pc, found, rfl⟩ := VehicleTelemetry.System.next_reader moved
    exact ⟨rfl, idle, early⟩
  | worker i answers =>
    obtain ⟨id, pc, found, -, rfl⟩ := VehicleTelemetry.System.next_worker moved
    simp [idle] at found

/-- What a step of the runtime does to the account. -/
theorem Reported.runtime (h : s.Reported answers) (linked : s.Linked platform)
    (acquired : s.busView.Acquired) {k : VehicleTelemetry.Choice}
    (step : s.next platform configuration (.source (.runtime k)) = some t) :
    t.Reported (answers ++ s.processed (.source (.runtime k))) := by
  have later := Entering.of_next rfl VehicleTelemetry.StartPc.step_clearing linked acquired step
  obtain ⟨-, system, inner, same⟩ := next_source_runtime step
  obtain ⟨-, runtime, moved, rfl⟩ := System.next_runtime inner
  have view : t.runtime = runtime := by rw [same]
  cases reset : s.runtime.resets k with
  | true =>
    have silent : s.processed (.source (.runtime k)) = [] := by
      cases k with
      | call i answers => rfl
      | _ => cases reset
    have nothing : answers = [] := by
      cases h with
      | starting idle early nothing => exact nothing
      | counting made counted account cleared same =>
        cases k with
        | call i answers =>
          obtain ⟨⟨caller, pc⟩, found, resets⟩ := (Option.any_eq_true _ _).mp reset
          obtain rfl := of_decide_eq_true resets
          exact absurd ⟨caller, _, List.mem_of_getElem? found, .inl rfl⟩ cleared
        | _ => cases reset
    refine .counting [] [] ?_ ?_ (by rw [nothing, silent]; rfl)
    · rw [view]
      exact linked.governed.accounting reset moved
    · rintro ⟨caller, pc, mem, phase⟩
      rw [view] at mem
      obtain ⟨behind, other⟩ := linked.governed.cleared reset moved mem
      rcases phase with clears | ⟨rfl, -⟩
      · exact Bool.false_ne_true (behind.symm.trans clears)
      · exact other rfl
  | false =>
    cases h with
    | starting idle early nothing =>
      obtain ⟨silent, idle', early'⟩ := Reported.early idle early reset moved
      refine .starting (by rw [view, idle']) (by rw [view]; exact early') ?_
      simp only [processed, silent, nothing]
      rfl
    | counting made counted account cleared same =>
      have kept : s.runtime.unreset k = true := by simp [VehicleTelemetry.System.unreset, reset]
      refine .counting (made ++ s.runtime.workerCalls k) (counted ++ s.runtime.counts k) ?_
        (mt later cleared) ?_
      · rw [view]
        exact account.next linked.governed kept moved
      · rw [VehicleTelemetry.results_append, same]
        rfl

theorem Reported.next (h : s.Reported answers) (linked : s.Linked platform)
    (acquired : s.busView.Acquired) (step : s.next platform configuration k = some t) :
    t.Reported (answers ++ s.processed k) := by
  have beside (runtime : t.runtime = s.runtime) (silent : s.processed k = []) :
      t.Reported (answers ++ s.processed k) := by
    have later := Entering.of_next rfl VehicleTelemetry.StartPc.step_clearing linked acquired step
    rw [silent, List.append_nil]
    cases h with
    | starting idle early nothing =>
      exact .starting (by rw [runtime, idle]) (by rw [runtime]; exact early) nothing
    | counting made counted account cleared same =>
      exact .counting made counted (by rw [runtime]; exact account) (mt later cleared) same
  cases k with
  | source k =>
    cases k with
    | runtime k => exact h.runtime linked acquired step
    | enter i =>
      obtain ⟨system, inner, rfl⟩ := next_source (by simp) step
      obtain ⟨free, caller, pc, entry, found, asks, rfl⟩ := System.next_enter inner
      exact beside rfl rfl
    | call ok =>
      obtain ⟨system, inner, rfl⟩ := next_source (by simp) step
      obtain ⟨pc, shared, control, present, inside, rfl⟩ := System.next_call inner
      exact beside rfl rfl
    | bus k =>
      obtain ⟨system, inner, rfl⟩ := next_source (by simp) step
      obtain ⟨bus, moved, rfl⟩ := System.next_bus inner
      exact beside rfl rfl
  | enterReceive i =>
    obtain ⟨-, -, -, rfl⟩ := next_enterReceive step
    exact beside rfl rfl
  | receive granted =>
    obtain ⟨pc, shared, control, present, inside, rfl⟩ := next_receive step
    exact beside rfl rfl

/-- At the creation of the bus's task the start() is in the source. -/
theorem Begins.unreported (begins : Begins platform configuration s first)
    (linked : first.Linked platform) (idle : first.runtime.workers = []) : first.Reported [] := by
  refine .starting idle ?_ rfl
  obtain ⟨⟨c, creating⟩, creates⟩ := begins
  obtain ⟨-, step⟩ := guarded_eq_some.mp creates
  obtain ⟨system, inner, rfl⟩ := next_source (by simp) step
  obtain ⟨pc, shared, control, -, -, rfl⟩ := System.next_call inner
  intro caller pc' mem
  rw [← not_or]
  intro behind
  have operating : (VehicleTelemetry.CallPc.start pc').operating = true := by
    rcases behind with rfl | rfl <;> rfl
  have stands : Stands _ _ (some (.after control)) (.start pc') :=
    linked.retained.held.fact mem operating
  have outside : (VehicleTelemetry.CallPc.start pc').inSource = false := by
    rcases behind with rfl | rfl <;> rfl
  cases (stands.covered outside).1

theorem exec_reported (start : first.Acquiring platform) (fresh : first.Reported [])
    (run : exec (guarded withinAcquisition (next platform configuration)) first ls = some t) :
    let next' := guarded withinAcquisition (next platform configuration)
    t.Reported (trace next' processed first ls) ∧
      (trace next' handedFrames first ls).length = (trace next' processed first ls).length := by
  intro next'
  refine (exec_history (P := fun ls t => t.Acquiring platform ∧
    t.Reported (trace next' processed first ls) ∧
    (trace next' handedFrames first ls).length = (trace next' processed first ls).length)
    ⟨start, fresh, rfl⟩ ?_ run).2
  rintro ls t k u run ⟨acquiring, reported, same⟩ step
  obtain ⟨within, moved⟩ := guarded_eq_some.mp step
  rw [trace_concat run, trace_concat run, List.length_append, List.length_append, same,
    length_handedFrames]
  exact ⟨acquiring.next within moved, reported.next acquiring.linked acquiring.acquired moved, rfl⟩

/-- From the creation of the bus's task until another start() gets the bus, in any interleaving:
every frame that the task has queued has a result of process(), or is in the worker's hand, in
receive() or in the ring, but for one frame at most that a stop() may cost; and once there is
a worker, the counters of diagnostics() hold these results, each under its kind, but for one
at most that is not counted yet. -/
theorem frames_reported (wide : 6 < w)
    (before : exec (guarded proper (next platform configuration)) ({} : Pipeline w) ks = some s)
    (begins : Begins platform configuration s first)
    (run : exec (guarded withinAcquisition (next platform configuration)) first ls = some t) :
    let next' := guarded withinAcquisition (next platform configuration)
    let accepted := trace next' (onBus configuration CanBus.System.acceptedFrames) first ls
    let results := trace next' processed first ls
    (∃ dropped ≤ 1, (dropped ≠ 0 → t.runtime.shared.stopRequested = true) ∧
      accepted.length = results.length + t.inHand.length + dropped +
        ((t.bus.consumer.map CanBus.ReceivePc.inHand).getD []).length +
        RingIndex.distance t.bus.shared.frames.head t.bus.shared.frames.tail) ∧
      (results = [] ∧ t.runtime.workers = [] ∨
        ∃ counted, results = counted ++ t.uncounted ∧ t.uncounted.length ≤ 1 ∧
          t.runtime.shared.diagnostics.Tallies counted ∧
          t.runtime.shared.diagnostics.handled = BitVec.ofNat 64 counted.length) := by
  intro next' accepted results
  obtain ⟨linked, configured, -⟩ := exec_linked before
  have start := begins.acquiring before
  obtain ⟨acquiring, dropped, account, short, left⟩ := exec_delivers start (begins.fresh linked) run
  obtain ⟨reported, handed⟩ :=
    exec_reported start (begins.unreported start.linked (begins.idle linked).2) run
  have bus := (acquisitionBus platform configuration).exec_schedule start.linked run
  have whole := (wholeBus platform configuration).exec_schedule .initial before
  obtain ⟨queue, depth, frames⟩ :=
    CanBus.System.accepted_account wide whole (begins.bus linked configured) bus
  have accepts := trace_onBus CanBus.System.acceptedFrames start.linked run
  have returns := trace_onBus CanBus.System.returnedFrames start.linked run
  constructor
  · refine ⟨dropped.length, short, ?_, ?_⟩
    · intro some
      exact (left (List.ne_nil_of_length_pos (Nat.pos_of_ne_zero some))).requested
    · have all : accepted = _ := accepts.symm.trans frames
      rw [returns, ← List.nil_append (trace _ _ _ _), account] at all
      have lengths := congrArg List.length all
      simp only [List.length_append, handed] at lengths
      have depth : queue.length =
        RingIndex.distance t.bus.shared.frames.head t.bus.shared.frames.tail := depth
      have hand : ((acquisitionBus platform configuration).view t).consumer = t.bus.consumer := rfl
      rw [hand, depth] at lengths
      have made : results.length = (trace (guarded withinAcquisition (next platform configuration))
        processed first ls).length := rfl
      omega
  · cases reported with
    | starting idle early nothing => exact .inl ⟨nothing, idle⟩
    | counting made counted accounts cleared same =>
      exact .inr ⟨counted, same.symm.trans accounts.pending, acquiring.linked.length_uncounted,
        accounts.tallies, accounts.tallies.handled⟩

theorem frames_reported_processed :
    let next' := guarded withinAcquisition (next (w := 32) .host {})
    let created := final (guarded proper (next .host {}))
      (final (guarded proper (next .host {})) ({} : Pipeline 32) creatingRun) [.source (.call true)]
    let t := final next' created (deliveredRun ++ processRun)
    (trace next' processed created (deliveredRun ++ processRun)).length = 1 ∧
      ∃ counted, trace next' processed created (deliveredRun ++ processRun) =
        counted ++ t.uncounted ∧ t.runtime.shared.diagnostics.Tallies counted := by
  intro next' created t
  have before := exec_eq_final (guarded proper (next .host {})) ({} : Pipeline 32) creatingRun
    (by decide)
  have creates : guarded proper (next .host {})
      (final (guarded proper (next .host {})) ({} : Pipeline 32) creatingRun)
      (.source (.call true)) = some created :=
    next_eq_final (guarded proper (next .host {})) _ (.source (.call true)) (by decide)
  have run : exec next' created (deliveredRun ++ processRun) = some t :=
    exec_eq_final next' created (deliveredRun ++ processRun) (by decide)
  have one : (trace next' processed created (deliveredRun ++ processRun)).length = 1 := by decide
  have reported := (frames_reported (by decide) before ⟨⟨_, rfl⟩, creates⟩ run).2
  clear_value t
  rcases reported with ⟨none, -⟩ | ⟨counted, same, -, tallies, -⟩
  · rw [none] at one
    cases one
  · exact ⟨one, counted, same, tallies⟩

end CanBusSource.Pipeline

end CanTelemetry
