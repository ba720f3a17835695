import CanTelemetry.Foundation.Monitor
import CanTelemetry.VehicleTelemetry.SourceProtocol

/-! A shutdown without faults. A source may answer the receive() that its stop() cancels
with a failure. The worker looks at the stop flag after every receive(), and the flag is up
before stop() is called, so a failure that only comes after stop() was called is never
acted upon: the pass ends there, without a callback. -/

namespace CanTelemetry.VehicleTelemetry

open Execution Threads VehicleCore

/-! ### What is watched -/

/-- Beside a run: stop() or retry_stop() has returned since the latest start(), every one
so far returned Ok, and the latest receive() returned after stop() had begun. -/
structure Watch where
  stopped : Bool := false
  clean : Bool := true
  late : Bool := false

def Watch.see (m : Watch) : SourceCall → Watch
  | .supportsStopRetry _ => m
  | .start _ => { m with stopped := false }
  | .cleanup call => { m with stopped := true, clean := m.clean && call.result = .ok }

def ReceiveStatus.failed : ReceiveStatus → Bool
  | .fault | .notStarted => true
  | .frame | .timeout => false

/-- What the source and the processor may answer to the worker. -/
def WorkerPc.lawful (answers : Answers) (begun : Bool) : WorkerPc → Bool
  | .receive => !answers.received.failed || begun
  | .process _ => answers.processed ≠ .fault
  | _ => true

namespace System

/-- stop() or retry_stop() has begun since the latest start() of the source. -/
def stopBegun (s : System) (m : Watch) : Bool :=
  m.stopped || s.calls.any fun p => p.2.cleanup.any (·.2.inSource)

def watch (s : System) (k : Choice) (m : Watch) : Watch :=
  match k with
  | .worker i _ => if s.workers[i]?.any (·.2 = .receive) then { m with late := s.stopBegun m } else m
  | k => (s.sourceCalls k).foldl Watch.see m

/-- The source fails a receive() only after its stop() has begun, and the processor never
fails. -/
def lawful (p : System × Watch) : Choice → Bool
  | .worker i answers => p.1.workers[i]?.all fun w => w.2.lawful answers (p.1.stopBegun p.2)
  | _ => true

end System

/-! ### The stop flag -/

/-- start() has got the source and is on its way to the worker. -/
def CallPc.launching : CallPc → Bool
  | .start .clearStopRequested | .start .setWorkerActive | .start .resetDiagnostics
  | .start .storeRunning | .start .createWorker | .start (.assignWorker _) => true
  | _ => false

/-- The flag is up in stop() and in the destructor from here on. -/
def CallPc.cancels : CallPc → Bool
  | .stop (.sourceStop _) => true
  | .destroy .requestStop => false
  | .destroy _ => true
  | _ => false

/-- No pass of the loop gets beyond its second look at the flag. -/
def Flagged (sh : Shared) (workers : List (ℕ × WorkerPc)) : Prop :=
  sh.stopRequested = true ∨ workers = []

/-- What the flag has to do with where an operation stands. -/
structure CallPc.Orderly (sh : Shared) (workers : List (ℕ × WorkerPc)) (m : Watch)
    (pc : CallPc) : Prop where
  stopped : m.stopped = true → Flagged sh workers
  launching : pc.launching = true → m.stopped = false
  cancels : pc.cancels = true → Flagged sh workers

/-- What a step of an operation does to the flag. -/
structure CallPc.Flags (pc : CallPc) (sh sh' : Shared)
    (control : Control CallPc (Option ResultCode)) : Prop where
  requested : pc ≠ .start .clearStopRequested → sh.stopRequested = true → sh'.stopRequested = true
  launching : ∀ pc' ∈ control.live, pc'.launching = true →
    pc.launching = true ∨ pc = .start .startSource
  cancels : ∀ pc' ∈ control.live, pc'.cancels = true →
    pc.cancels = true ∨ sh'.stopRequested = true

section Steps

variable {platform : Platform} {caller : Caller} {fresh : ℕ} {running : List ℕ}
  {answers : Answers} {sh sh' : Shared}

theorem StartPc.step_flags {pc : StartPc} {control : Control StartPc ResultCode}
    (step : pc.step platform fresh answers sh = some (sh', control)) :
    (CallPc.start pc).Flags sh sh' (control.call .start fun result => .ret (some result)) := by
  cases pc with
  | partialCleanup pc result =>
    obtain ⟨rfl, rfl⟩ := Prod.mk.inj (Option.some.inj step)
    have cleans := pc.stepPartialStart_cleans sh answers.result
    refine ⟨fun _ up => cleans.stopRequested.trans up, ?_, ?_⟩ <;>
      cases (pc.stepPartialStart sh answers.result).2 <;> simp [CallPc.launching, CallPc.cancels]
  | sourceStop pc =>
    obtain ⟨rfl, rfl⟩ := Prod.mk.inj (Option.some.inj step)
    have cleans := pc.stepSourceStop_cleans sh answers.result
    refine ⟨fun _ up => cleans.stopRequested.trans up, ?_, ?_⟩ <;>
      cases (pc.stepSourceStop sh answers.result).2 <;> simp [CallPc.launching, CallPc.cancels]
  | conclude pc =>
    obtain ⟨rfl, rfl⟩ := Prod.mk.inj (Option.some.inj step)
    cases pc <;> exact ⟨fun _ up => up, by simp [ConcludePc.step, CallPc.launching],
      by simp [ConcludePc.step, CallPc.cancels]⟩
  | createWorker =>
    simp only [StartPc.step] at step
    split_ifs at step
    · cases platform <;> obtain ⟨rfl, rfl⟩ := Prod.mk.inj (Option.some.inj step) <;>
        exact ⟨fun _ up => up, by simp [CallPc.launching], by simp [CallPc.cancels]⟩
    · obtain ⟨rfl, rfl⟩ := Prod.mk.inj (Option.some.inj step)
      exact ⟨fun _ up => up, by simp [CallPc.launching], by simp [CallPc.cancels]⟩
  | clearStopRequested =>
    obtain ⟨rfl, rfl⟩ := Prod.mk.inj (Option.some.inj step)
    exact ⟨fun elsewhere => absurd rfl elsewhere, by simp [CallPc.launching],
      by simp [CallPc.cancels]⟩
  | enter | startSource | assignWorker =>
    simp only [StartPc.step] at step
    split_ifs at step <;> obtain ⟨rfl, rfl⟩ := Prod.mk.inj (Option.some.inj step) <;>
      exact ⟨fun _ up => up, by simp [CallPc.launching], by simp [CallPc.cancels]⟩
  | requestStop =>
    obtain ⟨rfl, rfl⟩ := Prod.mk.inj (Option.some.inj step)
    exact ⟨fun _ _ => rfl, by simp [CallPc.launching], by simp [CallPc.cancels]⟩
  | _ =>
    obtain ⟨rfl, rfl⟩ := Prod.mk.inj (Option.some.inj step)
    exact ⟨fun _ up => up, by simp [CallPc.launching], by simp [CallPc.cancels]⟩

theorem StopPc.step_flags {pc : StopPc} {control : Control StopPc ResultCode}
    (step : pc.step platform caller running answers sh = some (sh', control)) :
    (CallPc.stop pc).Flags sh sh' (control.call .stop fun result => .ret (some result)) := by
  have launching : ∀ pc' ∈ (control.call .stop fun result => .ret (some result) :
      Control CallPc (Option ResultCode)).live, pc'.launching = true →
      (CallPc.stop pc).launching = true ∨ CallPc.stop pc = .start .startSource := by
    cases control <;> simp [CallPc.launching]
  cases pc with
  | testSelf =>
    obtain ⟨rfl, rfl⟩ := Prod.mk.inj (Option.some.inj step)
    refine ⟨fun _ up => up, launching, ?_⟩
    split_ifs <;> simp [CallPc.cancels]
  | enter =>
    simp only [StopPc.step] at step
    split_ifs at step <;> obtain ⟨rfl, rfl⟩ := Prod.mk.inj (Option.some.inj step) <;>
      exact ⟨fun _ up => up, launching, by simp [CallPc.cancels]⟩
  | partialCleanup pc =>
    obtain ⟨rfl, rfl⟩ := Prod.mk.inj (Option.some.inj step)
    have cleans := pc.stepPartialStart_cleans sh answers.result
    refine ⟨fun _ up => cleans.stopRequested.trans up, launching, ?_⟩
    cases (pc.stepPartialStart sh answers.result).2 <;> simp [CallPc.cancels]
  | requestStop =>
    obtain ⟨rfl, rfl⟩ := Prod.mk.inj (Option.some.inj step)
    exact ⟨fun _ _ => rfl, launching, fun _ _ _ => .inr rfl⟩
  | sourceStop pc =>
    obtain ⟨rfl, rfl⟩ := Prod.mk.inj (Option.some.inj step)
    have cleans := pc.stepSourceStop_cleans sh answers.result
    exact ⟨fun _ up => cleans.stopRequested.trans up, launching, fun _ _ _ => .inl rfl⟩
  | join result =>
    obtain ⟨joined, join, same⟩ := Option.map_eq_some_iff.mp step
    obtain ⟨rfl, rfl⟩ := Prod.mk.inj same
    obtain ⟨rfl, -⟩ := Shared.join_eq_some join
    exact ⟨fun _ up => up, launching, by simp [CallPc.cancels]⟩
  | awaitWorker waited result =>
    obtain ⟨rfl, rfl⟩ := Prod.mk.inj (Option.some.inj step)
    refine ⟨fun _ up => up, launching, ?_⟩
    split_ifs <;> simp [CallPc.cancels]
  | conclude pc =>
    obtain ⟨rfl, rfl⟩ := Prod.mk.inj (Option.some.inj step)
    cases pc <;> exact ⟨fun _ up => up, launching, by simp [ConcludePc.step, CallPc.cancels]⟩
  | _ =>
    obtain ⟨rfl, rfl⟩ := Prod.mk.inj (Option.some.inj step)
    exact ⟨fun _ up => up, launching, by simp [CallPc.cancels]⟩

theorem DestroyPc.Does.requested {running : List ℕ} (does : Does platform running sh sh')
    (up : sh.stopRequested = true) : sh'.stopRequested = true := by
  cases does with
  | nothing => exact up
  | requests => rfl
  | cleans sh' cleans unowned => exact cleans.stopRequested.trans up
  | joins host finished => exact up

theorem CallPc.step_flags {pc : CallPc} {control : Control CallPc (Option ResultCode)}
    (step : pc.step platform caller fresh running answers sh = some (sh', control)) :
    pc.Flags sh sh' control := by
  cases pc with
  | configure config =>
    have outcome := Option.some.inj step
    split_ifs at outcome <;> obtain ⟨rfl, rfl⟩ := Prod.mk.inj outcome <;>
      exact ⟨fun _ up => up, by simp, by simp⟩
  | start pc =>
    obtain ⟨⟨shared, inner⟩, inside, same⟩ := Option.map_eq_some_iff.mp step
    obtain ⟨rfl, rfl⟩ := Prod.mk.inj same
    exact StartPc.step_flags inside
  | stop pc =>
    obtain ⟨⟨shared, inner⟩, inside, same⟩ := Option.map_eq_some_iff.mp step
    obtain ⟨rfl, rfl⟩ := Prod.mk.inj same
    exact StopPc.step_flags inside
  | destroy pc =>
    obtain ⟨⟨shared, inner⟩, inside, same⟩ := Option.map_eq_some_iff.mp step
    obtain ⟨rfl, rfl⟩ := Prod.mk.inj same
    refine ⟨fun _ up => (DestroyPc.step_does inside).requested up, ?_, ?_⟩
    · cases inner <;> simp [launching]
    · intro pc' live cancels
      cases pc with
      | requestStop =>
        obtain ⟨rfl, -⟩ := Prod.mk.inj (Option.some.inj inside)
        exact .inr rfl
      | _ => exact .inl rfl

/-- After a step the source counts as stopped if it did before, or if the step was a return
of stop() or retry_stop(). -/
theorem CallPc.see_stopped {pc : CallPc} {m : Watch}
    (stopped : ((pc.sourceCalls answers).foldl Watch.see m).stopped = true) :
    m.stopped = true ∧ pc ≠ .start .startSource ∨ pc.cleanup.isSome = true := by
  unfold sourceCalls at stopped
  split at stopped
  · exact .inl ⟨stopped, by simp⟩
  · cases stopped
  · rename_i elsewhere
    cases within : pc.cleanup with
    | none =>
      rw [within] at stopped
      exact .inl ⟨stopped, elsewhere⟩
    | some place => exact .inr rfl

variable {workers : List (ℕ × WorkerPc)} {m : Watch}

/-- The flag stays up except where start() takes it down, before there is a worker. -/
theorem CallPc.Flags.flagged {pc : CallPc} {control : Control CallPc (Option ResultCode)}
    (flags : pc.Flags sh sh' control) (notLaunching : pc.launching = false)
    (flagged : Flagged sh workers) : Flagged sh' (workers ++ pc.spawned fresh answers) := by
  have spawns : pc.spawned fresh answers = [] := by
    refine spawned_eq_nil fresh answers ?_
    rintro rfl
    cases notLaunching
  rw [spawns, List.append_nil]
  refine flagged.imp_left (flags.requested ?_)
  rintro rfl
  cases notLaunching

theorem CallPc.notLaunching_of_cleanup {pc : CallPc} (cleaning : pc.cleanup.isSome = true) :
    pc.launching = false := by
  cases pc with
  | start pc => cases pc <;> first | rfl | cases cleaning
  | _ => rfl

theorem CallPc.notLaunching_of_cancels {pc : CallPc} (cancels : pc.cancels = true) :
    pc.launching = false := by
  cases pc with
  | start pc => cases cancels
  | _ => rfl

/-- One step of the operation, with what it makes of the watch. -/
theorem CallPc.Orderly.step {pc : CallPc} {control : Control CallPc (Option ResultCode)}
    (h : pc.Orderly sh workers m) (flags : pc.Flags sh sh' control) (fresh : ℕ) (answers : Answers)
    (cleanup : pc.cleanup.isSome = true → pc.cancels = true ∨ workers = []) :
    let m' := (pc.sourceCalls answers).foldl Watch.see m
    control.Settles CallPc.operating
      (m'.stopped = true → Flagged sh' (workers ++ pc.spawned fresh answers))
      fun pc' => pc'.Orderly sh' (workers ++ pc.spawned fresh answers) m' := by
  intro m'
  have stopped : m'.stopped = true → Flagged sh' (workers ++ pc.spawned fresh answers) := by
    intro now
    rcases see_stopped now with ⟨before, -⟩ | cleaning
    · have notLaunching : pc.launching = false := by
        refine eq_false_of_ne_true fun launching => ?_
        exact absurd (before.symm.trans (h.launching launching)) Bool.noConfusion
      exact flags.flagged notLaunching (h.stopped before)
    · refine flags.flagged (notLaunching_of_cleanup cleaning) ?_
      rcases cleanup cleaning with cancels | none_alive
      · exact h.cancels cancels
      · exact .inr none_alive
  refine .of_live (fun _ => stopped)
    (fun pc' live => ⟨stopped, fun launching => ?_, fun cancels => ?_⟩) fun pc' _ orderly =>
    orderly.stopped
  · refine eq_false_of_ne_true fun now => ?_
    rcases see_stopped now with ⟨before, elsewhere⟩ | cleaning
    · rcases flags.launching pc' live launching with earlier | starts
      · exact absurd (before.symm.trans (h.launching earlier)) Bool.noConfusion
      · exact elsewhere starts
    · rcases flags.launching pc' live launching with earlier | rfl
      · exact absurd (earlier.symm.trans (notLaunching_of_cleanup cleaning)) Bool.noConfusion
      · cases cleaning
  · rcases flags.cancels pc' live cancels with earlier | up
    · exact flags.flagged (notLaunching_of_cancels earlier) (h.cancels earlier)
    · exact .inl up

theorem CallPc.Orderly.of_waiting {pc : CallPc} (waiting : pc.operating = false)
    (rest : m.stopped = true → Flagged sh workers) : pc.Orderly sh workers m := by
  rcases waiting_cases waiting with ⟨config, rfl⟩ | rfl | rfl | rfl <;>
    exact ⟨rest, fun launching => absurd launching Bool.false_ne_true,
      fun cancels => absurd cancels Bool.false_ne_true⟩

theorem CallPc.cleanup_of_waiting {pc : CallPc} (waiting : pc.operating = false) :
    pc.cleanup = none := by
  rcases waiting_cases waiting with ⟨config, rfl⟩ | rfl | rfl | rfl <;> rfl

/-- A worker never takes the flag down. -/
theorem WorkerPc.step_requested (pc : WorkerPc) (up : sh.stopRequested = true) :
    (pc.step platform answers sh).1.stopRequested = true := by
  have moves : pc.Moves platform sh (pc.step platform answers sh).1
      (pc.step platform answers sh).2 := pc.step_moves
  generalize pc.step platform answers sh = outcome at moves
  obtain ⟨sh', control⟩ := outcome
  cases moves <;> first | exact up | rfl

/-- A worker stores nothing but Faulted in the lifecycle. -/
theorem WorkerPc.step_lifecycle {pc : WorkerPc} (keeps : pc ≠ .storeFaulted) :
    (pc.step platform answers sh).1.lifecycle = sh.lifecycle := by
  cases pc with
  | update pass statistics now =>
    obtain ⟨d, updated⟩ := sh.snapshotAndUpdate_eq pass statistics now
    simp only [WorkerPc.step, updated]
  | storeFaulted => exact absurd rfl keeps
  | _ => rfl

theorem CallPc.Orderly.mono {pc : CallPc} {workers' : List (ℕ × WorkerPc)} {m' : Watch}
    (h : pc.Orderly sh workers m) (same : m'.stopped = m.stopped)
    (flagged : Flagged sh workers → Flagged sh' workers') : pc.Orderly sh' workers' m' :=
  ⟨fun stopped => flagged (h.stopped (same.symm.trans stopped)),
    fun launching => same.trans (h.launching launching), fun cancels => flagged (h.cancels cancels)⟩

end Steps

namespace System

/-- The flag is up, or no worker is there to look at it, whenever the source is stopped. -/
def FlagFirst (s : System) (m : Watch) : Prop :=
  Held (fun p : Caller × CallPc => p.2.operating) (m.stopped = true → Flagged s.shared s.workers)
    (fun p => p.2.Orderly s.shared s.workers m) s.calls

variable {platform : Platform} {s t : System} {m : Watch}

theorem FlagFirst.mono (h : s.FlagFirst m) {m' : Watch} (kept : t.calls = s.calls)
    (same : m'.stopped = m.stopped)
    (flagged : Flagged s.shared s.workers → Flagged t.shared t.workers) : t.FlagFirst m' := by
  unfold FlagFirst
  rw [kept]
  refine Held.mono h ?_ fun p _ _ orderly => orderly.mono same flagged
  intro rest stopped
  exact flagged (rest (same.symm.trans stopped))

/-- A cleanup that does not come after the flag has no worker to expect. -/
theorem Governed.cleanup (governed : s.Governed platform) {caller : Caller} {pc : CallPc}
    (member : (caller, pc) ∈ s.calls) (cleaning : pc.cleanup.isSome = true) :
    pc.cancels = true ∨ s.workers = [] := by
  cases pc with
  | configure config => cases cleaning
  | start pc =>
    cases pc with
    | partialCleanup pc result => exact .inr (governed.fact member rfl (by simp)).2.1.none_alive
    | sourceStop pc => exact .inr (governed.fact member rfl (by simp)).2.1.none_alive
    | _ => cases cleaning
  | stop pc =>
    cases pc with
    | partialCleanup pc => exact .inr (governed.fact member rfl (by simp)).2.1.none_alive
    | sourceStop pc => exact .inl rfl
    | _ => cases cleaning
  | destroy pc =>
    cases pc with
    | requestStop => cases cleaning
    | _ => exact .inl rfl

theorem FlagFirst.call (h : s.FlagFirst m) (governed : s.Governed platform) {i : ℕ}
    {answers : Answers} (step : s.next platform (.call i answers) = some t) :
    t.FlagFirst (s.watch (.call i answers) m) := by
  obtain ⟨caller, pc, shared, control, found, inside, rfl⟩ := next_call step
  have member := List.mem_of_getElem? found
  have watched : s.watch (.call i answers) m = (pc.sourceCalls answers).foldl Watch.see m := by
    simp only [watch, sourceCalls, found]
  have settles (orderly : pc.Orderly s.shared s.workers m) :=
    orderly.step (CallPc.step_flags inside) s.created answers (governed.cleanup member)
  rw [watched]
  refine governed.call_held h found inside (fun _ orderly => settles orderly)
    (fun waiting rest => settles (.of_waiting waiting rest)) ?_
  intro waiting same q orderly
  obtain ⟨-, silent⟩ := CallPc.outside_of_waiting waiting answers
  rw [silent, same, CallPc.spawned_of_waiting waiting, List.append_nil]
  exact orderly

theorem FlagFirst.next (h : s.FlagFirst m) (governed : s.Governed platform) {k : Choice}
    (step : s.next platform k = some t) : t.FlagFirst (s.watch k m) := by
  cases k with
  | call i answers => exact h.call governed step
  | begin caller operation =>
    obtain ⟨-, rfl⟩ := next_begin step
    refine Held.join h ?_
    cases operation <;> rfl
  | beginDestroy caller =>
    obtain ⟨-, quiet, -, rfl⟩ := next_beginDestroy step
    have held : Held _ _ _ _ := h
    rw [quiet] at held
    exact held.alone rfl fun rest => ⟨rest, fun launching => absurd launching Bool.false_ne_true,
      fun cancels => absurd cancels Bool.false_ne_true⟩
  | beginDiagnostics caller =>
    obtain ⟨-, rfl⟩ := next_beginDiagnostics step
    exact h.mono rfl rfl id
  | reader i answers =>
    obtain ⟨caller, pc, found, rfl⟩ := next_reader step
    obtain ⟨d, published⟩ := pc.step_published answers s.shared
    refine h.mono rfl rfl (Or.imp_left fun up => ?_)
    rw [published]
    exact up
  | worker i answers =>
    obtain ⟨id, pc, found, -, rfl⟩ := next_worker step
    refine h.mono rfl ?_ ?_
    · simp only [watch]
      split_ifs <;> rfl
    · rintro (up | none_alive)
      · exact .inl (pc.step_requested up)
      · simp [none_alive] at found

/-- Once stop() of the source has begun, a worker that is alive finds the flag up. -/
theorem FlagFirst.requested (h : s.FlagFirst m) (governed : s.Governed platform)
    (begun : s.stopBegun m = true) (alive : s.workers ≠ []) : s.shared.stopRequested = true := by
  have flagged : Flagged s.shared s.workers := by
    rcases Bool.or_eq_true _ _ |>.mp begun with stopped | calling
    · cases h with
      | free idle rest => exact rest stopped
      | taken before after p split before_idle after_idle operating orderly =>
        exact orderly.stopped stopped
    · obtain ⟨⟨caller, pc⟩, member, inside⟩ := List.any_eq_true.mp calling
      have cleaning : pc.cleanup.isSome = true := by
        cases within : pc.cleanup with
        | none => simp [within] at inside
        | some place => rfl
      have operating : pc.operating = true := by
        refine eq_true_of_ne_false fun waiting => ?_
        simp [CallPc.cleanup_of_waiting waiting] at cleaning
      rcases governed.cleanup member cleaning with cancels | none_alive
      · exact (Held.fact h member operating).cancels cancels
      · exact .inr none_alive
  exact flagged.resolve_right alive

end System

/-! ### The worker's pass -/

/-- A pass that has a failure, or came back late, ends at the second look at the flag. -/
def WorkerPc.Unfailing (sh : Shared) (late : Bool) : WorkerPc → Prop
  | .sampleTime status _ => status.failed = true ∨ late = true → sh.stopRequested = true
  | .recheck pass => pass.result = none ∧
    (pass.status.failed = true ∨ late = true → sh.stopRequested = true)
  | .process pass => pass.status = .frame ∧ late = false
  | .sample pass | .update pass _ _ =>
    pass.status.failed = false ∧ pass.result ≠ some .fault ∧ late = false
  | .onFrameProcessed pass _ | .onDiagnostics pass _ => pass.faults = false ∧ late = false
  | .storeFaulted | .requestStop => False
  | .loopTest | .receive | .clearTask | .clearActive => True

/-- Nothing in the diagnostics tells of a fault. -/
def TransportDiagnostics.Calm (d : TransportDiagnostics) : Prop :=
  d.lifecycle ≠ .faulted ∧ d.transport ≠ .faulted

def WorkerPc.Calm : WorkerPc → Prop
  | .onFrameProcessed _ snapshot | .onDiagnostics _ snapshot => snapshot.Calm
  | _ => True

theorem Pass.faults_eq_false {pass : Pass} (unfailed : pass.status.failed = false)
    (processed : pass.result ≠ some .fault) : pass.faults = false := by
  obtain ⟨status, frame, time, result⟩ := pass
  cases status <;> simp_all [Pass.faults, ReceiveStatus.failed]

section Pass

variable {platform : Platform} {answers : Answers} {sh sh' : Shared} {late : Bool}
  {pc : WorkerPc}

theorem WorkerPc.Unfailing.mono (h : pc.Unfailing sh late)
    (requested : sh.stopRequested = true → sh'.stopRequested = true) : pc.Unfailing sh' late := by
  cases pc with
  | sampleTime status frame => exact fun failed => requested (h failed)
  | recheck pass => exact ⟨h.1, fun failed => requested (h.2 failed)⟩
  | _ => exact h

/-- The way out of the loop, from either look at the flag. -/
theorem WorkerPc.exit_unfailing (platform : Platform) : (exit platform).Unfailing sh late := by
  cases platform <;> trivial

/-- One step of the worker, with what the source and the processor answer. -/
theorem WorkerPc.Unfailing.step (h : pc.Unfailing sh late) (platform : Platform) {late' : Bool}
    (same : pc ≠ .receive → late' = late)
    (receives : pc = .receive → answers.received.failed = true ∨ late' = true →
      sh.stopRequested = true) {begun : Bool} (lawful : pc.lawful answers begun = true) :
    ∀ pc' ∈ (pc.step platform answers sh).2.live,
      pc'.Unfailing (pc.step platform answers sh).1 late' := by
  intro pc' live
  cases pc with
  | receive =>
    obtain rfl := List.mem_singleton.mp live
    exact receives rfl
  | loopTest =>
    obtain rfl := List.mem_singleton.mp live
    split_ifs
    · exact exit_unfailing platform
    · trivial
  | sampleTime status frame =>
    obtain rfl := same (by simp)
    obtain rfl := List.mem_singleton.mp live
    exact ⟨rfl, h⟩
  | recheck pass =>
    obtain rfl := same (by simp)
    obtain rfl := List.mem_singleton.mp live
    obtain ⟨unprocessed, flagged⟩ := h
    by_cases up : sh.stopRequested = true
    · rw [if_pos up]
      exact exit_unfailing platform
    · rw [if_neg up]
      obtain ⟨unfailed, timely⟩ := not_or.mp (mt flagged up)
      rw [Bool.not_eq_true] at unfailed timely
      by_cases frame : pass.status = .frame
      · rw [if_pos frame]
        exact ⟨frame, timely⟩
      · rw [if_neg frame]
        exact ⟨unfailed, by simp [unprocessed], timely⟩
  | process pass =>
    obtain rfl := same (by simp)
    obtain rfl := List.mem_singleton.mp live
    refine ⟨?_, ?_, h.2⟩
    · simp [h.1, ReceiveStatus.failed]
    · simpa [WorkerPc.lawful] using lawful
  | sample pass =>
    obtain rfl := same (by simp)
    obtain rfl := List.mem_singleton.mp live
    exact h
  | update pass statistics timeoutNow =>
    obtain rfl := same (by simp)
    obtain rfl := List.mem_singleton.mp live
    have fine := Pass.faults_eq_false h.1 h.2.1
    split_ifs
    · exact ⟨fine, h.2.2⟩
    · exact ⟨fine, h.2.2⟩
  | onFrameProcessed pass snapshot =>
    obtain rfl := same (by simp)
    obtain rfl := List.mem_singleton.mp live
    exact h
  | onDiagnostics pass snapshot =>
    obtain rfl := List.mem_singleton.mp live
    rw [h.1]
    trivial
  | storeFaulted => exact absurd h id
  | requestStop => exact absurd h id
  | clearTask =>
    obtain rfl := List.mem_singleton.mp live
    trivial
  | clearActive => simp [WorkerPc.step] at live

theorem Shared.updateSilence_calm (now : MonotonicTimestamp) (calm : sh.diagnostics.Calm) :
    (sh.updateSilenceDiagnosticLocked now).diagnostics.Calm := by
  unfold updateSilenceDiagnosticLocked
  split_ifs
  · exact calm
  · exact ⟨calm.1, by simp⟩
  · exact calm

theorem Shared.snapshotAndUpdate_calm {pass : Pass} (statistics : AcquisitionStatistics)
    (timeoutNow : MonotonicTimestamp) (calm : sh.diagnostics.Calm)
    (unfailed : pass.status.failed = false) (processed : pass.result ≠ some .fault) :
    (sh.snapshotAndUpdate pass statistics timeoutNow).diagnostics.Calm := by
  obtain ⟨status, frame, time, result⟩ := pass
  cases status with
  | frame =>
    cases result with
    | none => exact calm
    | some result =>
      cases result with
      | fault => exact absurd rfl processed
      | _ => exact ⟨calm.1, by simp [snapshotAndUpdate, TransportDiagnostics.count]⟩
  | timeout =>
    simp only [snapshotAndUpdate]
    split_ifs
    · exact updateSilence_calm timeoutNow calm
    · exact ⟨calm.1, by simp⟩
  | fault => cases unfailed
  | notStarted => cases unfailed

/-- The snapshots that the worker hands to the observer. -/
theorem WorkerPc.Unfailing.step_calm (h : pc.Unfailing sh late) (platform : Platform)
    (answers : Answers) (own : pc.Calm) (calm : sh.diagnostics.Calm) :
    (pc.step platform answers sh).1.diagnostics.Calm ∧
      ∀ pc' ∈ (pc.step platform answers sh).2.live, pc'.Calm := by
  cases pc with
  | update pass statistics timeoutNow =>
    have updated := sh.snapshotAndUpdate_calm statistics timeoutNow calm h.1 h.2.1
    refine ⟨updated, fun pc' live => ?_⟩
    obtain rfl := List.mem_singleton.mp live
    split_ifs
    · exact updated
    · exact updated
  | onFrameProcessed pass snapshot =>
    refine ⟨calm, fun pc' live => ?_⟩
    obtain rfl := List.mem_singleton.mp live
    exact own
  | loopTest | recheck | onDiagnostics =>
    refine ⟨calm, fun pc' live => ?_⟩
    obtain rfl := List.mem_singleton.mp live
    split_ifs <;> first | trivial | (cases platform <;> trivial)
  | _ => exact ⟨calm, by simp [WorkerPc.step, Calm]⟩

end Pass

/-! ### What the operations publish -/

/-- An operation whose cleanups all returned Ok ends clean. -/
def CallPc.Calm : CallPc → Prop
  | .start (.diagnoseRefused result) => result ≠ .faulted
  | .start (.conclude (.store clean _)) | .start (.conclude (.diagnose clean _))
  | .stop (.conclude (.store clean _)) | .stop (.conclude (.diagnose clean _)) => clean = true
  | .stop (.join result) | .stop (.awaitWorker _ result) | .stop (.lastLook result) => result = .ok
  | _ => True

/-- What the runtime keeps while every cleanup call has returned Ok. -/
structure Shared.Calm (sh : Shared) : Prop where
  diagnostics : sh.diagnostics.Calm
  result : sh.sourceStopResult = .ok

section Operations

variable {platform : Platform} {caller : Caller} {fresh : ℕ} {running : List ℕ}
  {answers : Answers} {sh sh' : Shared}

theorem Cleanup.step_calm (kind : Cleanup) (pc : CleanupPc) (calm : sh.Calm)
    (answered : ∀ call, SourceCall.cleanup call ∈ pc.sourceCalls answers.result →
      call.result = .ok) :
    (kind.step sh answers.result pc).1.Calm ∧
      ∀ result, (kind.step sh answers.result pc).2 = .ret result → result = .ok := by
  cases pc with
  | test =>
    cases kind with
    | sourceStop =>
      simp only [step, CleanupPc.stepSourceStop]
      split_ifs <;> exact ⟨⟨calm.1, calm.2⟩, by simp [calm.result]⟩
    | partialStart =>
      simp only [step, CleanupPc.stepPartialStart]
      split_ifs <;> exact ⟨⟨calm.1, calm.2⟩, by simp [calm.result]⟩
  | call retry =>
    have ok : answers.result = .ok := answered _ (List.mem_singleton.mpr rfl)
    cases kind with
    | sourceStop =>
      simp only [step, CleanupPc.stepSourceStop, ok, true_or, if_true]
      exact ⟨⟨calm.1, rfl⟩, by simp⟩
    | partialStart =>
      simp only [step, CleanupPc.stepPartialStart, ok, true_or, if_true]
      exact ⟨⟨calm.1, rfl⟩, by simp⟩

theorem finalState_calm (statistics : AcquisitionStatistics) :
    (sh.setLifecycleDiagnostic (finalState true) (finalTransport true) statistics).diagnostics.Calm := by
  simp [Shared.setLifecycleDiagnostic, TransportDiagnostics.Calm, finalState, finalTransport]

theorem StartPc.step_calm {pc : StartPc} {control : Control StartPc ResultCode} (calm : sh.Calm)
    (own : (CallPc.start pc).Calm)
    (answered : ∀ call, SourceCall.cleanup call ∈ (CallPc.start pc).sourceCalls answers →
      call.result = .ok)
    (step : pc.step platform fresh answers sh = some (sh', control)) :
    sh'.Calm ∧ ∀ pc' ∈ control.live, (CallPc.start pc').Calm := by
  cases pc with
  | partialCleanup pc result =>
    obtain ⟨rfl, rfl⟩ := Prod.mk.inj (Option.some.inj step)
    obtain ⟨calm', clean⟩ := Cleanup.partialStart.step_calm pc calm answered
    refine ⟨calm', Control.forall_mem_live_call (fun _ _ => trivial) fun cleanup returned => ?_⟩
    simp [clean cleanup returned, CallPc.Calm]
  | sourceStop pc =>
    obtain ⟨rfl, rfl⟩ := Prod.mk.inj (Option.some.inj step)
    obtain ⟨calm', clean⟩ := Cleanup.sourceStop.step_calm pc calm answered
    refine ⟨calm', Control.forall_mem_live_call (fun _ _ => trivial) fun cleanup returned => ?_⟩
    simp [clean cleanup returned, CallPc.Calm]
  | startSource =>
    simp only [StartPc.step] at step
    split_ifs at step with ok owns <;> obtain ⟨rfl, rfl⟩ := Prod.mk.inj (Option.some.inj step)
    · exact ⟨⟨calm.1, rfl⟩, by simp [CallPc.Calm]⟩
    · exact ⟨⟨calm.1, calm.2⟩, by simp [CallPc.Calm]⟩
    · refine ⟨⟨calm.1, calm.2⟩, fun pc' live => ?_⟩
      obtain rfl := List.mem_singleton.mp live
      rintro fault
      simp [startFailureMayOwnSource, fault] at owns
  | diagnoseRefused result =>
    obtain ⟨rfl, rfl⟩ := Prod.mk.inj (Option.some.inj step)
    have refused : result ≠ .faulted := own
    refine ⟨⟨?_, calm.2⟩, by simp [CallPc.Calm]⟩
    simp [Shared.setLifecycleDiagnostic, TransportDiagnostics.Calm, refused]
  | conclude pc =>
    obtain ⟨rfl, rfl⟩ := Prod.mk.inj (Option.some.inj step)
    cases pc with
    | store clean result => exact ⟨⟨calm.1, calm.2⟩, by simpa [ConcludePc.step, CallPc.Calm] using own⟩
    | diagnose clean result =>
      have finished : clean = true := own
      subst finished
      exact ⟨⟨finalState_calm answers.statistics, calm.2⟩, by simp [ConcludePc.step, CallPc.Calm]⟩
    | release result => exact ⟨⟨calm.1, calm.2⟩, by simp [ConcludePc.step]⟩
  | resetDiagnostics =>
    obtain ⟨rfl, rfl⟩ := Prod.mk.inj (Option.some.inj step)
    exact ⟨⟨⟨by simp, by simp⟩, calm.2⟩, by simp [CallPc.Calm]⟩
  | createWorker =>
    simp only [StartPc.step] at step
    split_ifs at step
    · cases platform <;> obtain ⟨rfl, rfl⟩ := Prod.mk.inj (Option.some.inj step) <;>
        exact ⟨⟨calm.1, calm.2⟩, by simp [CallPc.Calm]⟩
    · obtain ⟨rfl, rfl⟩ := Prod.mk.inj (Option.some.inj step)
      exact ⟨calm, by simp [CallPc.Calm]⟩
  | enter | assignWorker =>
    simp only [StartPc.step] at step
    split_ifs at step <;> obtain ⟨rfl, rfl⟩ := Prod.mk.inj (Option.some.inj step) <;>
      exact ⟨⟨calm.1, calm.2⟩, by simp [CallPc.Calm]⟩
  | _ =>
    obtain ⟨rfl, rfl⟩ := Prod.mk.inj (Option.some.inj step)
    exact ⟨⟨calm.1, calm.2⟩, by simp [CallPc.Calm]⟩

theorem StopPc.step_calm {pc : StopPc} {control : Control StopPc ResultCode} (calm : sh.Calm)
    (own : (CallPc.stop pc).Calm)
    (answered : ∀ call, SourceCall.cleanup call ∈ (CallPc.stop pc).sourceCalls answers →
      call.result = .ok)
    (step : pc.step platform caller running answers sh = some (sh', control)) :
    sh'.Calm ∧ ∀ pc' ∈ control.live, (CallPc.stop pc').Calm := by
  cases pc with
  | testSelf =>
    obtain ⟨rfl, rfl⟩ := Prod.mk.inj (Option.some.inj step)
    refine ⟨calm, ?_⟩
    split_ifs <;> simp [CallPc.Calm]
  | enter =>
    simp only [StopPc.step] at step
    split_ifs at step <;> obtain ⟨rfl, rfl⟩ := Prod.mk.inj (Option.some.inj step) <;>
      exact ⟨⟨calm.1, calm.2⟩, by simp [CallPc.Calm]⟩
  | diagnosePartial | diagnoseStopping =>
    obtain ⟨rfl, rfl⟩ := Prod.mk.inj (Option.some.inj step)
    refine ⟨⟨?_, calm.2⟩, by simp [CallPc.Calm]⟩
    simp [Shared.setLifecycleDiagnostic, TransportDiagnostics.Calm]
  | partialCleanup pc =>
    obtain ⟨rfl, rfl⟩ := Prod.mk.inj (Option.some.inj step)
    obtain ⟨calm', clean⟩ := Cleanup.partialStart.step_calm pc calm answered
    refine ⟨calm', Control.forall_mem_live_call (fun _ _ => trivial) fun cleanup returned => ?_⟩
    simp [clean cleanup returned, CallPc.Calm]
  | sourceStop pc =>
    obtain ⟨rfl, rfl⟩ := Prod.mk.inj (Option.some.inj step)
    obtain ⟨calm', clean⟩ := Cleanup.sourceStop.step_calm pc calm answered
    refine ⟨calm', Control.forall_mem_live_call (fun _ _ => trivial) fun cleanup returned => ?_⟩
    rw [clean cleanup returned]
    cases platform <;> simp [CallPc.Calm]
  | join result =>
    obtain ⟨joined, join, same⟩ := Option.map_eq_some_iff.mp step
    obtain ⟨rfl, rfl⟩ := Prod.mk.inj same
    obtain ⟨rfl, -⟩ := Shared.join_eq_some join
    exact ⟨⟨calm.1, calm.2⟩, by simpa [CallPc.Calm] using own⟩
  | awaitWorker waited result =>
    obtain ⟨rfl, rfl⟩ := Prod.mk.inj (Option.some.inj step)
    refine ⟨calm, ?_⟩
    split_ifs <;> simpa [CallPc.Calm] using own
  | lastLook result =>
    obtain ⟨rfl, rfl⟩ := Prod.mk.inj (Option.some.inj step)
    have ok : result = .ok := own
    refine ⟨calm, ?_⟩
    split_ifs <;> simp [CallPc.Calm, ok]
  | conclude pc =>
    obtain ⟨rfl, rfl⟩ := Prod.mk.inj (Option.some.inj step)
    cases pc with
    | store clean result => exact ⟨⟨calm.1, calm.2⟩, by simpa [ConcludePc.step, CallPc.Calm] using own⟩
    | diagnose clean result =>
      have finished : clean = true := own
      subst finished
      exact ⟨⟨finalState_calm answers.statistics, calm.2⟩, by simp [ConcludePc.step, CallPc.Calm]⟩
    | release result => exact ⟨⟨calm.1, calm.2⟩, by simp [ConcludePc.step]⟩
  | requestStop =>
    obtain ⟨rfl, rfl⟩ := Prod.mk.inj (Option.some.inj step)
    exact ⟨⟨calm.1, calm.2⟩, by simp [CallPc.Calm]⟩

theorem DestroyPc.step_calm {pc : DestroyPc} {control : Control DestroyPc Unit} (calm : sh.Calm)
    (answered : ∀ call, SourceCall.cleanup call ∈ (CallPc.destroy pc).sourceCalls answers →
      call.result = .ok)
    (step : pc.step platform caller running answers sh = some (sh', control)) : sh'.Calm := by
  cases pc with
  | requestStop =>
    obtain ⟨rfl, -⟩ := Prod.mk.inj (Option.some.inj step)
    exact ⟨calm.1, calm.2⟩
  | sourceStop last pc =>
    obtain ⟨rfl, -⟩ := Prod.mk.inj (Option.some.inj step)
    exact (Cleanup.sourceStop.step_calm pc calm answered).1
  | partialCleanup last pc =>
    obtain ⟨rfl, -⟩ := Prod.mk.inj (Option.some.inj step)
    exact (Cleanup.partialStart.step_calm pc calm answered).1
  | awaitWorker =>
    simp only [DestroyPc.step] at step
    cases platform with
    | host =>
      dsimp only at step
      split_ifs at step
      · obtain ⟨rfl, -⟩ := Prod.mk.inj (Option.some.inj step)
        exact calm
      · obtain ⟨joined, join, same⟩ := Option.map_eq_some_iff.mp step
        obtain ⟨rfl, -⟩ := Prod.mk.inj same
        obtain ⟨rfl, -⟩ := Shared.join_eq_some join
        exact ⟨calm.1, calm.2⟩
    | esp =>
      obtain ⟨rfl, -⟩ := Prod.mk.inj (Option.some.inj step)
      exact calm
  | retry =>
    obtain ⟨rfl, -⟩ := Prod.mk.inj (Option.some.inj step)
    exact calm
  | release =>
    simp only [DestroyPc.step] at step
    split_ifs at step
    obtain ⟨rfl, -⟩ := Prod.mk.inj (Option.some.inj step)
    exact calm

theorem CallPc.step_calm {pc : CallPc} {control : Control CallPc (Option ResultCode)}
    (calm : sh.Calm) (own : pc.Calm)
    (answered : ∀ call, SourceCall.cleanup call ∈ pc.sourceCalls answers → call.result = .ok)
    (step : pc.step platform caller fresh running answers sh = some (sh', control)) :
    sh'.Calm ∧ ∀ pc' ∈ control.live, pc'.Calm := by
  cases pc with
  | configure config =>
    have outcome := Option.some.inj step
    split_ifs at outcome <;> obtain ⟨rfl, rfl⟩ := Prod.mk.inj outcome <;>
      exact ⟨⟨calm.1, calm.2⟩, by simp⟩
  | start pc =>
    obtain ⟨⟨shared, inner⟩, inside, same⟩ := Option.map_eq_some_iff.mp step
    obtain ⟨rfl, rfl⟩ := Prod.mk.inj same
    obtain ⟨calm', goes⟩ := StartPc.step_calm calm own answered inside
    exact ⟨calm', Control.forall_mem_live_call (fun pc' next => goes pc' (by simp [next]))
      (by simp)⟩
  | stop pc =>
    obtain ⟨⟨shared, inner⟩, inside, same⟩ := Option.map_eq_some_iff.mp step
    obtain ⟨rfl, rfl⟩ := Prod.mk.inj same
    obtain ⟨calm', goes⟩ := StopPc.step_calm calm own answered inside
    exact ⟨calm', Control.forall_mem_live_call (fun pc' next => goes pc' (by simp [next]))
      (by simp)⟩
  | destroy pc =>
    obtain ⟨⟨shared, inner⟩, inside, same⟩ := Option.map_eq_some_iff.mp step
    obtain ⟨rfl, rfl⟩ := Prod.mk.inj same
    exact ⟨DestroyPc.step_calm calm answered inside,
      Control.forall_mem_live_call (fun _ _ => trivial) (by simp)⟩

/-- The watch is clean as long as every cleanup call has returned Ok. -/
theorem Watch.see_clean {m : Watch} {calls : List SourceCall}
    (clean : (calls.foldl Watch.see m).clean = true) :
    m.clean = true ∧ ∀ call, SourceCall.cleanup call ∈ calls → call.result = .ok := by
  induction calls generalizing m with
  | nil => exact ⟨clean, by simp⟩
  | cons first calls ih =>
    obtain ⟨before, answered⟩ := ih clean
    cases first with
    | cleanup call =>
      obtain ⟨earlier, ok⟩ := Bool.and_eq_true _ _ |>.mp before
      refine ⟨earlier, fun call' member => ?_⟩
      rcases List.mem_cons.mp member with same | later
      · obtain rfl := SourceCall.cleanup.inj same
        exact of_decide_eq_true ok
      · exact answered call' later
    | start result => exact ⟨before, by simpa using answered⟩
    | supportsStopRetry answer => exact ⟨before, by simpa using answered⟩

theorem Watch.see_late (m : Watch) (calls : List SourceCall) :
    (calls.foldl Watch.see m).late = m.late := by
  induction calls generalizing m with
  | nil => rfl
  | cons first calls ih =>
    rw [List.foldl_cons, ih]
    cases first <;> rfl

end Operations

/-! ### Runs -/

namespace System

/-- Nothing that the runtime publishes or has handed out tells of a fault. -/
structure Calm (s : System) : Prop where
  shared : s.shared.Calm
  workers : ∀ w ∈ s.workers, w.2.Calm
  calls : ∀ p ∈ s.calls, p.2.Calm

structure Harmless (s : System) (m : Watch) : Prop where
  flag : s.FlagFirst m
  workers : ∀ w ∈ s.workers, w.2.Unfailing s.shared m.late
  calm : m.clean = true → s.Calm

variable {platform : Platform} {s t : System} {m : Watch}

theorem Harmless.initial : ({} : System).Harmless {} where
  flag := .start (by simp)
  workers := by simp
  calm := fun _ => ⟨⟨⟨by simp, by simp⟩, rfl⟩, by simp, by simp⟩

theorem Harmless.call (h : s.Harmless m) (governed : s.Governed platform) {i : ℕ}
    {answers : Answers} (step : s.next platform (.call i answers) = some t) :
    t.Harmless (s.watch (.call i answers) m) := by
  refine ⟨h.flag.next governed step, ?_, ?_⟩
  · obtain ⟨caller, pc, shared, control, found, inside, rfl⟩ := next_call step
    have late : (s.watch (.call i answers) m).late = m.late := Watch.see_late ..
    rw [late]
    intro w member
    rcases List.mem_append.mp member with earlier | created
    · refine (h.workers w earlier).mono ((CallPc.step_flags inside).requested ?_)
      rintro rfl
      have vacant := (governed.fact (List.mem_of_getElem? found) rfl (by simp)).2.1
      simp [vacant.none_alive] at earlier
    · rw [CallPc.loopTest_of_spawned created]
      trivial
  · intro clean
    obtain ⟨before, answered⟩ := Watch.see_clean clean
    obtain ⟨caller, pc, shared, control, found, inside, rfl⟩ := next_call step
    have calm := h.calm before
    simp only [sourceCalls, found] at answered
    obtain ⟨calm', goes⟩ := CallPc.step_calm calm.shared (calm.calls _ (List.mem_of_getElem? found))
      answered inside
    refine ⟨calm', ?_, ?_⟩
    · intro w member
      rcases List.mem_append.mp member with earlier | created
      · exact calm.workers w earlier
      · rw [CallPc.loopTest_of_spawned created]
        trivial
    · intro p member
      rcases mem_of_mem_resume found member with earlier | own
      · exact calm.calls p earlier
      · cases control with
        | next pc' =>
          obtain rfl := List.mem_singleton.mp own
          exact goes pc' (List.mem_singleton.mpr rfl)
        | ret result => cases own

theorem Harmless.reader (h : s.Harmless m) {i : ℕ} {answers : Answers} {k : Choice}
    (governed : s.Governed platform) (reads : k = .reader i answers)
    (step : s.next platform k = some t) : t.Harmless (s.watch k m) := by
  have flag := h.flag.next governed step
  subst reads
  obtain ⟨caller, pc, found, rfl⟩ := next_reader step
  obtain ⟨d, published⟩ := pc.step_published answers s.shared
  refine ⟨flag, ?_, ?_⟩
  · intro w member
    refine (h.workers w member).mono fun up => ?_
    rw [published]
    exact up
  · intro clean
    have calm := h.calm clean
    refine ⟨⟨?_, ?_⟩, calm.workers, calm.calls⟩
    · cases pc with
      | sample => exact calm.shared.diagnostics
      | evaluate now => exact Shared.updateSilence_calm now calm.shared.diagnostics
    · rw [published]
      exact calm.shared.result

theorem Harmless.worker (h : s.Harmless m) (governed : s.Governed platform) {i : ℕ}
    {answers : Answers} (lawful : lawful (s, m) (.worker i answers) = true)
    (step : s.next platform (.worker i answers) = some t) :
    t.Harmless (s.watch (.worker i answers) m) := by
  have flag := h.flag.next governed step
  obtain ⟨id, pc, found, -, rfl⟩ := next_worker step
  have member := List.mem_of_getElem? found
  have alive : s.workers ≠ [] := List.ne_nil_of_mem member
  have own := h.workers _ member
  obtain ⟨-, resumed⟩ := governed.worker_alone found
  have watched : (s.watch (.worker i answers) m).late =
      if pc = .receive then s.stopBegun m else m.late := by
    simp only [watch, found, Option.any_some, decide_eq_true_eq]
    split_ifs <;> rfl
  have allowed : pc.lawful answers (s.stopBegun m) = true := by
    simpa only [System.lawful, found, Option.all_some] using lawful
  have requested (begun : s.stopBegun m = true) := h.flag.requested governed begun alive
  have unfailing : ∀ pc' ∈ (pc.step platform answers s.shared).2.live,
      pc'.Unfailing (pc.step platform answers s.shared).1 (s.watch (.worker i answers) m).late := by
    refine own.step platform ?_ ?_ allowed
    · intro elsewhere
      rw [watched, if_neg elsewhere]
    · rintro rfl cause
      rw [watched, if_pos rfl] at cause
      refine requested (cause.elim (fun failed => ?_) fun begun => begun)
      simpa [WorkerPc.lawful, failed] using allowed
  refine ⟨flag, ?_, ?_⟩
  · show ∀ w ∈ resume s.workers i _, _
    rw [resumed]
    exact Control.forall_mem_live_call (fun pc' next => unfailing pc' (by simp [next])) (by simp)
  · intro clean
    have kept : (s.watch (.worker i answers) m).clean = m.clean := by
      simp only [watch]
      split_ifs <;> rfl
    have calm := h.calm (kept.symm.trans clean)
    obtain ⟨published, goes⟩ :=
      own.step_calm platform answers (calm.workers _ member) calm.shared.diagnostics
    refine ⟨⟨published, pc.step_ownership.result.trans calm.shared.result⟩, ?_, calm.calls⟩
    show ∀ w ∈ resume s.workers i _, _
    rw [resumed]
    exact Control.forall_mem_live_call (fun pc' next => goes pc' (by simp [next])) (by simp)

theorem Harmless.next (h : s.Harmless m) (governed : s.Governed platform) {k : Choice}
    (lawful : lawful (s, m) k = true) (step : s.next platform k = some t) :
    t.Harmless (s.watch k m) := by
  cases k with
  | call i answers => exact h.call governed step
  | reader i answers => exact h.reader governed rfl step
  | worker i answers => exact h.worker governed lawful step
  | begin caller operation =>
    have flag := h.flag.next governed step
    obtain ⟨-, rfl⟩ := next_begin step
    refine ⟨flag, h.workers, fun clean => ⟨(h.calm clean).shared, (h.calm clean).workers, ?_⟩⟩
    intro p member
    rcases List.mem_append.mp member with earlier | own
    · exact (h.calm clean).calls p earlier
    · obtain rfl := List.mem_singleton.mp own
      cases operation <;> trivial
  | beginDestroy caller =>
    have flag := h.flag.next governed step
    obtain ⟨-, -, -, rfl⟩ := next_beginDestroy step
    refine ⟨flag, h.workers, fun clean => ⟨(h.calm clean).shared, (h.calm clean).workers, ?_⟩⟩
    simp [CallPc.Calm]
  | beginDiagnostics caller =>
    have flag := h.flag.next governed step
    obtain ⟨-, rfl⟩ := next_beginDiagnostics step
    exact ⟨flag, h.workers, fun clean =>
      ⟨(h.calm clean).shared, (h.calm clean).workers, (h.calm clean).calls⟩⟩

theorem harmless_of_run {ks : List Choice} {p : System × Watch}
    (run : exec (guarded lawful (watched (next platform) watch)) ({}, {}) ks = some p) :
    p.1.Governed platform ∧ p.1.Harmless p.2 := by
  refine exec_invariant (P := fun p : System × Watch => p.1.Governed platform ∧ p.1.Harmless p.2)
    ?_ run ⟨.initial platform, Harmless.initial⟩
  rintro p k q ⟨governed, harmless⟩ step
  obtain ⟨lawful, step⟩ := guarded_eq_some.mp step
  obtain ⟨step, seen⟩ := watched_eq_some.mp step
  rw [seen]
  exact ⟨governed.next step, harmless.next governed lawful step⟩

theorem Calm.reported (h : s.Calm) {k : Choice} {d : TransportDiagnostics}
    (reported : s.reported k = some d) : d.Calm := by
  cases k with
  | reader i answers =>
    obtain ⟨⟨caller, pc⟩, -, value⟩ := Option.bind_eq_some_iff.mp reported
    cases pc with
    | sample => cases value
    | evaluate now =>
      obtain rfl := Option.some.inj value
      exact Shared.updateSilence_calm now h.shared.diagnostics
  | _ => cases reported

/-- With a source that fails a receive() only after its stop() has begun, and a processor
that never fails: no worker stores Faulted, or anything else, in the lifecycle; a pass whose receive() returned after stop() had
begun makes no callback; and as long as the cleanup calls return Ok, neither the published
diagnostics, nor a snapshot for the observer, nor an answer of diagnostics() is Faulted. -/
theorem stopping_makes_no_fault {ks : List Choice} {s : System} {m : Watch}
    (run : exec (guarded lawful (watched (next platform) watch)) ({}, {}) ks = some (s, m)) :
    (∀ w ∈ s.workers, w.2 ≠ .storeFaulted) ∧
      (∀ i answers t, s.next platform (.worker i answers) = some t →
        t.shared.lifecycle = s.shared.lifecycle) ∧
      (m.late = true → ∀ w ∈ s.workers, ∀ pass snapshot, w.2 ≠ .process pass ∧
        w.2 ≠ .onFrameProcessed pass snapshot ∧ w.2 ≠ .onDiagnostics pass snapshot) ∧
      (m.clean = true → s.shared.diagnostics.Calm ∧
        (∀ w ∈ s.workers, ∀ pass snapshot, w.2 = .onFrameProcessed pass snapshot ∨
          w.2 = .onDiagnostics pass snapshot → snapshot.Calm) ∧
        ∀ k d, s.reported k = some d → d.Calm) := by
  obtain ⟨-, harmless⟩ := harmless_of_run run
  have faultless : ∀ w ∈ s.workers, w.2 ≠ .storeFaulted := by
    rintro ⟨id, pc⟩ member rfl
    exact harmless.workers _ member
  refine ⟨faultless, ?_, ?_, ?_⟩
  · intro i answers t step
    obtain ⟨id, pc, found, -, rfl⟩ := next_worker step
    exact WorkerPc.step_lifecycle (faultless _ (List.mem_of_getElem? found))
  · rintro late ⟨id, pc⟩ member pass snapshot
    have unfailing := harmless.workers _ member
    refine ⟨?_, ?_, ?_⟩
    · rintro rfl
      exact absurd (late.symm.trans unfailing.2) Bool.noConfusion
    · rintro rfl
      exact absurd (late.symm.trans unfailing.2) Bool.noConfusion
    · rintro rfl
      exact absurd (late.symm.trans unfailing.2) Bool.noConfusion
  · intro clean
    have calm := harmless.calm clean
    refine ⟨calm.shared.diagnostics, ?_, fun k d reported => calm.reported reported⟩
    rintro ⟨id, pc⟩ member pass snapshot (rfl | rfl)
    · exact calm.workers _ member
    · exact calm.workers _ member

/-- stop() is inside the stop() of the source, which fails the receive() it cancels; the
worker leaves, and stop() goes on to its end. -/
def cancelledReceive : List Choice :=
  [.begin none .start] ++ List.replicate 11 (.call 0 {}) ++ [.worker 0 {}, .begin none .stop] ++
    List.replicate 5 (.call 0 {}) ++ List.replicate 4 (.worker 0 { received := .fault }) ++
    List.replicate 5 (.call 0 {})

theorem cancelled_receive_harmless :
    ∃ s m, exec (guarded lawful (watched (next .host) watch)) ({}, {}) cancelledReceive =
        some (s, m) ∧ m.late = true ∧ s.calls.length = 0 ∧ s.shared.diagnostics.Calm := by
  have run := exec_eq_final (guarded lawful (watched (next .host) watch)) ({}, {}) cancelledReceive
    (by decide)
  exact ⟨_, _, run, by decide, by decide, ((stopping_makes_no_fault run).2.2.2 (by decide)).1⟩

end System

end CanTelemetry.VehicleTelemetry
