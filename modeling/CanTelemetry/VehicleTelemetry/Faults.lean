import CanTelemetry.VehicleTelemetry.Ownership

/-! What diagnostics() reports after acquisition has failed. The worker records a fault
in the diagnostics first and stores Faulted in the lifecycle after the observer's
callbacks. In between the lifecycle is still Running, so a diagnostics() call that finds
the last frame old enough replaces the recorded fault by a silence. Nothing else does
until stop() publishes its own diagnostics. -/

namespace CanTelemetry.VehicleTelemetry

open Execution Threads VehicleCore

/-- `snapshot_and_update` records a failure of the source or of the processor. -/
def Pass.recordsFault (pass : Pass) : Bool :=
  pass.status = .fault || pass.status = .notStarted ||
    (pass.status = .frame && pass.result = some .fault)

def TransportDiagnostics.faulted (d : TransportDiagnostics) : Bool :=
  d.lifecycle = .faulted && d.transport = .faulted

/-- A silence would be found now, in a runtime that has recorded a fault. -/
def Shared.hidesFault (sh : Shared) (now : MonotonicTimestamp) : Bool :=
  sh.diagnostics.lifecycle = .faulted && sh.lifecycle = .running && sh.diagnostics.hasLastFrame &&
    sh.silent now

/-- stop() publishes diagnostics of its own. -/
def CallPc.publishes : CallPc → Bool
  | .stop .diagnosePartial | .stop .diagnoseStopping | .stop (.conclude (.diagnose _ _)) => true
  | _ => false

namespace System

/-- The worker's step that records a fault. -/
def recordsFault (s : System) : Choice → Bool
  | .worker i _ => s.workers[i]?.any fun w => match w.2 with
    | .update pass _ _ => pass.recordsFault
    | _ => false
  | _ => false

/-- A diagnostics() call that has sampled the clock looks for a silence while the fault is
recorded and the lifecycle is still Running, and finds one. -/
def hidesFault (s : System) : Choice → Bool
  | .reader i _ => s.readers[i]?.any fun r => match r.2 with
    | .evaluate now => s.shared.hidesFault now
    | .sample => false
  | _ => false

/-- The fault is what diagnostics() has to report until stop() publishes. -/
def beforeStop (s : System) : Choice → Bool
  | .call i _ => !s.calls[i]?.any fun p => p.2.publishes
  | _ => true

def reports (s : System) (k : Choice) : List TransportDiagnostics := (s.reported k).toList

end System

/-! ### What is left to happen after a fault -/

/-- The worker that has recorded a fault is on its way out of the loop. -/
def WorkerPc.AfterFault (sh : Shared) : WorkerPc → Prop
  | .onFrameProcessed pass _ | .onDiagnostics pass _ => pass.faults = true
  | .loopTest => sh.stopRequested = true
  | .storeFaulted | .requestStop | .clearTask | .clearActive => True
  | _ => False

/-- A start() that has created its worker, or that is refused, publishes nothing. -/
def StartPc.silent : StartPc → Bool
  | .enter | .assignWorker _ | .conclude (.release _) => true
  | _ => false

def CallPc.silent : CallPc → Bool
  | .start pc => pc.silent
  | _ => true

theorem Pass.faults_of_records {pass : Pass} (h : pass.recordsFault = true) :
    pass.faults = true := by
  simp only [recordsFault, Bool.or_eq_true, Bool.and_eq_true, decide_eq_true_eq] at h
  simp only [faults, Bool.or_eq_true, decide_eq_true_eq]
  rcases h with h | ⟨-, h⟩
  · exact .inl h
  · exact .inr h

/-- Recording a fault publishes it. -/
theorem Shared.snapshotAndUpdate_faulted (sh : Shared) {pass : Pass}
    (statistics : AcquisitionStatistics) (timeoutNow : MonotonicTimestamp)
    (h : pass.recordsFault = true) :
    (sh.snapshotAndUpdate pass statistics timeoutNow).diagnostics.faulted = true := by
  obtain ⟨status, frame, time, result⟩ := pass
  cases status with
  | frame =>
    have fault : result = some .fault := by simpa [Pass.recordsFault] using h
    subst fault
    rfl
  | timeout => simp [Pass.recordsFault] at h
  | fault => rfl
  | notStarted => rfl

/-- A silence is looked for and not found, or found and published over the fault. -/
theorem Shared.updateSilence_of_calm {sh : Shared} {now : MonotonicTimestamp}
    (recorded : sh.diagnostics.faulted = true) (calm : sh.hidesFault now = false) :
    sh.updateSilenceDiagnosticLocked now = sh := by
  simp only [TransportDiagnostics.faulted, Bool.and_eq_true, decide_eq_true_eq] at recorded
  unfold updateSilenceDiagnosticLocked
  split_ifs with unwatched found
  · rfl
  · simp only [ne_eq, not_or, not_not, Bool.not_eq_false] at unwatched
    simp [hidesFault, recorded.1, unwatched.1, unwatched.2, found] at calm
  · rfl

theorem Shared.updateSilence_of_hides {sh : Shared} {now : MonotonicTimestamp}
    (hides : sh.hidesFault now = true) :
    (sh.updateSilenceDiagnosticLocked now).diagnostics.transport = .timedOut := by
  simp only [hidesFault, Bool.and_eq_true, decide_eq_true_eq] at hides
  obtain ⟨⟨⟨-, running⟩, seen⟩, silent⟩ := hides
  simp [updateSilenceDiagnosticLocked, running, seen, silent]

section Facts

variable {platform : Platform} {sh : Shared} {workers : List (ℕ × WorkerPc)}

theorem StartPc.Fact.silent {pc : StartPc} (h : pc.Fact platform sh workers)
    (alive : workers ≠ []) : pc.silent = true := by
  cases pc with
  | enter => rfl
  | assignWorker id => rfl
  | conclude pc =>
    cases pc with
    | release result => rfl
    | store clean result => exact absurd h.1.none_alive alive
    | diagnose clean result => exact absurd h.1.none_alive alive
  | _ => exact absurd h.1.none_alive alive

theorem StartPc.Fact.live {pc : StartPc} (operating : pc.operating = true)
    (h : pc.Fact platform sh workers) (alive : workers ≠ []) : sh.lifecycle ≠ .stopped := by
  cases pc with
  | enter => exact absurd operating (by decide)
  | assignWorker id => exact h.2.2.2.2
  | conclude pc =>
    cases pc with
    | release result => exact fun stopped => alive (AtRest.stopped h stopped).1.none_alive
    | store clean result => exact absurd h.1.none_alive alive
    | diagnose clean result => exact absurd h.1.none_alive alive
  | _ => exact absurd h.1.none_alive alive

theorem StopPc.Fact.live {pc : StopPc} (operating : pc.operating = true)
    (h : pc.Fact platform sh workers) (alive : workers ≠ []) : sh.lifecycle ≠ .stopped := by
  cases pc with
  | testSelf => exact absurd operating (by decide)
  | enter => exact absurd operating (by decide)
  | diagnosePartial => exact absurd h.1.none_alive alive
  | partialCleanup pc => exact absurd h.1.none_alive alive
  | diagnoseStopping | requestStop => exact h.1.live
  | sourceStop pc => exact h.1.live
  | join result => exact h.2.1.live
  | awaitWorker waited result => exact h.2.1.live
  | lastLook result => exact h.2.1.live
  | conclude pc =>
    cases pc with
    | release result => exact fun stopped => alive (AtRest.stopped h.1 stopped).1.none_alive
    | store clean result => exact absurd h.1.1.none_alive alive
    | diagnose clean result => exact absurd h.1.1.none_alive alive

theorem CallPc.Fact.live {pc : CallPc} (operating : pc.operating = true)
    (h : pc.Fact platform sh workers) (alive : workers ≠ []) : sh.lifecycle ≠ .stopped := by
  cases pc with
  | configure config => simp [CallPc.operating] at operating
  | start pc => exact StartPc.Fact.live operating h alive
  | stop pc => exact StopPc.Fact.live operating h alive
  | destroy pc => exact absurd h id

end Facts

section Steps

variable {platform : Platform} {answers : Answers} {sh sh' : Shared}

theorem WorkerPc.AfterFault.mono {pc : WorkerPc} (h : pc.AfterFault sh)
    (requested : sh.stopRequested = true → sh'.stopRequested = true) : pc.AfterFault sh' := by
  cases pc <;> first | exact h | exact requested h

/-- After a fault the worker publishes nothing more and stores Faulted at most. -/
theorem WorkerPc.AfterFault.step {pc : WorkerPc} (h : pc.AfterFault sh) (platform : Platform)
    (answers : Answers) :
    (pc.step platform answers sh).1.diagnostics = sh.diagnostics ∧
      (sh.stopRequested = true → (pc.step platform answers sh).1.stopRequested = true) ∧
      ((pc.step platform answers sh).1.lifecycle = sh.lifecycle ∨
        (pc.step platform answers sh).1.lifecycle = .faulted) ∧
      ∀ pc' ∈ (pc.step platform answers sh).2.live,
        pc'.AfterFault (pc.step platform answers sh).1 := by
  have leaves : (exit platform).AfterFault sh := by cases platform <;> trivial
  cases pc with
  | loopTest =>
    refine ⟨rfl, fun h => h, .inl rfl, ?_⟩
    have requested : sh.stopRequested = true := h
    simpa [WorkerPc.step, requested] using leaves
  | onFrameProcessed pass snapshot =>
    exact ⟨rfl, fun h => h, .inl rfl, by simpa [WorkerPc.step, AfterFault] using h⟩
  | onDiagnostics pass snapshot =>
    have faults : pass.faults = true := h
    exact ⟨rfl, fun h => h, .inl rfl, by simp [WorkerPc.step, faults, AfterFault]⟩
  | storeFaulted => exact ⟨rfl, fun h => h, .inr rfl, by simp [WorkerPc.step, AfterFault]⟩
  | requestStop => exact ⟨rfl, fun _ => rfl, .inl rfl, by simp [WorkerPc.step, AfterFault]⟩
  | clearTask => exact ⟨rfl, fun h => h, .inl rfl, by simp [WorkerPc.step, AfterFault]⟩
  | clearActive => exact ⟨rfl, fun h => h, .inl rfl, by simp [WorkerPc.step]⟩
  | _ => exact absurd h id

/-- Diagnostics are not published, and a request to stop stays. -/
structure Shared.Quiet (sh sh' : Shared) : Prop where
  diagnostics : sh'.diagnostics = sh.diagnostics
  requested : sh.stopRequested = true → sh'.stopRequested = true

theorem Shared.Quiet.of_cleans (h : sh.Cleans sh') : sh.Quiet sh' :=
  ⟨h.diagnostics, fun requested => h.stopRequested.trans requested⟩

theorem StartPc.step_silent {pc : StartPc} {fresh : ℕ} {control : Control StartPc ResultCode}
    (silent : pc.silent = true)
    (refused : sh.lifecycleOperationActive = true ∨ sh.lifecycle ≠ .stopped)
    (step : pc.step platform fresh answers sh = some (sh', control)) :
    sh.Quiet sh' ∧ sh'.lifecycle = sh.lifecycle ∧ ∀ pc' ∈ control.live, pc'.silent = true := by
  cases pc with
  | enter =>
    simp only [StartPc.step] at step
    split_ifs at step with invalid active state
    · obtain ⟨rfl, rfl⟩ := Prod.mk.inj (Option.some.inj step)
      exact ⟨⟨rfl, fun h => h⟩, rfl, by simp⟩
    · obtain ⟨rfl, rfl⟩ := Prod.mk.inj (Option.some.inj step)
      exact ⟨⟨rfl, fun h => h⟩, rfl, by simp⟩
    · obtain ⟨rfl, rfl⟩ := Prod.mk.inj (Option.some.inj step)
      exact ⟨⟨rfl, fun h => h⟩, rfl, by simp⟩
    · exact absurd (not_not.mp state) (refused.resolve_left active)
  | assignWorker id =>
    simp only [StartPc.step] at step
    split_ifs at step
    obtain ⟨rfl, rfl⟩ := Prod.mk.inj (Option.some.inj step)
    exact ⟨⟨rfl, fun h => h⟩, rfl, by simp [StartPc.silent]⟩
  | conclude pc =>
    cases pc with
    | release result =>
      obtain ⟨rfl, rfl⟩ := Prod.mk.inj (Option.some.inj step)
      exact ⟨⟨rfl, fun h => h⟩, rfl, by simp [ConcludePc.step]⟩
    | store clean result => exact absurd silent (by simp [StartPc.silent])
    | diagnose clean result => exact absurd silent (by simp [StartPc.silent])
  | _ => exact absurd silent (by simp [StartPc.silent])

/-- Before stop() publishes, Stopped is stored only on the way to publishing it. -/
theorem StopPc.step_silent {pc : StopPc} {caller : Caller} {running : List ℕ}
    {control : Control StopPc ResultCode} (silent : (CallPc.stop pc).publishes = false)
    (step : pc.step platform caller running answers sh = some (sh', control)) :
    sh.Quiet sh' ∧ (sh'.lifecycle = .stopped → sh.lifecycle = .stopped ∨
      ∃ clean result, control = .next (.conclude (.diagnose clean result))) := by
  cases pc with
  | testSelf =>
    obtain ⟨rfl, -⟩ := Prod.mk.inj (Option.some.inj step)
    exact ⟨⟨rfl, fun h => h⟩, .inl⟩
  | enter =>
    simp only [StopPc.step] at step
    split_ifs at step <;> obtain ⟨rfl, -⟩ := Prod.mk.inj (Option.some.inj step)
    · exact ⟨⟨rfl, fun h => h⟩, .inl⟩
    · exact ⟨⟨rfl, fun h => h⟩, .inl⟩
    · exact ⟨⟨rfl, fun h => h⟩, by simp⟩
    · exact ⟨⟨rfl, fun h => h⟩, by simp⟩
  | diagnosePartial => simp [CallPc.publishes] at silent
  | diagnoseStopping => simp [CallPc.publishes] at silent
  | partialCleanup pc =>
    obtain ⟨rfl, -⟩ := Prod.mk.inj (Option.some.inj step)
    have cleans := pc.stepPartialStart_cleans sh answers.result
    exact ⟨.of_cleans cleans, fun stopped => .inl (cleans.lifecycle.symm.trans stopped)⟩
  | requestStop =>
    obtain ⟨rfl, -⟩ := Prod.mk.inj (Option.some.inj step)
    exact ⟨⟨rfl, fun _ => rfl⟩, .inl⟩
  | sourceStop pc =>
    obtain ⟨rfl, -⟩ := Prod.mk.inj (Option.some.inj step)
    have cleans := pc.stepSourceStop_cleans sh answers.result
    exact ⟨.of_cleans cleans, fun stopped => .inl (cleans.lifecycle.symm.trans stopped)⟩
  | join result =>
    obtain ⟨joined, join, same⟩ := Option.map_eq_some_iff.mp step
    obtain ⟨rfl, -⟩ := Prod.mk.inj same
    obtain ⟨rfl, -⟩ := Shared.join_eq_some join
    exact ⟨⟨rfl, fun h => h⟩, .inl⟩
  | awaitWorker waited result =>
    obtain ⟨rfl, -⟩ := Prod.mk.inj (Option.some.inj step)
    exact ⟨⟨rfl, fun h => h⟩, .inl⟩
  | lastLook result =>
    obtain ⟨rfl, -⟩ := Prod.mk.inj (Option.some.inj step)
    exact ⟨⟨rfl, fun h => h⟩, .inl⟩
  | conclude pc =>
    obtain ⟨rfl, rfl⟩ := Prod.mk.inj (Option.some.inj step)
    cases pc with
    | store clean result => exact ⟨⟨rfl, fun h => h⟩, fun _ => .inr ⟨clean, result, rfl⟩⟩
    | diagnose clean result => simp [CallPc.publishes] at silent
    | release result => exact ⟨⟨rfl, fun h => h⟩, .inl⟩

theorem DestroyPc.Does.silent {running : List ℕ} (does : Does platform running sh sh') :
    sh.Quiet sh' ∧ sh'.lifecycle = sh.lifecycle := by
  cases does with
  | nothing => exact ⟨⟨rfl, fun h => h⟩, rfl⟩
  | requests => exact ⟨⟨rfl, fun _ => rfl⟩, rfl⟩
  | cleans sh' cleans unowned => exact ⟨.of_cleans cleans, cleans.lifecycle⟩
  | joins host finished => exact ⟨⟨rfl, fun h => h⟩, rfl⟩

/-- One step of a call that has nothing to publish. -/
theorem CallPc.step_silent {pc : CallPc} {caller : Caller} {fresh : ℕ} {running : List ℕ}
    {control : Control CallPc (Option ResultCode)} (silent : pc.silent = true)
    (waiting : pc.publishes = false)
    (refused : sh.lifecycleOperationActive = true ∨ sh.lifecycle ≠ .stopped)
    (step : pc.step platform caller fresh running answers sh = some (sh', control)) :
    sh.Quiet sh' ∧ pc.spawned fresh answers = [] ∧ (∀ pc' ∈ control.live, pc'.silent = true) ∧
      (sh'.lifecycle = .stopped → sh.lifecycle = .stopped ∨
        ∃ clean result, control = .next (.stop (.conclude (.diagnose clean result)))) := by
  have spawns : pc.spawned fresh answers = [] := by
    refine spawned_eq_nil fresh answers ?_
    rintro rfl
    simp [CallPc.silent, StartPc.silent] at silent
  cases pc with
  | configure config =>
    have outcome := Option.some.inj step
    split_ifs at outcome <;> obtain ⟨rfl, rfl⟩ := Prod.mk.inj outcome <;>
      exact ⟨⟨rfl, fun h => h⟩, rfl, by simp, .inl⟩
  | start pc =>
    obtain ⟨⟨shared, inner⟩, inside, same⟩ := Option.map_eq_some_iff.mp step
    obtain ⟨rfl, rfl⟩ := Prod.mk.inj same
    obtain ⟨quiet, lifecycle, goes⟩ := StartPc.step_silent silent refused inside
    refine ⟨quiet, spawns, ?_, fun stopped => .inl (lifecycle.symm.trans stopped)⟩
    cases inner with
    | next pc' => simpa [CallPc.silent] using goes
    | ret result => simp
  | stop pc =>
    obtain ⟨⟨shared, inner⟩, inside, same⟩ := Option.map_eq_some_iff.mp step
    obtain ⟨rfl, rfl⟩ := Prod.mk.inj same
    obtain ⟨quiet, stores⟩ := StopPc.step_silent waiting inside
    refine ⟨quiet, rfl, ?_, fun stopped => ?_⟩
    · cases inner <;> simp [CallPc.silent]
    · rcases stores stopped with before | ⟨clean, result, rfl⟩
      · exact .inl before
      · exact .inr ⟨clean, result, rfl⟩
  | destroy pc =>
    obtain ⟨⟨shared, inner⟩, inside, same⟩ := Option.map_eq_some_iff.mp step
    obtain ⟨rfl, rfl⟩ := Prod.mk.inj same
    obtain ⟨quiet, lifecycle⟩ := (DestroyPc.step_does inside).silent
    refine ⟨quiet, rfl, ?_, fun stopped => .inl (lifecycle.symm.trans stopped)⟩
    cases inner <;> simp [CallPc.silent]

end Steps

/-! ### From the fault to the next stop() -/

namespace System

/-- The fault is recorded, and nobody is left who would publish anything but stop(). -/
structure Faulty (s : System) : Prop where
  recorded : s.shared.diagnostics.faulted = true
  workers : ∀ w ∈ s.workers, w.2.AfterFault s.shared
  calls : ∀ p ∈ s.calls, p.2.silent = true
  stopped : s.shared.lifecycle = .stopped →
    ∃ caller clean result, (caller, .stop (.conclude (.diagnose clean result))) ∈ s.calls

variable {platform : Platform} {s t : System} {k : Choice}

/-- A runtime with a worker is not Stopped. -/
theorem Governed.live (h : s.Governed platform) (alive : s.workers ≠ []) :
    s.shared.lifecycle ≠ .stopped := by
  intro stopped
  cases h with
  | usable usable held =>
    cases held with
    | free idle rest => exact alive (rest.2.stopped stopped).1.none_alive
    | taken before after p split before_idle after_idle operating fact =>
      exact fact.2.live operating alive stopped
  | gone destroyed only inactive ended => exact alive (ended.stopped stopped).1.none_alive

theorem Governed.silent (h : s.Governed platform) (alive : s.workers ≠ []) :
    ∀ p ∈ s.calls, p.2.silent = true := by
  rintro ⟨caller, pc⟩ member
  cases pc with
  | start pc =>
    cases operating : pc.operating with
    | true => exact StartPc.Fact.silent (h.fact member operating (by simp)).2 alive
    | false =>
      have at_enter : pc = .enter := by simpa [StartPc.operating] using operating
      subst at_enter
      rfl
  | _ => rfl

theorem Faulty.refused (h : s.Faulty) (governed : s.Governed platform) :
    s.shared.lifecycleOperationActive = true ∨ s.shared.lifecycle ≠ .stopped := by
  by_cases stopped : s.shared.lifecycle = .stopped
  · obtain ⟨caller, clean, result, member⟩ := h.stopped stopped
    exact .inl (governed.fact member rfl (by simp)).1
  · exact .inr stopped

/-- The fault is recorded while its worker is alive, so no start() has anything left to
publish. -/
theorem Governed.recorded (h : s.Governed platform) (records : s.recordsFault k = true)
    (step : s.next platform k = some t) : t.Faulty := by
  cases k with
  | worker i answers =>
    obtain ⟨id, pc, found, -, rfl⟩ := next_worker step
    simp only [recordsFault, found, Option.any_some] at records
    cases pc with
    | update pass statistics timeoutNow =>
      have alive : s.workers ≠ [] := List.ne_nil_of_mem (List.mem_of_getElem? found)
      obtain ⟨d, published⟩ := s.shared.snapshotAndUpdate_eq pass statistics timeoutNow
      refine ⟨s.shared.snapshotAndUpdate_faulted statistics timeoutNow records, ?_, ?_, ?_⟩
      · obtain ⟨-, resumed⟩ := h.worker_alone found
        rw [resumed]
        have faults := Pass.faults_of_records records
        intro w member
        obtain rfl := List.mem_singleton.mp member
        dsimp only
        split_ifs
        · exact faults
        · exact faults
      · intro p member
        exact h.silent alive p member
      · intro stopped
        have same : s.shared.lifecycle = .stopped := by
          simpa [WorkerPc.step, published] using stopped
        exact absurd same (h.live alive)
    | _ => exact absurd records Bool.false_ne_true
  | _ => exact absurd records Bool.false_ne_true

theorem Faulty.call (h : s.Faulty) (governed : s.Governed platform) {i : ℕ} {answers : Answers}
    (before : s.beforeStop (.call i answers) = true)
    (step : s.next platform (.call i answers) = some t) : t.Faulty := by
  obtain ⟨caller, pc, shared, control, found, inside, rfl⟩ := next_call step
  have waiting : pc.publishes = false := by simpa [beforeStop, found] using before
  obtain ⟨quiet, spawns, goes, stores⟩ := CallPc.step_silent
    (h.calls _ (List.mem_of_getElem? found)) waiting (h.refused governed) inside
  refine ⟨?_, ?_, ?_, ?_⟩
  · rw [quiet.diagnostics]
    exact h.recorded
  · rw [spawns, List.append_nil]
    exact fun w member => (h.workers w member).mono quiet.requested
  · intro p member
    rcases mem_of_mem_resume found member with earlier | own
    · exact h.calls p earlier
    · cases control with
      | next pc' =>
        obtain rfl := List.mem_singleton.mp own
        exact goes pc' (by simp)
      | ret result => simp at own
  · intro stopped
    rcases stores stopped with before | ⟨clean, result, rfl⟩
    · obtain ⟨other, clean, result, member⟩ := h.stopped before
      refine ⟨other, clean, result, mem_resume_of_ne _ found member ?_⟩
      rintro ⟨rfl, rfl⟩
      simp [CallPc.publishes] at waiting
    · refine ⟨caller, clean, result, ?_⟩
      show _ ∈ resume s.calls i (.next (caller, _) : Control (Caller × CallPc) (Option ResultCode))
      exact mem_resume_live found (List.mem_singleton.mpr rfl)

theorem Faulty.worker (h : s.Faulty) {i : ℕ} {answers : Answers}
    (step : s.next platform (.worker i answers) = some t) : t.Faulty := by
  obtain ⟨id, pc, found, -, rfl⟩ := next_worker step
  obtain ⟨quiet, requested, stores, goes⟩ :=
    (h.workers _ (List.mem_of_getElem? found)).step platform answers
  refine ⟨?_, ?_, h.calls, ?_⟩
  · rw [quiet]
    exact h.recorded
  · intro w member
    rcases mem_of_mem_resume found member with earlier | own
    · exact (h.workers w earlier).mono requested
    · generalize (pc.step platform answers s.shared).2 = control at own goes
      cases control with
      | next pc' =>
        obtain rfl := List.mem_singleton.mp own
        exact goes pc' (by simp)
      | ret value => simp at own
  · intro stopped
    rcases stores with same | faulted
    · exact h.stopped (same.symm.trans stopped)
    · exact absurd (faulted.symm.trans stopped) (by decide)

/-- Without a silence to be found, a reader changes nothing. -/
theorem Faulty.reader_unchanged (h : s.Faulty) {i : ℕ} {answers : Answers} {caller : Caller}
    {pc : DiagnosticsPc} (found : s.readers[i]? = some (caller, pc))
    (calm : s.hidesFault (.reader i answers) = false) : (pc.step answers s.shared).1 = s.shared := by
  cases pc with
  | sample => rfl
  | evaluate now =>
    simp only [hidesFault, found, Option.any_some] at calm
    exact Shared.updateSilence_of_calm h.recorded calm

theorem Faulty.next (h : s.Faulty) (governed : s.Governed platform)
    (before : s.beforeStop k = true) (calm : s.hidesFault k = false)
    (step : s.next platform k = some t) : t.Faulty := by
  cases k with
  | begin caller operation =>
    obtain ⟨-, rfl⟩ := next_begin step
    refine ⟨h.recorded, h.workers, ?_, fun stopped => ?_⟩
    · intro p member
      rcases List.mem_append.mp member with earlier | own
      · exact h.calls p earlier
      · obtain rfl := List.mem_singleton.mp own
        cases operation <;> rfl
    · obtain ⟨other, clean, result, member⟩ := h.stopped stopped
      exact ⟨other, clean, result, List.mem_append_left _ member⟩
  | beginDestroy caller =>
    obtain ⟨-, quiet, -, rfl⟩ := next_beginDestroy step
    refine ⟨h.recorded, h.workers, by simp [CallPc.silent], fun stopped => ?_⟩
    obtain ⟨other, clean, result, member⟩ := h.stopped stopped
    simp [quiet] at member
  | beginDiagnostics caller =>
    obtain ⟨-, rfl⟩ := next_beginDiagnostics step
    exact ⟨h.recorded, h.workers, h.calls, h.stopped⟩
  | call i answers => exact h.call governed before step
  | reader i answers =>
    obtain ⟨caller, pc, found, rfl⟩ := next_reader step
    rw [h.reader_unchanged found calm]
    exact ⟨h.recorded, h.workers, h.calls, h.stopped⟩
  | worker i answers => exact h.worker step

/-- What diagnostics() reports while the fault is recorded. -/
theorem faulty_reports_iff (h : s.Faulty) :
    (∀ d ∈ s.reports k, d.faulted = true) ↔ s.hidesFault k = false := by
  cases k with
  | reader i answers =>
    cases found : s.readers[i]? with
    | none => simp [reports, reported, hidesFault, found]
    | some r =>
      obtain ⟨caller, pc⟩ := r
      cases pc with
      | sample => simp [reports, reported, hidesFault, found, DiagnosticsPc.step]
      | evaluate now =>
        have result : s.reports (.reader i answers) =
            [(s.shared.updateSilenceDiagnosticLocked now).diagnostics] := by
          simp [reports, reported, found, DiagnosticsPc.step]
        have hides : s.hidesFault (.reader i answers) = s.shared.hidesFault now := by
          simp [hidesFault, found]
        rw [result, hides, List.forall_mem_singleton]
        cases silence : s.shared.hidesFault now with
        | false => simpa [Shared.updateSilence_of_calm h.recorded silence] using h.recorded
        | true =>
          simp [TransportDiagnostics.faulted, Shared.updateSilence_of_hides silence]
  | _ => simp [reports, reported, hidesFault]

/-- From a recorded fault on, as long as stop() has not published. -/
theorem exec_faulty_iff {ks : List Choice} (h : s.Faulty) (governed : s.Governed platform)
    (run : exec (guarded beforeStop (next platform)) s ks = some t) :
    (∀ d ∈ trace (next platform) reports s ks, d.faulted = true) ↔
      exec (guarded (fun s k => !s.hidesFault k) (next platform)) s ks = some t := by
  induction ks generalizing s with
  | nil => simpa [trace] using run
  | cons k ks ih =>
    obtain ⟨u, first, rest⟩ := exec_cons_eq_some.mp run
    obtain ⟨before, step⟩ := guarded_eq_some.mp first
    rw [trace_cons step, List.forall_mem_append, faulty_reports_iff h, exec_cons_eq_some]
    constructor
    · rintro ⟨calm, later⟩
      have faulty := h.next governed before calm step
      exact ⟨u, guarded_eq_some.mpr ⟨by simp [calm], step⟩,
        (ih faulty (governed.next step) rest).mp later⟩
    · rintro ⟨v, first', rest'⟩
      obtain ⟨allowed, step'⟩ := guarded_eq_some.mp first'
      obtain rfl := Option.some.inj (step.symm.trans step')
      have calm : s.hidesFault k = false := by simpa using allowed
      have faulty := h.next governed before calm step
      exact ⟨calm, (ih faulty (governed.next step) rest).mpr rest'⟩

variable {before during : List Choice} {u : System}

/-- After a fault is recorded, every diagnostics() until stop() publishes reports it, in
the transport and in the lifecycle, exactly when none of them finds a silence while the
lifecycle is still Running. -/
theorem fault_reported_iff (start : exec (next platform) {} before = some s)
    (records : s.recordsFault k = true) (step : s.next platform k = some t)
    (run : exec (guarded beforeStop (next platform)) t during = some u) :
    (∀ d ∈ trace (next platform) reports t during,
        d.transport = .faulted ∧ d.lifecycle = .faulted) ↔
      exec (guarded (fun s k => !s.hidesFault k) (next platform)) t during = some u := by
  have governed := exec_governed start
  rw [← exec_faulty_iff (governed.recorded records step) (governed.next step) run]
  simp only [TransportDiagnostics.faulted, Bool.and_eq_true, decide_eq_true_eq, and_comm]

/-- start(), and a worker that is about to record that the processor failed on a frame. -/
def processorFails : List Choice :=
  [.begin none .start] ++ List.replicate 11 (.call 0 {}) ++
    List.replicate 6 (.worker 0 { received := .frame, processed := .fault })

def processorFailed : System := final (next .host) {} (processorFails ++ [.worker 0 {}])

/-- The observer asks for the diagnostics from its callback. -/
def observed (now : MonotonicTimestamp) : List Choice :=
  [.worker 0 {}, .beginDiagnostics (some 0), .reader 0 { now := now }, .reader 0 {}]

/-- Less than the silence timeout after the frame, the fault is reported. -/
theorem fault_reported_within_timeout :
    (trace (next .host) reports processorFailed (observed 999999)).length = 1 ∧
      ∀ d ∈ trace (next .host) reports processorFailed (observed 999999),
        d.transport = .faulted ∧ d.lifecycle = .faulted := by
  have start := exec_eq_final (next .host) {} processorFails (by decide)
  have step : (final (next .host) {} processorFails).next .host (.worker 0 {}) =
      some processorFailed := by decide
  have run := exec_eq_final (guarded beforeStop (next .host)) processorFailed (observed 999999)
    (by decide)
  exact ⟨by decide, (fault_reported_iff start (by decide) step run).mpr (by decide)⟩

/-- Once the timeout has passed since the frame, the observer is told of a silence. -/
theorem silence_hides_fault :
    exec (next .host) {} (processorFails ++ [.worker 0 {}]) = some processorFailed ∧
      (final (next .host) {} processorFails).recordsFault (.worker 0 {}) = true ∧
      (exec (guarded beforeStop (next .host)) processorFailed (observed 1000000)).isSome = true ∧
      ¬∀ d ∈ trace (next .host) reports processorFailed (observed 1000000),
        d.transport = .faulted ∧ d.lifecycle = .faulted := by
  exact ⟨exec_eq_final _ _ _ (by decide), by decide, by decide, by decide⟩

end System

end CanTelemetry.VehicleTelemetry
