import CanTelemetry.Foundation.Holder
import CanTelemetry.VehicleTelemetry.Runtime

/-! What an operation on the runtime may rely on at each point. One operation at a time
works on the runtime. Between operations the source's ownership is settled and, in the
Stopped state, nothing is owned and no worker exists; while an operation works, what is
known about the source and the worker depends on where it stands. -/

namespace CanTelemetry.VehicleTelemetry

open Execution Threads VehicleCore

/-! ### Ownership of the source -/

/-- Nothing of the source is owned. -/
structure Shared.Unowned (sh : Shared) : Prop where
  started : sh.sourceStarted = false
  ownership : sh.sourceOwnership = .none
  called : sh.sourceStopCalled = false

/-- The fields of the ownership agree, and a cleanup that is still owed has failed. -/
structure Shared.Settled (sh : Shared) : Prop where
  none : sh.sourceOwnership = .none → sh.Unowned
  owned : sh.sourceOwnership ≠ .none → sh.sourceStarted = true
  stop : sh.sourceOwnership = .successfulStart → sh.sourceStopCalled = true →
    sh.sourceStopResult ≠ .ok
  cleanup : sh.sourceOwnership = .partialStart → 2 ≤ sh.partialCleanupAttempts →
    sh.sourceStopResult ≠ .ok

/-- The source has just been started and nothing was stopped. -/
structure Shared.Fresh (sh : Shared) : Prop where
  started : sh.sourceStarted = true
  ownership : sh.sourceOwnership = .successfulStart
  called : sh.sourceStopCalled = false

/-- The source's ownership has not changed. -/
structure Shared.SameSource (sh sh' : Shared) : Prop where
  started : sh'.sourceStarted = sh.sourceStarted
  ownership : sh'.sourceOwnership = sh.sourceOwnership
  called : sh'.sourceStopCalled = sh.sourceStopCalled
  attempts : sh'.partialCleanupAttempts = sh.partialCleanupAttempts
  result : sh'.sourceStopResult = sh.sourceStopResult

/-- Only fields of the source's ownership differ. -/
structure Shared.Cleans (sh sh' : Shared) : Prop where
  active : sh'.lifecycleOperationActive = sh.lifecycleOperationActive
  config : sh'.config = sh.config
  diagnostics : sh'.diagnostics = sh.diagnostics
  lifecycle : sh'.lifecycle = sh.lifecycle
  stopRequested : sh'.stopRequested = sh.stopRequested
  workerActive : sh'.workerActive = sh.workerActive
  worker : sh'.worker = sh.worker

namespace Shared

variable {sh sh' : Shared}

theorem Unowned.settled (h : sh.Unowned) : sh.Settled :=
  ⟨fun _ => h, fun owned => absurd h.ownership owned,
    fun started => by simp [h.ownership] at started,
    fun started => by simp [h.ownership] at started⟩

theorem Fresh.settled (h : sh.Fresh) : sh.Settled :=
  ⟨fun unowned => by simp [h.ownership] at unowned, fun _ => h.started,
    fun _ called => by simp [h.called] at called,
    fun started => by simp [h.ownership] at started⟩

theorem Fresh.not_partial (h : sh.Fresh) : sh.sourceOwnership ≠ .partialStart := by
  simp [h.ownership]

theorem forgetSource_unowned (sh : Shared) : sh.forgetSource.Unowned := ⟨rfl, rfl, rfl⟩

namespace SameSource

theorem unowned (h : sh.SameSource sh') (unowned : sh.Unowned) : sh'.Unowned :=
  ⟨h.started.trans unowned.started, h.ownership.trans unowned.ownership,
    h.called.trans unowned.called⟩

theorem fresh (h : sh.SameSource sh') (fresh : sh.Fresh) : sh'.Fresh :=
  ⟨h.started.trans fresh.started, h.ownership.trans fresh.ownership, h.called.trans fresh.called⟩

theorem settled (h : sh.SameSource sh') (settled : sh.Settled) : sh'.Settled := by
  refine ⟨fun none => h.unowned (settled.none (h.ownership.symm.trans none)), ?_, ?_, ?_⟩
  · rw [h.ownership, h.started]
    exact settled.owned
  · rw [h.ownership, h.called, h.result]
    exact settled.stop
  · rw [h.ownership, h.attempts, h.result]
    exact settled.cleanup

end SameSource

end Shared

namespace CleanupPc

/-- What `attempt_source_stop` may rely on. -/
def StopsSource (sh : Shared) : CleanupPc → Prop
  | .test => sh.Settled ∧ sh.sourceOwnership ≠ .partialStart
  | .call _ => sh.sourceOwnership = .successfulStart ∧ sh.sourceStarted = true

/-- What `attempt_partial_start_cleanup` may rely on. -/
def CleansPartial (sh : Shared) : CleanupPc → Prop
  | .test => sh.Settled ∧ sh.sourceOwnership = .partialStart
  | .call _ => sh.sourceOwnership = .partialStart ∧ sh.sourceStarted = true

variable {sh : Shared} {result : ResultCode} {pc : CleanupPc}

theorem stepSourceStop_cleans (pc : CleanupPc) (sh : Shared) (result : ResultCode) :
    sh.Cleans (pc.stepSourceStop sh result).1 := by
  cases pc with
  | test =>
    simp only [stepSourceStop]
    split_ifs <;> exact ⟨rfl, rfl, rfl, rfl, rfl, rfl, rfl⟩
  | call retry =>
    simp only [stepSourceStop]
    split_ifs <;> exact ⟨rfl, rfl, rfl, rfl, rfl, rfl, rfl⟩

theorem stepPartialStart_cleans (pc : CleanupPc) (sh : Shared) (result : ResultCode) :
    sh.Cleans (pc.stepPartialStart sh result).1 := by
  cases pc with
  | test =>
    simp only [stepPartialStart]
    split_ifs <;> exact ⟨rfl, rfl, rfl, rfl, rfl, rfl, rfl⟩
  | call retry =>
    simp only [stepPartialStart]
    split_ifs <;> exact ⟨rfl, rfl, rfl, rfl, rfl, rfl, rfl⟩

theorem StopsSource.of_same {sh' : Shared} (h : pc.StopsSource sh) (same : sh.SameSource sh') :
    pc.StopsSource sh' := by
  cases pc with
  | test => exact ⟨same.settled h.1, by rw [same.ownership]; exact h.2⟩
  | call retry => exact ⟨same.ownership.trans h.1, same.started.trans h.2⟩

theorem CleansPartial.of_same {sh' : Shared} (h : pc.CleansPartial sh)
    (same : sh.SameSource sh') : pc.CleansPartial sh' := by
  cases pc with
  | test => exact ⟨same.settled h.1, same.ownership.trans h.2⟩
  | call retry => exact ⟨same.ownership.trans h.1, same.started.trans h.2⟩

/-- After `attempt_source_stop` the ownership is settled, and an Ok means it is gone. -/
def StopsSource.After (sh : Shared) : Control CleanupPc ResultCode → Prop
  | .next pc => pc.StopsSource sh
  | .ret result =>
    sh.Settled ∧ sh.sourceOwnership ≠ .partialStart ∧ (result = .ok → sh.Unowned)

theorem StopsSource.step (h : pc.StopsSource sh) (result : ResultCode) :
    After (pc.stepSourceStop sh result).1 (pc.stepSourceStop sh result).2 := by
  cases pc with
  | test =>
    obtain ⟨settled, whole⟩ := h
    simp only [stepSourceStop]
    split_ifs with absent called retry
    · refine ⟨settled, whole, fun _ => ?_⟩
      cases owner : sh.sourceOwnership with
      | none => exact settled.none owner
      | successfulStart =>
        have started := settled.owned (by simp [owner])
        simp [owner, started] at absent
      | partialStart => exact absurd owner whole
    · simp only [not_or, not_not] at absent
      exact ⟨absent.1, by simpa using absent.2⟩
    · simp only [not_or, not_not] at absent
      exact ⟨settled, whole, fun ok => absurd ok (settled.stop absent.1 called)⟩
    · simp only [not_or, not_not] at absent
      exact ⟨absent.1, by simpa using absent.2⟩
  | call retry =>
    obtain ⟨owner, started⟩ := h
    simp only [stepSourceStop]
    split_ifs with complete retries
    · have gone := sh.forgetSource_unowned
      exact ⟨⟨fun _ => ⟨rfl, rfl, rfl⟩, by simp [Shared.forgetSource], by simp [Shared.forgetSource],
        by simp [Shared.forgetSource]⟩, by simp [Shared.forgetSource], fun _ => ⟨rfl, rfl, rfl⟩⟩
    · have failed : result ≠ .ok := fun ok => complete (.inl ok)
      exact ⟨⟨fun none => by simp [owner] at none, fun _ => started, fun _ _ => failed,
        fun half => by simp [owner] at half⟩, by simp [owner], fun ok => absurd ok failed⟩
    · have gone := sh.forgetSource_unowned
      exact ⟨gone.settled, by simp [gone.ownership], fun _ => gone⟩

def CleansPartial.After (sh : Shared) : Control CleanupPc ResultCode → Prop
  | .next pc => pc.CleansPartial sh
  | .ret result => sh.Settled ∧ (result = .ok → sh.Unowned)

theorem CleansPartial.step (h : pc.CleansPartial sh) (result : ResultCode) :
    After (pc.stepPartialStart sh result).1 (pc.stepPartialStart sh result).2 := by
  cases pc with
  | test =>
    obtain ⟨settled, owner⟩ := h
    have started := settled.owned (by simp [owner])
    simp only [stepPartialStart]
    split_ifs with absent spent retry
    · simp [owner, started] at absent
    · exact ⟨settled, fun ok => absurd ok (settled.cleanup owner spent.1)⟩
    · exact ⟨owner, started⟩
    · exact ⟨owner, started⟩
  | call retry =>
    obtain ⟨owner, started⟩ := h
    simp only [stepPartialStart]
    split_ifs with complete
    · have gone : ({ sh.forgetSource with sourceStopRetrySupported := false } : Shared).Unowned :=
        ⟨rfl, rfl, rfl⟩
      exact ⟨gone.settled, fun _ => gone⟩
    · have failed : result ≠ .ok := fun ok => complete (.inl ok)
      exact ⟨⟨fun none => by simp [owner] at none, fun _ => started,
        fun whole => by simp [owner] at whole, fun _ _ => failed⟩, fun ok => absurd ok failed⟩

end CleanupPc

/-! ### The worker -/

/-- What the handle holds while a worker stands at a program counter: a task clears its
own handle before it finishes, a thread's handle waits for the join. -/
def WorkerPc.handle (platform : Platform) (id : ℕ) (pc : WorkerPc) : Option ℕ :=
  if platform = .esp ∧ pc = .clearActive then none else some id

/-- At most one worker is alive, announced, and known by the handle. -/
inductive OneWorker (platform : Platform) (active : Bool) (handle : Option ℕ) :
    List (ℕ × WorkerPc) → Prop
  | idle (inactive : active = false) (task : platform = .esp → handle = none) :
    OneWorker platform active handle []
  | busy (id : ℕ) (pc : WorkerPc) (announced : active = true)
    (known : handle = pc.handle platform id) (placed : platform = .host → pc ≠ .clearTask) :
    OneWorker platform active handle [(id, pc)]

/-- No worker is alive or waits to be joined. -/
structure Vacant (sh : Shared) (workers : List (ℕ × WorkerPc)) : Prop where
  none_alive : workers = []
  joined : sh.worker = none
  inactive : sh.workerActive = false

/-- A worker is announced and not created yet. -/
structure Announced (sh : Shared) (workers : List (ℕ × WorkerPc)) : Prop where
  none_alive : workers = []
  joined : sh.worker = none
  active : sh.workerActive = true

/-- What a step of the worker does. -/
inductive WorkerPc.Moves (platform : Platform) (sh : Shared) :
    WorkerPc → Shared → Control WorkerPc Unit → Prop
  | goes {pc : WorkerPc} (d : TransportDiagnostics) (pc' : WorkerPc) (working : pc ≠ .clearActive)
    (task : platform = .esp → pc' ≠ .clearActive) (placed : platform = .host → pc' ≠ .clearTask) :
    Moves platform sh pc { sh with diagnostics := d } (.next pc')
  | faulted : Moves platform sh .storeFaulted { sh with lifecycle := .faulted } (.next .requestStop)
  | requested : Moves platform sh .requestStop { sh with stopRequested := true } (.next .loopTest)
  | cleared : Moves platform sh .clearTask { sh with worker := none } (.next .clearActive)
  | finished : Moves platform sh .clearActive { sh with workerActive := false } (.ret ())

/-- A worker leaves alone what an operation relies on. -/
structure Shared.Spares (platform : Platform) (sh sh' : Shared) : Prop
    extends SameSource sh sh' where
  active : sh'.lifecycleOperationActive = sh.lifecycleOperationActive
  config : sh'.config = sh.config
  lifecycle : sh'.lifecycle = sh.lifecycle ∨ sh'.lifecycle = .faulted
  joinable : platform = .host → sh'.worker = sh.worker

namespace Shared

variable {platform : Platform} {sh sh' : Shared}

theorem updateSilence_eq (sh : Shared) (now : MonotonicTimestamp) :
    ∃ d, sh.updateSilenceDiagnosticLocked now = { sh with diagnostics := d } := by
  unfold updateSilenceDiagnosticLocked
  split_ifs
  · exact ⟨sh.diagnostics, rfl⟩
  · exact ⟨_, rfl⟩
  · exact ⟨sh.diagnostics, rfl⟩

theorem snapshotAndUpdate_eq (sh : Shared) (pass : Pass) (statistics : AcquisitionStatistics)
    (timeoutNow : MonotonicTimestamp) :
    ∃ d, sh.snapshotAndUpdate pass statistics timeoutNow = { sh with diagnostics := d } := by
  unfold snapshotAndUpdate
  cases pass.status with
  | frame =>
    cases pass.result with
    | none => exact ⟨_, rfl⟩
    | some result => exact ⟨_, rfl⟩
  | timeout =>
    dsimp only
    split_ifs
    · obtain ⟨d, silence⟩ := updateSilence_eq { sh with
        diagnostics := { sh.diagnostics with acquisition := statistics } } timeoutNow
      exact ⟨d, silence⟩
    · exact ⟨_, rfl⟩
  | fault => exact ⟨_, rfl⟩
  | notStarted => exact ⟨_, rfl⟩

theorem Spares.live (h : sh.Spares platform sh') (live : sh.lifecycle ≠ .stopped) :
    sh'.lifecycle ≠ .stopped := by
  rcases h.lifecycle with same | faulted
  · rw [same]
    exact live
  · simp [faulted]

end Shared

/-- A reader publishes into the diagnostics and touches nothing else. -/
theorem DiagnosticsPc.step_published (pc : DiagnosticsPc) (answers : Answers) (sh : Shared) :
    ∃ d, (pc.step answers sh).1 = { sh with diagnostics := d } := by
  cases pc with
  | sample => exact ⟨sh.diagnostics, rfl⟩
  | evaluate now => exact sh.updateSilence_eq now

namespace WorkerPc

variable {platform : Platform} {answers : Answers} {sh : Shared} {pc : WorkerPc}

theorem exit_moves (platform : Platform) :
    (platform = .esp → exit platform ≠ .clearActive) ∧
      (platform = .host → exit platform ≠ .clearTask) := by
  cases platform <;> simp [exit]

theorem step_moves (pc : WorkerPc) :
    Moves platform sh pc (pc.step platform answers sh).1 (pc.step platform answers sh).2 := by
  have leaves := exit_moves platform
  cases pc with
  | loopTest =>
    refine .goes sh.diagnostics _ (by simp) ?_ ?_ <;> split_ifs
    exacts [leaves.1, by simp, leaves.2, by simp]
  | recheck pass =>
    refine .goes sh.diagnostics _ (by simp) ?_ ?_ <;> split_ifs
    exacts [leaves.1, by simp, by simp, leaves.2, by simp, by simp]
  | update pass statistics timeoutNow =>
    obtain ⟨d, updated⟩ := sh.snapshotAndUpdate_eq pass statistics timeoutNow
    simp only [step, updated]
    refine .goes d _ (by simp) ?_ ?_ <;> split_ifs <;> simp
  | onDiagnostics pass snapshot =>
    refine .goes sh.diagnostics _ (by simp) ?_ ?_ <;> split_ifs <;> simp
  | storeFaulted => exact .faulted
  | requestStop => exact .requested
  | clearTask => exact .cleared
  | clearActive => exact .finished
  | _ => exact .goes sh.diagnostics _ (by simp) (by simp) (by simp)

end WorkerPc

namespace OneWorker

variable {platform : Platform} {active : Bool} {handle : Option ℕ}
  {workers : List (ℕ × WorkerPc)} {sh : Shared} {answers : Answers}

theorem vacant_of_inactive (h : OneWorker platform sh.workerActive sh.worker workers)
    (inactive : sh.workerActive = false) (joined : platform = .host → sh.worker = none) :
    Vacant sh workers := by
  cases h with
  | idle _ task =>
    refine ⟨rfl, ?_, inactive⟩
    cases platform with
    | host => exact joined rfl
    | esp => exact task rfl
  | busy id pc announced => simp [inactive] at announced

theorem length_le (h : OneWorker platform active handle workers) : workers.length ≤ 1 := by
  cases h <;> simp

/-- A step of the worker; on the host the handle may still be on its way to the field. -/
theorem moves {id : ℕ} {pc : WorkerPc} {sh' : Shared} {control : Control WorkerPc Unit}
    (announced : sh.workerActive = true) (known : handle = pc.handle platform id)
    (placed : platform = .host → pc ≠ .clearTask) (field : platform = .esp → handle = sh.worker)
    (moves : pc.Moves platform sh sh' control) :
    sh.Spares platform sh' ∧
      OneWorker platform sh'.workerActive (if platform = .host then handle else sh'.worker)
        (control.call (id, ·) (.ret : Unit → Control (ℕ × WorkerPc) Unit)).live := by
  cases moves with
  | goes d pc' working task placed' =>
    refine ⟨⟨⟨rfl, rfl, rfl, rfl, rfl⟩, rfl, rfl, .inl rfl, fun _ => rfl⟩, ?_⟩
    refine .busy id pc' announced ?_ placed'
    cases platform with
    | host => simpa [WorkerPc.handle] using known
    | esp => simp [← field rfl, known, WorkerPc.handle, working, task rfl]
  | faulted =>
    refine ⟨⟨⟨rfl, rfl, rfl, rfl, rfl⟩, rfl, rfl, .inr rfl, fun _ => rfl⟩, ?_⟩
    refine .busy id .requestStop announced ?_ (by simp)
    cases platform with
    | host => simpa [WorkerPc.handle] using known
    | esp => simp [← field rfl, known, WorkerPc.handle]
  | requested =>
    refine ⟨⟨⟨rfl, rfl, rfl, rfl, rfl⟩, rfl, rfl, .inl rfl, fun _ => rfl⟩, ?_⟩
    refine .busy id .loopTest announced ?_ (by simp)
    cases platform with
    | host => simpa [WorkerPc.handle] using known
    | esp => simp [← field rfl, known, WorkerPc.handle]
  | cleared =>
    cases platform with
    | host => exact absurd rfl (placed rfl)
    | esp =>
      refine ⟨⟨⟨rfl, rfl, rfl, rfl, rfl⟩, rfl, rfl, .inl rfl, by simp⟩, ?_⟩
      exact .busy id .clearActive announced (by simp [WorkerPc.handle]) (by simp)
  | finished =>
    refine ⟨⟨⟨rfl, rfl, rfl, rfl, rfl⟩, rfl, rfl, .inl rfl, fun _ => rfl⟩, .idle rfl ?_⟩
    rintro rfl
    simp [← field rfl, known, WorkerPc.handle]

theorem step {i id : ℕ} {pc : WorkerPc}
    (h : OneWorker platform sh.workerActive handle workers)
    (field : platform = .esp → handle = sh.worker) (found : workers[i]? = some (id, pc)) :
    sh.Spares platform (pc.step platform answers sh).1 ∧
      OneWorker platform (pc.step platform answers sh).1.workerActive
        (if platform = .host then handle else (pc.step platform answers sh).1.worker)
        (resume workers i ((pc.step platform answers sh).2.call (id, ·)
          (.ret : Unit → Control (ℕ × WorkerPc) Unit))) := by
  cases h with
  | idle => simp at found
  | busy id' pc' announced known placed =>
    obtain ⟨same, resumed⟩ := resume_singleton (ρ := Unit) found
    obtain ⟨rfl, rfl⟩ := Prod.mk.inj same
    rw [resumed]
    exact moves announced known placed field (WorkerPc.step_moves pc')

end OneWorker

/-- A join that returns has waited for the thread in the handle and cleared the handle. -/
theorem Shared.join_eq_some {sh sh' : Shared} {running : List ℕ}
    (join : sh.join running = some sh') :
    sh' = { sh with worker := none } ∧ ∀ id, sh.worker = some id → id ∉ running := by
  unfold Shared.join at join
  cases worker : sh.worker with
  | none =>
    simp only [worker] at join
    obtain rfl := Option.some.inj join
    rw [← worker]
    exact ⟨rfl, by simp [worker]⟩
  | some id =>
    simp only [worker] at join
    split_ifs at join with alive
    obtain rfl := Option.some.inj join
    exact ⟨rfl, by simpa using alive⟩

/-! ### Operations -/

/-- The runtime between two operations. -/
structure AtRest (platform : Platform) (sh : Shared) (workers : List (ℕ × WorkerPc)) : Prop where
  one : OneWorker platform sh.workerActive sh.worker workers
  settled : sh.Settled
  cleanup : sh.sourceOwnership = .partialStart → Vacant sh workers
  stopped : sh.lifecycle = .stopped → Vacant sh workers ∧ sh.Unowned

def ConcludePc.Fact (platform : Platform) (sh : Shared) (workers : List (ℕ × WorkerPc)) :
    ConcludePc → Prop
  | .store clean _ => Vacant sh workers ∧ sh.Settled ∧ (clean = true → sh.Unowned)
  | .diagnose clean _ =>
    Vacant sh workers ∧ sh.Settled ∧ (clean = true → sh.Unowned) ∧ sh.lifecycle = finalState clean
  | .release _ => AtRest platform sh workers

/-- An Ok of stop() stands for a clean end. -/
def ConcludePc.Honest (sh : Shared) : ConcludePc → Prop
  | .store clean result | .diagnose clean result => result = .ok → clean = true
  | .release result => result = .ok → sh.lifecycle = .stopped

def StartPc.operating (pc : StartPc) : Bool := pc ≠ .enter

def StartPc.Fact (platform : Platform) (sh : Shared) (workers : List (ℕ × WorkerPc)) :
    StartPc → Prop
  | .enter => True
  | .reset | .supportsRetry | .startSource | .diagnoseRefused _ => Vacant sh workers ∧ sh.Unowned
  | .partialCleanup pc _ => Vacant sh workers ∧ pc.CleansPartial sh
  | .clearStopRequested | .setWorkerActive | .requestStop => Vacant sh workers ∧ sh.Fresh
  | .resetDiagnostics | .storeRunning | .clearWorkerActive => Announced sh workers ∧ sh.Fresh
  | .createWorker => Announced sh workers ∧ sh.Fresh ∧ sh.lifecycle ≠ .stopped
  | .assignWorker id => platform = .host ∧ sh.worker = none ∧
    OneWorker platform sh.workerActive (some id) workers ∧ sh.Fresh ∧ sh.lifecycle ≠ .stopped
  | .sourceStop pc => Vacant sh workers ∧ pc.StopsSource sh
  | .conclude pc => pc.Fact platform sh workers

def StopPc.operating (pc : StopPc) : Bool := pc ≠ .testSelf && pc ≠ .enter

/-- While stop() works with the worker still there. -/
structure Attended (platform : Platform) (sh : Shared) (workers : List (ℕ × WorkerPc)) : Prop where
  one : OneWorker platform sh.workerActive sh.worker workers
  live : sh.lifecycle ≠ .stopped

def StopPc.Fact (platform : Platform) (sh : Shared) (workers : List (ℕ × WorkerPc)) :
    StopPc → Prop
  | .testSelf | .enter => True
  | .diagnosePartial => Vacant sh workers ∧ CleanupPc.test.CleansPartial sh
  | .partialCleanup pc => Vacant sh workers ∧ pc.CleansPartial sh
  | .diagnoseStopping | .requestStop =>
    Attended platform sh workers ∧ CleanupPc.test.StopsSource sh
  | .sourceStop pc => Attended platform sh workers ∧ pc.StopsSource sh
  | .join result =>
    platform = .host ∧ Attended platform sh workers ∧ CleanupPc.StopsSource.After sh (.ret result)
  | .awaitWorker _ result | .lastLook result =>
    platform = .esp ∧ Attended platform sh workers ∧ CleanupPc.StopsSource.After sh (.ret result)
  | .conclude pc => pc.Fact platform sh workers ∧ pc.Honest sh

def CallPc.operating : CallPc → Bool
  | .configure _ => false
  | .start pc => pc.operating
  | .stop pc => pc.operating
  | .destroy _ => true

/-- Destruction does not begin while another call is in progress. -/
def CallPc.Fact (platform : Platform) (sh : Shared) (workers : List (ℕ × WorkerPc)) :
    CallPc → Prop
  | .configure _ => True
  | .start pc => pc.Fact platform sh workers
  | .stop pc => pc.Fact platform sh workers
  | .destroy _ => False

section Facts

variable {platform : Platform} {answers : Answers} {sh sh' : Shared}
  {workers : List (ℕ × WorkerPc)}

theorem Vacant.one (h : Vacant sh workers) :
    OneWorker platform sh.workerActive sh.worker workers := by
  rw [h.none_alive]
  exact .idle h.inactive fun _ => h.joined

theorem Vacant.of_same (h : Vacant sh workers) (worker : sh'.worker = sh.worker)
    (active : sh'.workerActive = sh.workerActive) : Vacant sh' workers :=
  ⟨h.none_alive, worker.trans h.joined, active.trans h.inactive⟩

theorem Announced.of_same (h : Announced sh workers) (worker : sh'.worker = sh.worker)
    (active : sh'.workerActive = sh.workerActive) : Announced sh' workers :=
  ⟨h.none_alive, worker.trans h.joined, active.trans h.active⟩

theorem Attended.of_same (h : Attended platform sh workers) (worker : sh'.worker = sh.worker)
    (active : sh'.workerActive = sh.workerActive) (lifecycle : sh'.lifecycle = sh.lifecycle) :
    Attended platform sh' workers := by
  refine ⟨?_, by rw [lifecycle]; exact h.live⟩
  rw [active, worker]
  exact h.one

theorem AtRest.of_vacant (vacant : Vacant sh workers) (settled : sh.Settled)
    (stopped : sh.lifecycle = .stopped → sh.Unowned) : AtRest platform sh workers :=
  ⟨vacant.one, settled, fun _ => vacant, fun h => ⟨vacant, stopped h⟩⟩

theorem AtRest.of_attended (attended : Attended platform sh workers) (settled : sh.Settled)
    (whole : sh.sourceOwnership ≠ .partialStart) : AtRest platform sh workers :=
  ⟨attended.one, settled, fun h => absurd h whole, fun h => absurd h attended.live⟩

theorem AtRest.of_same (h : AtRest platform sh workers) (source : sh.SameSource sh')
    (worker : sh'.worker = sh.worker) (active : sh'.workerActive = sh.workerActive)
    (lifecycle : sh'.lifecycle = sh.lifecycle) : AtRest platform sh' workers := by
  refine ⟨?_, source.settled h.settled, ?_, ?_⟩
  · rw [active, worker]
    exact h.one
  · intro half
    exact (h.cleanup (source.ownership.symm.trans half)).of_same worker active
  · intro stopped
    obtain ⟨vacant, unowned⟩ := h.stopped (lifecycle.symm.trans stopped)
    exact ⟨vacant.of_same worker active, source.unowned unowned⟩

/-- The shared end of every operation. -/
theorem ConcludePc.step_fact {pc : ConcludePc} (answers : Answers)
    (active : sh.lifecycleOperationActive = true)
    (fact : pc.Fact platform sh workers) :
    (pc.step sh answers).2.Settles (fun _ => true)
      ((pc.step sh answers).1.lifecycleOperationActive = false ∧
        AtRest platform (pc.step sh answers).1 workers)
      fun pc' => (pc.step sh answers).1.lifecycleOperationActive = true ∧
        pc'.Fact platform (pc.step sh answers).1 workers := by
  cases pc with
  | store clean result =>
    obtain ⟨vacant, settled, unowned⟩ := fact
    have source : sh.SameSource { sh with lifecycle := finalState clean } :=
      ⟨rfl, rfl, rfl, rfl, rfl⟩
    exact .holding rfl ⟨active, vacant.of_same rfl rfl, source.settled settled,
      fun h => source.unowned (unowned h), rfl⟩
  | diagnose clean result =>
    obtain ⟨vacant, settled, unowned, state⟩ := fact
    have source : sh.SameSource (sh.setLifecycleDiagnostic (finalState clean)
        (finalTransport clean) answers.statistics) := ⟨rfl, rfl, rfl, rfl, rfl⟩
    refine .holding rfl ⟨active, .of_vacant (vacant.of_same rfl rfl) (source.settled settled) ?_⟩
    intro stopped
    have ended : finalState clean = .stopped := state.symm.trans stopped
    cases clean with
    | true => exact source.unowned (unowned rfl)
    | false => simp [finalState] at ended
  | release result =>
    exact ⟨rfl, AtRest.of_same fact ⟨rfl, rfl, rfl, rfl, rfl⟩ rfl rfl rfl⟩

theorem ConcludePc.Honest.step {pc : ConcludePc} (honest : pc.Honest sh) (answers : Answers)
    (fact : pc.Fact platform sh workers) :
    ∀ pc', (pc.step sh answers).2.pc? = some pc' → pc'.Honest (pc.step sh answers).1 := by
  intro pc' next
  cases pc with
  | store clean result =>
    obtain rfl := Option.some.inj next
    exact honest
  | diagnose clean result =>
    obtain rfl := Option.some.inj next
    intro ok
    exact fact.2.2.2.trans (by rw [honest ok, finalState, if_pos rfl])
  | release result => simp [ConcludePc.step] at next

/-- On the host a join of a finished worker leaves none. -/
theorem OneWorker.joined (one : OneWorker .host sh.workerActive sh.worker workers)
    (finished : ∀ id, sh.worker = some id → id ∉ workers.map (·.1)) :
    Vacant { sh with worker := none } workers := by
  cases one with
  | idle inactive task => exact ⟨rfl, rfl, inactive⟩
  | busy id pc announced known placed =>
    exact absurd (by simp) (finished id (known.trans (by simp [WorkerPc.handle])))

/-- A step of start() other than the creation of the worker. -/
theorem StartPc.step_quiet {pc : StartPc} {fresh : ℕ} {control : Control StartPc ResultCode}
    (active : sh.lifecycleOperationActive = true) (operating : pc.operating = true)
    (quiet : pc ≠ .createWorker) (fact : pc.Fact platform sh workers)
    (step : pc.step platform fresh answers sh = some (sh', control)) :
    control.Settles StartPc.operating
      (sh'.lifecycleOperationActive = false ∧ AtRest platform sh' workers)
      fun pc' => sh'.lifecycleOperationActive = true ∧ pc'.Fact platform sh' workers := by
  cases pc with
  | enter => exact absurd operating (by decide)
  | createWorker => exact absurd rfl quiet
  | reset =>
    obtain ⟨rfl, rfl⟩ := Prod.mk.inj (Option.some.inj step)
    exact .holding rfl ⟨active, fact⟩
  | supportsRetry =>
    obtain ⟨rfl, rfl⟩ := Prod.mk.inj (Option.some.inj step)
    obtain ⟨vacant, unowned⟩ := fact
    exact .holding rfl ⟨active, vacant.of_same rfl rfl, ⟨unowned.1, unowned.2, unowned.3⟩⟩
  | startSource =>
    obtain ⟨vacant, unowned⟩ := fact
    simp only [StartPc.step] at step
    split_ifs at step with started owns
    · obtain ⟨rfl, rfl⟩ := Prod.mk.inj (Option.some.inj step)
      exact .holding rfl ⟨active, vacant.of_same rfl rfl, rfl, rfl, rfl⟩
    · obtain ⟨rfl, rfl⟩ := Prod.mk.inj (Option.some.inj step)
      refine .holding rfl ⟨active, vacant.of_same rfl rfl, ⟨?_, fun _ => rfl, ?_, ?_⟩, rfl⟩
      · simp
      · simp
      · -- No cleanup has been attempted in this period yet.
        simp
    · obtain ⟨rfl, rfl⟩ := Prod.mk.inj (Option.some.inj step)
      exact .holding rfl ⟨active, vacant.of_same rfl rfl, ⟨unowned.1, unowned.2, unowned.3⟩⟩
  | diagnoseRefused result =>
    obtain ⟨rfl, rfl⟩ := Prod.mk.inj (Option.some.inj step)
    obtain ⟨vacant, unowned⟩ := fact
    have unowned' : (sh.setLifecycleDiagnostic .stopped
        (if result = .faulted then .faulted else .stopped) answers.statistics).Unowned :=
      ⟨unowned.1, unowned.2, unowned.3⟩
    exact .holding rfl ⟨active, .of_vacant (vacant.of_same rfl rfl) unowned'.settled
      fun _ => unowned'⟩
  | partialCleanup pc result =>
    obtain ⟨rfl, rfl⟩ := Prod.mk.inj (Option.some.inj step)
    obtain ⟨vacant, cleans⟩ := fact
    have unchanged := pc.stepPartialStart_cleans sh answers.result
    have vacant' := vacant.of_same unchanged.worker unchanged.workerActive
    have after := cleans.step answers.result
    generalize pc.stepPartialStart sh answers.result = outcome at unchanged vacant' after
    obtain ⟨sh', control⟩ := outcome
    cases control with
    | next pc' => exact .holding rfl ⟨unchanged.active.trans active, vacant', after⟩
    | ret cleanup =>
      refine .holding rfl ⟨unchanged.active.trans active, vacant', after.1, ?_⟩
      intro clean
      exact after.2 (of_decide_eq_true clean)
  | clearStopRequested =>
    obtain ⟨rfl, rfl⟩ := Prod.mk.inj (Option.some.inj step)
    obtain ⟨vacant, fresh⟩ := fact
    exact .holding rfl ⟨active, vacant.of_same rfl rfl, fresh.1, fresh.2, fresh.3⟩
  | setWorkerActive =>
    obtain ⟨rfl, rfl⟩ := Prod.mk.inj (Option.some.inj step)
    obtain ⟨vacant, fresh⟩ := fact
    exact .holding rfl ⟨active, ⟨vacant.none_alive, vacant.joined, rfl⟩, fresh.1, fresh.2, fresh.3⟩
  | resetDiagnostics =>
    obtain ⟨rfl, rfl⟩ := Prod.mk.inj (Option.some.inj step)
    obtain ⟨announced, fresh⟩ := fact
    exact .holding rfl ⟨active, announced.of_same rfl rfl, fresh.1, fresh.2, fresh.3⟩
  | storeRunning =>
    obtain ⟨rfl, rfl⟩ := Prod.mk.inj (Option.some.inj step)
    obtain ⟨announced, fresh⟩ := fact
    exact .holding rfl ⟨active, announced.of_same rfl rfl, ⟨fresh.1, fresh.2, fresh.3⟩, by simp⟩
  | assignWorker id =>
    obtain ⟨rfl, free, one, fresh, live⟩ := fact
    simp only [StartPc.step, free, Option.isSome_none, Bool.false_eq_true, if_false] at step
    obtain ⟨rfl, rfl⟩ := Prod.mk.inj (Option.some.inj step)
    have fresh' : ({ sh with worker := some id } : Shared).Fresh := ⟨fresh.1, fresh.2, fresh.3⟩
    exact .holding rfl ⟨active, .of_attended ⟨one, live⟩ fresh'.settled fresh'.not_partial⟩
  | clearWorkerActive =>
    obtain ⟨rfl, rfl⟩ := Prod.mk.inj (Option.some.inj step)
    obtain ⟨announced, fresh⟩ := fact
    exact .holding rfl
      ⟨active, ⟨announced.none_alive, announced.joined, rfl⟩, fresh.1, fresh.2, fresh.3⟩
  | requestStop =>
    obtain ⟨rfl, rfl⟩ := Prod.mk.inj (Option.some.inj step)
    obtain ⟨vacant, fresh⟩ := fact
    have fresh' : ({ sh with stopRequested := true } : Shared).Fresh := ⟨fresh.1, fresh.2, fresh.3⟩
    exact .holding rfl ⟨active, vacant.of_same rfl rfl, fresh'.settled, fresh'.not_partial⟩
  | sourceStop pc =>
    obtain ⟨rfl, rfl⟩ := Prod.mk.inj (Option.some.inj step)
    obtain ⟨vacant, stops⟩ := fact
    have unchanged := pc.stepSourceStop_cleans sh answers.result
    have vacant' := vacant.of_same unchanged.worker unchanged.workerActive
    have after := stops.step answers.result
    generalize pc.stepSourceStop sh answers.result = outcome at unchanged vacant' after
    obtain ⟨sh', control⟩ := outcome
    cases control with
    | next pc' => exact .holding rfl ⟨unchanged.active.trans active, vacant', after⟩
    | ret cleanup =>
      refine .holding rfl ⟨unchanged.active.trans active, vacant', after.1, ?_⟩
      intro clean
      exact after.2.2 (of_decide_eq_true clean)
  | conclude pc =>
    obtain ⟨rfl, rfl⟩ := Prod.mk.inj (Option.some.inj step)
    exact (ConcludePc.step_fact answers active fact).call (fun _ => rfl) fun _ h => h

/-- The creation of the worker finds none alive and none to be joined. -/
theorem StartPc.step_createWorker {fresh : ℕ} {control : Control StartPc ResultCode}
    (active : sh.lifecycleOperationActive = true)
    (fact : StartPc.createWorker.Fact platform sh workers)
    (step : StartPc.createWorker.step platform fresh answers sh = some (sh', control)) :
    control.Settles StartPc.operating
      (sh'.lifecycleOperationActive = false ∧
        AtRest platform sh' (workers ++ (CallPc.start .createWorker).spawned fresh answers))
      fun pc' => sh'.lifecycleOperationActive = true ∧
        pc'.Fact platform sh' (workers ++ (CallPc.start .createWorker).spawned fresh answers) := by
  obtain ⟨announced, owned, live⟩ := fact
  rw [announced.none_alive, List.nil_append]
  simp only [StartPc.step, CallPc.spawned] at step ⊢
  split_ifs at step ⊢ with created
  · cases platform with
    | host =>
      obtain ⟨rfl, rfl⟩ := Prod.mk.inj (Option.some.inj step)
      exact .holding rfl ⟨active, rfl, announced.joined,
        .busy fresh .loopTest announced.active rfl (by simp), owned, live⟩
    | esp =>
      obtain ⟨rfl, rfl⟩ := Prod.mk.inj (Option.some.inj step)
      have owned' : ({ sh with worker := some fresh } : Shared).Fresh :=
        ⟨owned.1, owned.2, owned.3⟩
      have one : OneWorker .esp sh.workerActive (some fresh) [(fresh, .loopTest)] :=
        .busy fresh .loopTest announced.active rfl (by simp)
      exact .holding rfl ⟨active, .of_attended ⟨one, live⟩ owned'.settled owned'.not_partial⟩
  · obtain ⟨rfl, rfl⟩ := Prod.mk.inj (Option.some.inj step)
    exact .holding rfl ⟨active, ⟨rfl, announced.joined, announced.active⟩, owned⟩

theorem clean_of_ok {result : ResultCode}
    (ok : (if result = .ok then ResultCode.ok else .faulted) = .ok) :
    decide (result = .ok) = true := by
  split_ifs at ok with clean
  exact decide_eq_true clean

theorem StopPc.step_fact {pc : StopPc} {caller : Caller} {running : List ℕ}
    {control : Control StopPc ResultCode} (alive : running = workers.map (·.1))
    (active : sh.lifecycleOperationActive = true) (operating : pc.operating = true)
    (fact : pc.Fact platform sh workers)
    (step : pc.step platform caller running answers sh = some (sh', control)) :
    control.Settles StopPc.operating
      (sh'.lifecycleOperationActive = false ∧ AtRest platform sh' workers)
      fun pc' => sh'.lifecycleOperationActive = true ∧ pc'.Fact platform sh' workers := by
  cases pc with
  | testSelf => exact absurd operating (by decide)
  | enter => exact absurd operating (by decide)
  | diagnosePartial =>
    obtain ⟨rfl, rfl⟩ := Prod.mk.inj (Option.some.inj step)
    obtain ⟨vacant, cleans⟩ := fact
    exact .holding rfl ⟨active, vacant.of_same rfl rfl, cleans.of_same ⟨rfl, rfl, rfl, rfl, rfl⟩⟩
  | partialCleanup pc =>
    obtain ⟨rfl, rfl⟩ := Prod.mk.inj (Option.some.inj step)
    obtain ⟨vacant, cleans⟩ := fact
    have unchanged := pc.stepPartialStart_cleans sh answers.result
    have vacant' := vacant.of_same unchanged.worker unchanged.workerActive
    have after := cleans.step answers.result
    generalize pc.stepPartialStart sh answers.result = outcome at unchanged vacant' after
    obtain ⟨sh', control⟩ := outcome
    cases control with
    | next pc' => exact .holding rfl ⟨unchanged.active.trans active, vacant', after⟩
    | ret cleanup =>
      refine .holding rfl ⟨unchanged.active.trans active, ⟨vacant', after.1, ?_⟩, ?_⟩
      · intro clean
        exact after.2 (of_decide_eq_true clean)
      · intro ok
        split_ifs at ok with clean late
        exact decide_eq_true clean
  | diagnoseStopping =>
    obtain ⟨rfl, rfl⟩ := Prod.mk.inj (Option.some.inj step)
    obtain ⟨attended, stops⟩ := fact
    exact .holding rfl
      ⟨active, attended.of_same rfl rfl rfl, stops.of_same ⟨rfl, rfl, rfl, rfl, rfl⟩⟩
  | requestStop =>
    obtain ⟨rfl, rfl⟩ := Prod.mk.inj (Option.some.inj step)
    obtain ⟨attended, stops⟩ := fact
    exact .holding rfl
      ⟨active, attended.of_same rfl rfl rfl, stops.of_same ⟨rfl, rfl, rfl, rfl, rfl⟩⟩
  | sourceStop pc =>
    obtain ⟨rfl, rfl⟩ := Prod.mk.inj (Option.some.inj step)
    obtain ⟨attended, stops⟩ := fact
    have unchanged := pc.stepSourceStop_cleans sh answers.result
    have attended' := attended.of_same unchanged.worker unchanged.workerActive unchanged.lifecycle
    have after := stops.step answers.result
    generalize pc.stepSourceStop sh answers.result = outcome at unchanged attended' after
    obtain ⟨sh', control⟩ := outcome
    have active' := unchanged.active.trans active
    cases control with
    | next pc' => exact .holding rfl ⟨active', attended', after⟩
    | ret result =>
      simp only [Control.call_ret]
      split_ifs with late
      · exact .holding rfl ⟨active', .of_attended attended' after.1 after.2.1,
          fun ok => absurd ok (by decide)⟩
      · cases platform with
        | host => exact .holding rfl ⟨active', rfl, attended', after⟩
        | esp => exact .holding rfl ⟨active', rfl, attended', after⟩
  | join result =>
    obtain ⟨rfl, attended, settled, whole, unowned⟩ := fact
    obtain ⟨joined, join, same⟩ := Option.map_eq_some_iff.mp step
    obtain ⟨rfl, rfl⟩ := Prod.mk.inj same
    obtain ⟨rfl, finished⟩ := Shared.join_eq_some join
    have source : sh.SameSource { sh with worker := none } := ⟨rfl, rfl, rfl, rfl, rfl⟩
    have vacant := attended.one.joined (alive ▸ finished)
    refine .holding rfl ⟨active, ⟨vacant, source.settled settled, ?_⟩, clean_of_ok⟩
    intro clean
    exact source.unowned (unowned (of_decide_eq_true clean))
  | awaitWorker waited result =>
    obtain ⟨rfl, rfl⟩ := Prod.mk.inj (Option.some.inj step)
    split_ifs with waits
    · exact .holding rfl ⟨active, fact⟩
    · exact .holding rfl ⟨active, fact⟩
  | lastLook result =>
    obtain ⟨rfl, rfl⟩ := Prod.mk.inj (Option.some.inj step)
    obtain ⟨rfl, attended, settled, whole, unowned⟩ := fact
    by_cases waits : sh.workerActive = true
    · rw [if_pos waits]
      exact .holding rfl
        ⟨active, .of_attended attended settled whole, fun ok => absurd ok (by decide)⟩
    · rw [if_neg waits]
      have vacant := attended.one.vacant_of_inactive (eq_false_of_ne_true waits) (by simp)
      exact .holding rfl ⟨active, ⟨vacant, settled, fun clean => unowned (of_decide_eq_true clean)⟩,
        clean_of_ok⟩
  | conclude pc =>
    obtain ⟨rfl, rfl⟩ := Prod.mk.inj (Option.some.inj step)
    obtain ⟨known, honest⟩ := fact
    have after := ConcludePc.step_fact answers active known
    have honest' := honest.step answers known
    generalize pc.step sh answers = outcome at after honest' ⊢
    obtain ⟨sh', control⟩ := outcome
    cases control with
    | next pc' => exact .holding rfl ⟨after.1, after.2, honest' pc' rfl⟩
    | ret result => exact after

theorem CallPc.spawned_eq_nil {pc : CallPc} (fresh : ℕ) (answers : Answers)
    (quiet : pc ≠ .start .createWorker) : pc.spawned fresh answers = [] := by
  cases pc with
  | start pc =>
    cases pc with
    | createWorker => exact absurd rfl quiet
    | _ => rfl
  | _ => rfl

/-- Where a call stands that does not work on the runtime yet. -/
theorem CallPc.waiting_cases {pc : CallPc} (waiting : pc.operating = false) :
    (∃ config, pc = .configure config) ∨ pc = .start .enter ∨ pc = .stop .testSelf ∨
      pc = .stop .enter := by
  cases pc with
  | configure config => exact .inl ⟨config, rfl⟩
  | start pc =>
    obtain rfl : pc = .enter := by simpa [operating, StartPc.operating] using waiting
    exact .inr (.inl rfl)
  | stop pc =>
    cases pc with
    | testSelf => exact .inr (.inr (.inl rfl))
    | enter => exact .inr (.inr (.inr rfl))
    | _ => exact absurd waiting (by simp [operating, StopPc.operating])
  | destroy pc => exact absurd waiting (by simp [operating])

theorem CallPc.spawned_of_waiting {pc : CallPc} {fresh : ℕ} (waiting : pc.operating = false) :
    pc.spawned fresh answers = [] := by
  refine spawned_eq_nil fresh answers ?_
  rintro rfl
  exact absurd waiting (by decide)

theorem CallPc.loopTest_of_spawned {pc : CallPc} {fresh : ℕ} {w : ℕ × WorkerPc}
    (created : w ∈ pc.spawned fresh answers) : w.2 = .loopTest := by
  unfold spawned at created
  split at created
  · split_ifs at created
    · obtain rfl := List.mem_singleton.mp created
      rfl
    · cases created
  · cases created

/-- A step of the call that works on the runtime. -/
theorem CallPc.step_fact {pc : CallPc} {caller : Caller} {fresh : ℕ} {running : List ℕ}
    {control : Control CallPc (Option ResultCode)} (alive : running = workers.map (·.1))
    (operating : pc.operating = true) (active : sh.lifecycleOperationActive = true)
    (fact : pc.Fact platform sh workers)
    (step : pc.step platform caller fresh running answers sh = some (sh', control)) :
    control.Settles CallPc.operating
      (sh'.lifecycleOperationActive = false ∧
        AtRest platform sh' (workers ++ pc.spawned fresh answers))
      fun pc' => sh'.lifecycleOperationActive = true ∧
        pc'.Fact platform sh' (workers ++ pc.spawned fresh answers) := by
  cases pc with
  | configure config => simp [CallPc.operating] at operating
  | start pc =>
    obtain ⟨⟨shared, inner⟩, inside, same⟩ := Option.map_eq_some_iff.mp step
    obtain ⟨rfl, rfl⟩ := Prod.mk.inj same
    by_cases creates : pc = .createWorker
    · subst creates
      exact (StartPc.step_createWorker active fact inside).call (fun _ => rfl) fun _ h => h
    · rw [spawned_eq_nil fresh answers (by simpa using creates), List.append_nil]
      exact (StartPc.step_quiet active operating creates fact inside).call (fun _ => rfl)
        fun _ h => h
  | stop pc =>
    obtain ⟨⟨shared, inner⟩, inside, same⟩ := Option.map_eq_some_iff.mp step
    obtain ⟨rfl, rfl⟩ := Prod.mk.inj same
    rw [spawned_eq_nil fresh answers (by simp), List.append_nil]
    exact (StopPc.step_fact alive active operating fact inside).call (fun _ => rfl) fun _ h => h
  | destroy pc => exact absurd fact id

/-- start() and stop() take the runtime when nobody has it. -/
theorem StartPc.step_enter {fresh : ℕ} {control : Control StartPc ResultCode}
    (inactive : sh.lifecycleOperationActive = false) (rest : AtRest platform sh workers)
    (step : StartPc.enter.step platform fresh answers sh = some (sh', control)) :
    control.Settles StartPc.operating
      (sh'.lifecycleOperationActive = false ∧ AtRest platform sh' workers)
      fun pc' => sh'.lifecycleOperationActive = true ∧ pc'.Fact platform sh' workers := by
  simp only [StartPc.step] at step
  split_ifs at step with invalid active state
  · obtain ⟨rfl, rfl⟩ := Prod.mk.inj (Option.some.inj step)
    exact ⟨inactive, rest⟩
  · simp [inactive] at active
  · obtain ⟨rfl, rfl⟩ := Prod.mk.inj (Option.some.inj step)
    exact ⟨inactive, rest⟩
  · obtain ⟨rfl, rfl⟩ := Prod.mk.inj (Option.some.inj step)
    obtain ⟨vacant, unowned⟩ := rest.stopped (not_not.mp state)
    exact .holding rfl ⟨rfl, vacant.of_same rfl rfl, ⟨unowned.1, unowned.2, unowned.3⟩⟩

theorem StopPc.step_enter {caller : Caller} {running : List ℕ}
    {control : Control StopPc ResultCode}
    (inactive : sh.lifecycleOperationActive = false) (rest : AtRest platform sh workers)
    (step : StopPc.enter.step platform caller running answers sh = some (sh', control)) :
    control.Settles StopPc.operating
      (sh'.lifecycleOperationActive = false ∧ AtRest platform sh' workers)
      fun pc' => sh'.lifecycleOperationActive = true ∧ pc'.Fact platform sh' workers := by
  simp only [StopPc.step] at step
  split_ifs at step with active idle half
  · simp [inactive] at active
  · obtain ⟨rfl, rfl⟩ := Prod.mk.inj (Option.some.inj step)
    exact ⟨inactive, rest⟩
  · obtain ⟨rfl, rfl⟩ := Prod.mk.inj (Option.some.inj step)
    have source : sh.SameSource { sh with lifecycleOperationActive := true, lifecycle := .stopping } :=
      ⟨rfl, rfl, rfl, rfl, rfl⟩
    exact .holding rfl ⟨rfl, (rest.cleanup half).of_same rfl rfl, source.settled rest.settled, half⟩
  · obtain ⟨rfl, rfl⟩ := Prod.mk.inj (Option.some.inj step)
    have source : sh.SameSource { sh with lifecycleOperationActive := true, lifecycle := .stopping } :=
      ⟨rfl, rfl, rfl, rfl, rfl⟩
    exact .holding rfl ⟨rfl, ⟨rest.one, by simp⟩, source.settled rest.settled, half⟩

/-- A step of a call that does not work on the runtime yet. -/
theorem CallPc.step_enters {pc : CallPc} {caller : Caller} {fresh : ℕ} {running : List ℕ}
    {control : Control CallPc (Option ResultCode)} (waiting : pc.operating = false)
    (inactive : sh.lifecycleOperationActive = false) (rest : AtRest platform sh workers)
    (step : pc.step platform caller fresh running answers sh = some (sh', control)) :
    control.Settles CallPc.operating
      (sh'.lifecycleOperationActive = false ∧ AtRest platform sh' workers)
      fun pc' => sh'.lifecycleOperationActive = true ∧ pc'.Fact platform sh' workers := by
  rcases waiting_cases waiting with ⟨config, rfl⟩ | rfl | rfl | rfl
  · have outcome := Option.some.inj step
    split_ifs at outcome
    · obtain ⟨rfl, rfl⟩ := Prod.mk.inj outcome
      exact ⟨inactive, rest⟩
    · obtain ⟨rfl, rfl⟩ := Prod.mk.inj outcome
      exact ⟨inactive, rest⟩
    · obtain ⟨rfl, rfl⟩ := Prod.mk.inj outcome
      exact ⟨inactive, rest.of_same ⟨rfl, rfl, rfl, rfl, rfl⟩ rfl rfl rfl⟩
  · obtain ⟨⟨shared, inner⟩, inside, same⟩ := Option.map_eq_some_iff.mp step
    obtain ⟨rfl, rfl⟩ := Prod.mk.inj same
    exact (StartPc.step_enter inactive rest inside).call (fun _ => rfl) fun _ h => h
  · obtain ⟨rfl, rfl⟩ := Prod.mk.inj (Option.some.inj step)
    split_ifs
    · exact ⟨inactive, rest⟩
    · exact .resting rfl ⟨inactive, rest⟩
  · obtain ⟨⟨shared, inner⟩, inside, same⟩ := Option.map_eq_some_iff.mp step
    obtain ⟨rfl, rfl⟩ := Prod.mk.inj same
    exact (StopPc.step_enter inactive rest inside).call (fun _ => rfl) fun _ h => h

/-- While another call works on the runtime, it is refused. -/
theorem CallPc.step_refused {pc : CallPc} {caller : Caller} {fresh : ℕ} {running : List ℕ}
    {control : Control CallPc (Option ResultCode)} (waiting : pc.operating = false)
    (active : sh.lifecycleOperationActive = true)
    (step : pc.step platform caller fresh running answers sh = some (sh', control)) :
    sh' = sh ∧ ∀ pc' ∈ control.live, pc'.operating = false := by
  rcases waiting_cases waiting with ⟨config, rfl⟩ | rfl | rfl | rfl
  · have outcome := Option.some.inj step
    simp only [active, true_or, if_true] at outcome
    split_ifs at outcome <;> obtain ⟨rfl, rfl⟩ := Prod.mk.inj outcome <;> simp
  · obtain ⟨⟨shared, inner⟩, inside, same⟩ := Option.map_eq_some_iff.mp step
    obtain ⟨rfl, rfl⟩ := Prod.mk.inj same
    simp only [StartPc.step, active, if_true] at inside
    split_ifs at inside <;> obtain ⟨rfl, rfl⟩ := Prod.mk.inj (Option.some.inj inside) <;> simp
  · obtain ⟨rfl, rfl⟩ := Prod.mk.inj (Option.some.inj step)
    split_ifs <;> simp [operating, StopPc.operating]
  · obtain ⟨⟨shared, inner⟩, inside, same⟩ := Option.map_eq_some_iff.mp step
    obtain ⟨rfl, rfl⟩ := Prod.mk.inj same
    simp only [StopPc.step, active, if_true] at inside
    obtain ⟨rfl, rfl⟩ := Prod.mk.inj (Option.some.inj inside)
    simp

end Facts

end CanTelemetry.VehicleTelemetry
