import CanTelemetry.VehicleTelemetry.Operations

/-! Who owns the worker and the source over whole runs: what an operation relies on is
left alone by readers and workers, so it holds in every interleaving. -/

namespace CanTelemetry.VehicleTelemetry

open Execution Threads VehicleCore

/-! ### Readers and workers leave the operation alone -/

section Stable

variable {platform : Platform} {answers : Answers} {sh sh' : Shared}
  {workers workers' : List (ℕ × WorkerPc)} {i id : ℕ} {at_pc : WorkerPc}

theorem ConcludePc.Fact.of_same {pc : ConcludePc} (h : pc.Fact platform sh workers)
    (source : sh.SameSource sh') (worker : sh'.worker = sh.worker)
    (active : sh'.workerActive = sh.workerActive) (lifecycle : sh'.lifecycle = sh.lifecycle) :
    pc.Fact platform sh' workers := by
  cases pc with
  | store clean result =>
    exact ⟨h.1.of_same worker active, source.settled h.2.1, fun c => source.unowned (h.2.2 c)⟩
  | diagnose clean result =>
    exact ⟨h.1.of_same worker active, source.settled h.2.1, fun c => source.unowned (h.2.2.1 c),
      lifecycle.trans h.2.2.2⟩
  | release result => exact AtRest.of_same h source worker active lifecycle

theorem StartPc.Fact.of_same {pc : StartPc} (h : pc.Fact platform sh workers)
    (source : sh.SameSource sh') (worker : sh'.worker = sh.worker)
    (active : sh'.workerActive = sh.workerActive) (lifecycle : sh'.lifecycle = sh.lifecycle) :
    pc.Fact platform sh' workers := by
  have live (h : sh.lifecycle ≠ .stopped) : sh'.lifecycle ≠ .stopped := by
    rw [lifecycle]
    exact h
  cases pc with
  | enter => trivial
  | reset | supportsRetry | startSource | diagnoseRefused =>
    exact ⟨h.1.of_same worker active, source.unowned h.2⟩
  | partialCleanup pc result => exact ⟨h.1.of_same worker active, h.2.of_same source⟩
  | clearStopRequested | setWorkerActive | requestStop =>
    exact ⟨h.1.of_same worker active, source.fresh h.2⟩
  | resetDiagnostics | storeRunning | clearWorkerActive =>
    exact ⟨h.1.of_same worker active, source.fresh h.2⟩
  | createWorker => exact ⟨h.1.of_same worker active, source.fresh h.2.1, live h.2.2⟩
  | assignWorker id =>
    obtain ⟨host, free, one, fresh, running⟩ := h
    exact ⟨host, worker.trans free, by rw [active]; exact one, source.fresh fresh, live running⟩
  | sourceStop pc => exact ⟨h.1.of_same worker active, h.2.of_same source⟩
  | conclude pc => exact ConcludePc.Fact.of_same h source worker active lifecycle

theorem ConcludePc.Honest.of_same {pc : ConcludePc} (h : pc.Honest sh)
    (lifecycle : sh'.lifecycle = sh.lifecycle) : pc.Honest sh' := by
  cases pc with
  | store clean result => exact h
  | diagnose clean result => exact h
  | release result => exact fun ok => lifecycle.trans (h ok)

theorem CleanupPc.StopsSource.After.of_same {result : ResultCode}
    (h : After sh (.ret result)) (source : sh.SameSource sh') : After sh' (.ret result) :=
  ⟨source.settled h.1, by rw [source.ownership]; exact h.2.1, fun ok => source.unowned (h.2.2 ok)⟩

theorem StopPc.Fact.of_same {pc : StopPc} (h : pc.Fact platform sh workers)
    (source : sh.SameSource sh') (worker : sh'.worker = sh.worker)
    (active : sh'.workerActive = sh.workerActive) (lifecycle : sh'.lifecycle = sh.lifecycle) :
    pc.Fact platform sh' workers := by
  cases pc with
  | testSelf | enter => trivial
  | diagnosePartial => exact ⟨h.1.of_same worker active, h.2.of_same source⟩
  | partialCleanup pc => exact ⟨h.1.of_same worker active, h.2.of_same source⟩
  | diagnoseStopping | requestStop =>
    exact ⟨h.1.of_same worker active lifecycle, h.2.of_same source⟩
  | sourceStop pc => exact ⟨h.1.of_same worker active lifecycle, h.2.of_same source⟩
  | join result => exact ⟨h.1, h.2.1.of_same worker active lifecycle, h.2.2.of_same source⟩
  | awaitWorker waited result =>
    exact ⟨h.1, h.2.1.of_same worker active lifecycle, h.2.2.of_same source⟩
  | lastLook result => exact ⟨h.1, h.2.1.of_same worker active lifecycle, h.2.2.of_same source⟩
  | conclude pc => exact ⟨h.1.of_same source worker active lifecycle, h.2.of_same lifecycle⟩

theorem CallPc.Fact.of_same {pc : CallPc} (h : pc.Fact platform sh workers)
    (source : sh.SameSource sh') (worker : sh'.worker = sh.worker)
    (active : sh'.workerActive = sh.workerActive) (lifecycle : sh'.lifecycle = sh.lifecycle) :
    pc.Fact platform sh' workers := by
  cases pc with
  | configure config => trivial
  | start pc => exact StartPc.Fact.of_same h source worker active lifecycle
  | stop pc => exact StopPc.Fact.of_same h source worker active lifecycle
  | destroy pc => exact h

/-- What one step of a worker makes of the state. -/
structure WorkerStep (platform : Platform) (sh sh' : Shared)
    (workers workers' : List (ℕ × WorkerPc)) : Prop extends sh.Spares platform sh' where
  alive : workers ≠ []
  known : ∀ handle, OneWorker platform sh.workerActive handle workers →
    (platform = .esp → handle = sh.worker) →
    OneWorker platform sh'.workerActive (if platform = .host then handle else sh'.worker) workers'

theorem OneWorker.workerStep {handle : Option ℕ}
    (h : OneWorker platform sh.workerActive handle workers) (answers : Answers)
    (field : platform = .esp → handle = sh.worker) (found : workers[i]? = some (id, at_pc)) :
    WorkerStep platform sh (at_pc.step platform answers sh).1 workers
      (resume workers i ((at_pc.step platform answers sh).2.call (id, ·)
        (.ret : Unit → Control (ℕ × WorkerPc) Unit))) := by
  refine ⟨(h.step field found).1, ?_, fun handle one field => (one.step field found).2⟩
  rintro rfl
  simp at found

namespace WorkerStep

theorem one (step : WorkerStep platform sh sh' workers workers')
    (h : OneWorker platform sh.workerActive sh.worker workers) :
    OneWorker platform sh'.workerActive sh'.worker workers' := by
  have after := step.known sh.worker h fun _ => rfl
  cases platform with
  | host =>
    rw [if_pos rfl, ← step.joinable rfl] at after
    exact after
  | esp => exact after

theorem not_vacant (step : WorkerStep platform sh sh' workers workers') :
    ¬Vacant sh workers :=
  fun vacant => step.alive vacant.none_alive

theorem attended (step : WorkerStep platform sh sh' workers workers')
    (h : Attended platform sh workers) : Attended platform sh' workers' :=
  ⟨step.one h.one, step.live h.live⟩

theorem stopped (step : WorkerStep platform sh sh' workers workers')
    (h : sh'.lifecycle = .stopped) : sh.lifecycle = .stopped := by
  rcases step.lifecycle with same | faulted
  · exact same.symm.trans h
  · rw [faulted] at h
    exact absurd h (by decide)

theorem rest (step : WorkerStep platform sh sh' workers workers')
    (h : AtRest platform sh workers) : AtRest platform sh' workers' := by
  refine ⟨step.one h.one, step.settled h.settled, ?_, ?_⟩
  · intro half
    exact absurd (h.cleanup (step.ownership.symm.trans half)) step.not_vacant
  · intro stopped
    exact absurd (h.stopped (step.stopped stopped)).1 step.not_vacant

theorem startFact (step : WorkerStep platform sh sh' workers workers') {pc : StartPc}
    (h : pc.Fact platform sh workers) : pc.Fact platform sh' workers' := by
  cases pc with
  | enter => trivial
  | reset | supportsRetry | startSource | diagnoseRefused => exact absurd h.1 step.not_vacant
  | partialCleanup pc result => exact absurd h.1 step.not_vacant
  | clearStopRequested | setWorkerActive | requestStop => exact absurd h.1 step.not_vacant
  | resetDiagnostics | storeRunning | clearWorkerActive => exact absurd h.1.none_alive step.alive
  | createWorker => exact absurd h.1.none_alive step.alive
  | assignWorker id =>
    obtain ⟨rfl, free, one, fresh, running⟩ := h
    have after := step.known (some id) one (by simp)
    rw [if_pos rfl] at after
    exact ⟨rfl, (step.joinable rfl).trans free, after, step.fresh fresh, step.live running⟩
  | sourceStop pc => exact absurd h.1 step.not_vacant
  | conclude pc =>
    cases pc with
    | store clean result => exact absurd h.1 step.not_vacant
    | diagnose clean result => exact absurd h.1 step.not_vacant
    | release result => exact step.rest h

theorem stopFact (step : WorkerStep platform sh sh' workers workers') {pc : StopPc}
    (h : pc.Fact platform sh workers) : pc.Fact platform sh' workers' := by
  cases pc with
  | testSelf | enter => trivial
  | diagnosePartial => exact absurd h.1 step.not_vacant
  | partialCleanup pc => exact absurd h.1 step.not_vacant
  | diagnoseStopping | requestStop =>
    exact ⟨step.attended h.1, h.2.of_same step.toSameSource⟩
  | sourceStop pc => exact ⟨step.attended h.1, h.2.of_same step.toSameSource⟩
  | join result => exact ⟨h.1, step.attended h.2.1, h.2.2.of_same step.toSameSource⟩
  | awaitWorker waited result =>
    exact ⟨h.1, step.attended h.2.1, h.2.2.of_same step.toSameSource⟩
  | lastLook result => exact ⟨h.1, step.attended h.2.1, h.2.2.of_same step.toSameSource⟩
  | conclude pc =>
    obtain ⟨known, honest⟩ := h
    cases pc with
    | store clean result => exact absurd known.1 step.not_vacant
    | diagnose clean result => exact absurd known.1 step.not_vacant
    | release result =>
      refine ⟨step.rest known, fun ok => ?_⟩
      exact absurd (AtRest.stopped known (honest ok)).1 step.not_vacant

theorem fact (step : WorkerStep platform sh sh' workers workers') {pc : CallPc}
    (h : pc.Fact platform sh workers) : pc.Fact platform sh' workers' := by
  cases pc with
  | configure config => trivial
  | start pc => exact step.startFact h
  | stop pc => exact step.stopFact h
  | destroy pc => exact h

end WorkerStep

/-- A worker that is alive is the announced one, and the handle holds nothing else. -/
structure Known (platform : Platform) (sh : Shared) (workers : List (ℕ × WorkerPc))
    (handle : Option ℕ) : Prop where
  one : OneWorker platform sh.workerActive handle workers
  field : platform = .esp → handle = sh.worker
  only : ∀ id, sh.worker = some id → handle = some id

theorem Known.of_one (h : OneWorker platform sh.workerActive sh.worker workers) :
    Known platform sh workers sh.worker := ⟨h, fun _ => rfl, fun _ same => same⟩

theorem StartPc.Fact.known {pc : StartPc} (operating : pc.operating = true)
    (h : pc.Fact platform sh workers) (alive : workers ≠ []) :
    ∃ handle, Known platform sh workers handle := by
  cases pc with
  | enter => exact absurd operating (by decide)
  | assignWorker id =>
    obtain ⟨rfl, free, one, -⟩ := h
    exact ⟨some id, one, by simp, by simp [free]⟩
  | conclude pc =>
    cases pc with
    | store clean result => exact absurd h.1.none_alive alive
    | diagnose clean result => exact absurd h.1.none_alive alive
    | release result => exact ⟨sh.worker, .of_one (AtRest.one h)⟩
  | _ => exact absurd h.1.none_alive alive

theorem StopPc.Fact.known {pc : StopPc} (operating : pc.operating = true)
    (h : pc.Fact platform sh workers) (alive : workers ≠ []) :
    ∃ handle, Known platform sh workers handle := by
  cases pc with
  | testSelf => exact absurd operating (by decide)
  | enter => exact absurd operating (by decide)
  | diagnosePartial => exact absurd h.1.none_alive alive
  | partialCleanup pc => exact absurd h.1.none_alive alive
  | diagnoseStopping | requestStop => exact ⟨sh.worker, .of_one h.1.one⟩
  | sourceStop pc => exact ⟨sh.worker, .of_one h.1.one⟩
  | join result => exact ⟨sh.worker, .of_one h.2.1.one⟩
  | awaitWorker waited result => exact ⟨sh.worker, .of_one h.2.1.one⟩
  | lastLook result => exact ⟨sh.worker, .of_one h.2.1.one⟩
  | conclude pc =>
    cases pc with
    | store clean result => exact absurd h.1.1.none_alive alive
    | diagnose clean result => exact absurd h.1.1.none_alive alive
    | release result => exact ⟨sh.worker, .of_one (AtRest.one h.1)⟩

theorem CallPc.Fact.known {pc : CallPc} (operating : pc.operating = true)
    (h : pc.Fact platform sh workers) (alive : workers ≠ []) :
    ∃ handle, Known platform sh workers handle := by
  cases pc with
  | configure config => simp [CallPc.operating] at operating
  | start pc => exact StartPc.Fact.known operating h alive
  | stop pc => exact StopPc.Fact.known operating h alive
  | destroy pc => exact absurd h id

end Stable

/-! ### Destruction -/

/-- What destruction keeps: a runtime it found Stopped has nothing left to clean up. -/
structure Ended (platform : Platform) (sh : Shared) (workers : List (ℕ × WorkerPc)) : Prop where
  one : OneWorker platform sh.workerActive sh.worker workers
  stopped : sh.lifecycle = .stopped → Vacant sh workers ∧ sh.Unowned

section Destruction

variable {platform : Platform} {answers : Answers} {sh sh' : Shared}
  {workers workers' : List (ℕ × WorkerPc)} {result : ResultCode}

theorem CleanupPc.stepSourceStop_unowned (pc : CleanupPc) (h : sh.Unowned) :
    (pc.stepSourceStop sh result).1.Unowned := by
  cases pc with
  | test => simpa [stepSourceStop, h.ownership] using h
  | call retry =>
    simp only [stepSourceStop]
    split_ifs
    · exact ⟨rfl, rfl, rfl⟩
    · exact ⟨h.1, h.2, h.3⟩
    · exact ⟨rfl, rfl, rfl⟩

theorem CleanupPc.stepPartialStart_unowned (pc : CleanupPc) (h : sh.Unowned) :
    (pc.stepPartialStart sh result).1.Unowned := by
  cases pc with
  | test => simpa [stepPartialStart, h.ownership] using h
  | call retry =>
    simp only [stepPartialStart]
    split_ifs
    · exact ⟨rfl, rfl, rfl⟩
    · exact ⟨h.1, h.2, h.3⟩

theorem Ended.cleans (h : Ended platform sh workers) (cleans : sh.Cleans sh')
    (unowned : sh.Unowned → sh'.Unowned) : Ended platform sh' workers := by
  refine ⟨?_, fun stopped => ?_⟩
  · rw [cleans.workerActive, cleans.worker]
    exact h.one
  · obtain ⟨vacant, free⟩ := h.stopped (cleans.lifecycle.symm.trans stopped)
    exact ⟨vacant.of_same cleans.worker cleans.workerActive, unowned free⟩

theorem Ended.of_same (h : Ended platform sh workers) (source : sh.SameSource sh')
    (worker : sh'.worker = sh.worker) (active : sh'.workerActive = sh.workerActive)
    (lifecycle : sh'.lifecycle = sh.lifecycle) : Ended platform sh' workers := by
  refine ⟨?_, fun stopped => ?_⟩
  · rw [active, worker]
    exact h.one
  · obtain ⟨vacant, free⟩ := h.stopped (lifecycle.symm.trans stopped)
    exact ⟨vacant.of_same worker active, source.unowned free⟩

/-- What a step of the destructor does. -/
inductive DestroyPc.Does (platform : Platform) (running : List ℕ) (sh : Shared) : Shared → Prop
  | nothing : Does platform running sh sh
  | requests : Does platform running sh { sh with stopRequested := true }
  | cleans (sh' : Shared) (cleans : sh.Cleans sh') (unowned : sh.Unowned → sh'.Unowned) :
    Does platform running sh sh'
  | joins (host : platform = .host) (finished : ∀ id, sh.worker = some id → id ∉ running) :
    Does platform running sh { sh with worker := none }

theorem DestroyPc.step_does {pc : DestroyPc} {caller : Caller} {running : List ℕ}
    {control : Control DestroyPc Unit}
    (step : pc.step platform caller running answers sh = some (sh', control)) :
    Does platform running sh sh' := by
  cases pc with
  | requestStop =>
    obtain ⟨rfl, -⟩ := Prod.mk.inj (Option.some.inj step)
    exact .requests
  | sourceStop last pc =>
    obtain ⟨rfl, -⟩ := Prod.mk.inj (Option.some.inj step)
    exact .cleans _ (pc.stepSourceStop_cleans sh answers.result) pc.stepSourceStop_unowned
  | partialCleanup last pc =>
    obtain ⟨rfl, -⟩ := Prod.mk.inj (Option.some.inj step)
    exact .cleans _ (pc.stepPartialStart_cleans sh answers.result) pc.stepPartialStart_unowned
  | awaitWorker =>
    simp only [DestroyPc.step] at step
    cases platform with
    | host =>
      dsimp only at step
      split_ifs at step with own
      · obtain ⟨rfl, -⟩ := Prod.mk.inj (Option.some.inj step)
        exact .nothing
      · obtain ⟨joined, join, same⟩ := Option.map_eq_some_iff.mp step
        obtain ⟨rfl, -⟩ := Prod.mk.inj same
        obtain ⟨rfl, finished⟩ := Shared.join_eq_some join
        exact .joins rfl finished
    | esp =>
      obtain ⟨rfl, -⟩ := Prod.mk.inj (Option.some.inj step)
      exact .nothing
  | retry =>
    obtain ⟨rfl, -⟩ := Prod.mk.inj (Option.some.inj step)
    exact .nothing
  | release =>
    simp only [DestroyPc.step] at step
    split_ifs at step
    obtain ⟨rfl, -⟩ := Prod.mk.inj (Option.some.inj step)
    exact .nothing

theorem DestroyPc.Does.ended {running : List ℕ} (does : Does platform running sh sh')
    (alive : running = workers.map (·.1)) (h : Ended platform sh workers) :
    sh'.lifecycleOperationActive = sh.lifecycleOperationActive ∧ Ended platform sh' workers := by
  cases does with
  | nothing => exact ⟨rfl, h⟩
  | requests => exact ⟨rfl, h.of_same ⟨rfl, rfl, rfl, rfl, rfl⟩ rfl rfl rfl⟩
  | cleans sh' cleans unowned => exact ⟨cleans.active, h.cleans cleans unowned⟩
  | joins host finished =>
    subst host
    have vacant := h.one.joined (alive ▸ finished)
    have source : sh.SameSource { sh with worker := none } := ⟨rfl, rfl, rfl, rfl, rfl⟩
    exact ⟨rfl, vacant.one, fun stopped => ⟨vacant, source.unowned (h.stopped stopped).2⟩⟩

end Destruction

/-! ### The system -/

namespace System

/-- The invariant of every run: the operation that works on the runtime has what belongs
to where it stands, or the runtime is at rest, or it is being destroyed. -/
inductive Governed (platform : Platform) (s : System) : Prop
  | usable (alive : s.destroyed = false)
    (held : Held (fun p : Caller × CallPc => p.2.operating)
      (s.shared.lifecycleOperationActive = false ∧ AtRest platform s.shared s.workers)
      (fun p => s.shared.lifecycleOperationActive = true ∧ p.2.Fact platform s.shared s.workers)
      s.calls)
  | gone (destroyed : s.destroyed = true)
    (only : ∀ p ∈ s.calls, ∃ pc, p.2 = .destroy pc)
    (inactive : s.shared.lifecycleOperationActive = false)
    (ended : Ended platform s.shared s.workers)

variable {platform : Platform} {s t : System}

theorem Governed.initial (platform : Platform) : ({} : System).Governed platform := by
  have unowned : ({} : Shared).Unowned := ⟨rfl, rfl, rfl⟩
  have vacant : Vacant {} [] := ⟨rfl, rfl, rfl⟩
  exact .usable rfl (.start ⟨rfl, .of_vacant vacant unowned.settled fun _ => unowned⟩)

theorem Governed.call (h : s.Governed platform) {i : ℕ} {answers : Answers}
    (step : s.next platform (.call i answers) = some t) : t.Governed platform := by
  obtain ⟨caller, pc, shared, control, found, inside, rfl⟩ := next_call step
  cases h with
  | usable alive held =>
    refine .usable alive (held.step found ?_ ?_ ?_)
    · rintro operating ⟨active, fact⟩
      exact Control.Settles.call (CallPc.step_fact rfl operating active fact inside) (fun _ => rfl)
        fun _ h => h
    · rintro waiting ⟨inactive, rest⟩
      rw [CallPc.spawned_of_waiting waiting, List.append_nil]
      exact Control.Settles.call (CallPc.step_enters waiting inactive rest inside) (fun _ => rfl)
        fun _ h => h
    · rintro waiting q member operating ⟨active, fact⟩
      obtain ⟨rfl, idle⟩ := CallPc.step_refused waiting active inside
      rw [CallPc.spawned_of_waiting waiting, List.append_nil]
      refine ⟨⟨active, fact⟩, ?_⟩
      cases control with
      | next pc' => simpa using idle pc' (by simp)
      | ret value => simp
  | gone destroyed only inactive ended =>
    obtain ⟨destroyer, rfl⟩ := only _ (List.mem_of_getElem? found)
    obtain ⟨⟨shared', inner⟩, inside', same⟩ := Option.map_eq_some_iff.mp inside
    obtain ⟨rfl, rfl⟩ := Prod.mk.inj same
    obtain ⟨operation, ended'⟩ := (DestroyPc.step_does inside').ended rfl ended
    refine .gone destroyed ?_ (operation.trans inactive) ?_
    · intro p member
      cases inner with
      | next pc' =>
        rcases List.mem_or_eq_of_mem_set member with before | rfl
        · exact only p before
        · exact ⟨pc', rfl⟩
      | ret value => exact only p (List.mem_of_mem_eraseIdx member)
    · rw [show (CallPc.destroy destroyer).spawned s.created answers = [] from rfl,
        List.append_nil]
      exact ended'

theorem Governed.same (h : s.Governed platform) (destroyed : t.destroyed = s.destroyed)
    (calls : t.calls = s.calls) (workers : t.workers = s.workers)
    (operation : t.shared.lifecycleOperationActive = s.shared.lifecycleOperationActive)
    (source : s.shared.SameSource t.shared) (worker : t.shared.worker = s.shared.worker)
    (active : t.shared.workerActive = s.shared.workerActive)
    (lifecycle : t.shared.lifecycle = s.shared.lifecycle) : t.Governed platform := by
  cases h with
  | usable alive held =>
    refine .usable (destroyed.trans alive) ?_
    rw [calls, workers, operation]
    exact held.mono (fun rest => ⟨rest.1, rest.2.of_same source worker active lifecycle⟩)
      fun p _ _ fact => ⟨fact.1, fact.2.of_same source worker active lifecycle⟩
  | gone ended only inactive rest =>
    refine .gone (destroyed.trans ended) (by rw [calls]; exact only) (operation.trans inactive) ?_
    rw [workers]
    exact rest.of_same source worker active lifecycle

theorem Governed.worker (h : s.Governed platform) {i : ℕ} {answers : Answers}
    (step : s.next platform (.worker i answers) = some t) : t.Governed platform := by
  obtain ⟨id, pc, found, -, rfl⟩ := next_worker step
  have alive : s.workers ≠ [] := by
    rintro none
    simp [none] at found
  cases h with
  | usable usable held =>
    refine .usable usable (held.mono ?_ ?_)
    · rintro ⟨inactive, rest⟩
      have moved := rest.one.workerStep answers (fun _ => rfl) found
      exact ⟨moved.active.trans inactive, moved.rest rest⟩
    · rintro p - operating ⟨active, fact⟩
      obtain ⟨handle, known⟩ := fact.known operating alive
      have moved := known.one.workerStep answers known.field found
      exact ⟨moved.active.trans active, moved.fact fact⟩
  | gone destroyed only inactive ended =>
    have moved := ended.one.workerStep answers (fun _ => rfl) found
    refine .gone destroyed only (moved.active.trans inactive) ⟨moved.one ended.one, ?_⟩
    intro stopped
    exact absurd (ended.stopped (moved.stopped stopped)).1 moved.not_vacant

theorem Governed.next (h : s.Governed platform) {k : Choice}
    (step : s.next platform k = some t) : t.Governed platform := by
  cases k with
  | begin caller operation =>
    obtain ⟨admitted, rfl⟩ := next_begin step
    cases h with
    | usable alive held =>
      refine .usable alive (held.join ?_)
      cases operation <;> rfl
    | gone destroyed only inactive ended => simp [admits, destroyed] at admitted
  | beginDestroy caller =>
    obtain ⟨admitted, quiet, -, rfl⟩ := next_beginDestroy step
    cases h with
    | usable alive held =>
      rw [quiet] at held
      obtain ⟨inactive, rest⟩ := held.rest_of_nil
      exact .gone rfl (by simp) inactive ⟨rest.one, rest.stopped⟩
    | gone destroyed only inactive ended => simp [admits, destroyed] at admitted
  | beginDiagnostics caller =>
    obtain ⟨-, rfl⟩ := next_beginDiagnostics step
    exact h.same rfl rfl rfl rfl ⟨rfl, rfl, rfl, rfl, rfl⟩ rfl rfl rfl
  | call i answers => exact h.call step
  | reader i answers =>
    obtain ⟨caller, pc, found, rfl⟩ := next_reader step
    obtain ⟨d, published⟩ := pc.step_published answers s.shared
    refine h.same rfl rfl rfl ?_ ?_ ?_ ?_ ?_ <;> rw [published]
    exact ⟨rfl, rfl, rfl, rfl, rfl⟩
  | worker i answers => exact h.worker step

theorem exec_governed {ks : List Choice} (run : exec (next platform) {} ks = some s) :
    s.Governed platform :=
  exec_invariant (fun _ _ _ h step => h.next step) run (.initial platform)

/-! ### What follows for every run -/

theorem Governed.stopped (h : s.Governed platform)
    (inactive : s.shared.lifecycleOperationActive = false) (stopped : s.shared.lifecycle = .stopped) :
    Vacant s.shared s.workers ∧ s.shared.Unowned := by
  cases h with
  | usable alive held =>
    cases held with
    | free idle rest => exact rest.2.stopped stopped
    | taken before after p split before_idle after_idle operating fact =>
      exact absurd (inactive.symm.trans fact.1) Bool.false_ne_true
  | gone destroyed only inactive ended => exact ended.stopped stopped

theorem Governed.fact (h : s.Governed platform) {caller : Caller} {pc : CallPc}
    (member : (caller, pc) ∈ s.calls) (operating : pc.operating = true)
    (usable : ∀ destroyer, pc ≠ .destroy destroyer) :
    s.shared.lifecycleOperationActive = true ∧ pc.Fact platform s.shared s.workers := by
  cases h with
  | usable alive held => exact held.fact member operating
  | gone destroyed only inactive ended =>
    obtain ⟨destroyer, same⟩ := only _ member
    exact absurd same (usable destroyer)

/-- Between two operations the runtime is at rest, or its destructor works. -/
theorem Governed.between {Rest : Prop} {Fact : CallPc → Prop} (h : s.Governed platform)
    (held : Held (fun p : Caller × CallPc => p.2.operating) Rest (fun p => Fact p.2) s.calls)
    (inactive : s.shared.lifecycleOperationActive = false) :
    Rest ∨ s.destroyed = true ∧ ∃ destroyer, Fact (.destroy destroyer) := by
  cases held with
  | free idle rest => exact .inl rest
  | taken before after p split before_idle after_idle operating fact =>
    obtain ⟨caller, pc⟩ := p
    have member : (caller, pc) ∈ s.calls := by simp [split]
    cases h with
    | usable alive held =>
      exact absurd (inactive.symm.trans (held.fact member operating).1) Bool.false_ne_true
    | gone destroyed only =>
      obtain ⟨destroyer, rfl⟩ := only _ member
      exact .inr ⟨destroyed, destroyer, fact⟩

theorem Governed.known (h : s.Governed platform) (alive : s.workers ≠ []) :
    ∃ handle, Known platform s.shared s.workers handle := by
  cases h with
  | usable usable held =>
    cases held with
    | free idle rest => exact ⟨_, .of_one rest.2.one⟩
    | taken before after p split before_idle after_idle operating fact =>
      exact fact.2.known operating alive
  | gone destroyed only inactive ended => exact ⟨_, .of_one ended.one⟩

/-- At most one worker is alive, and a handle that is set is that worker's. -/
theorem Governed.single (h : s.Governed platform) :
    s.workers.length ≤ 1 ∧ ∀ w ∈ s.workers, ∀ id, s.shared.worker = some id → w.1 = id := by
  by_cases alive : s.workers = []
  · simp [alive]
  · obtain ⟨handle, known⟩ := h.known alive
    refine ⟨known.one.length_le, ?_⟩
    intro w member id handled
    obtain ⟨one, -, only⟩ := known
    generalize s.workers = workers at one member
    cases one with
    | idle => simp at member
    | busy id' pc announced same placed =>
      obtain rfl := List.mem_singleton.mp member
      have own : pc.handle platform id' = some id := same.symm.trans (only id handled)
      unfold WorkerPc.handle at own
      split_ifs at own
      exact Option.some.inj own

/-- A worker that steps is the only one. -/
theorem Governed.worker_alone (h : s.Governed platform) {i : ℕ} {w : ℕ × WorkerPc}
    (found : s.workers[i]? = some w) :
    s.workers = [w] ∧ ∀ c : Control (ℕ × WorkerPc) Unit, resume s.workers i c = c.live := by
  have alive : s.workers ≠ [] := List.ne_nil_of_mem (List.mem_of_getElem? found)
  obtain ⟨w', only⟩ := List.length_eq_one_iff.mp
    (le_antisymm h.single.1 (List.length_pos_iff.mpr alive))
  rw [only] at found ⊢
  obtain ⟨rfl, resumed⟩ := resume_singleton (ρ := Unit) found
  exact ⟨rfl, resumed⟩

theorem Governed.creates (h : s.Governed platform) {k : Choice}
    (step : s.next platform k = some t) (created : t.created ≠ s.created) :
    s.workers = [] ∧ s.shared.worker = none := by
  cases k with
  | call i answers =>
    obtain ⟨caller, pc, shared, control, found, inside, rfl⟩ := next_call step
    by_cases creates : pc = .start .createWorker
    · subst creates
      have fact := h.fact (List.mem_of_getElem? found) rfl (by simp)
      exact ⟨fact.2.1.none_alive, fact.2.1.joined⟩
    · simp [CallPc.spawned_eq_nil s.created answers creates] at created
  | begin caller operation =>
    obtain ⟨-, rfl⟩ := next_begin step
    exact absurd rfl created
  | beginDestroy caller =>
    obtain ⟨-, -, -, rfl⟩ := next_beginDestroy step
    exact absurd rfl created
  | beginDiagnostics caller =>
    obtain ⟨-, rfl⟩ := next_beginDiagnostics step
    exact absurd rfl created
  | reader i answers =>
    obtain ⟨caller, pc, found, rfl⟩ := next_reader step
    exact absurd rfl created
  | worker i answers =>
    obtain ⟨id, pc, found, -, rfl⟩ := next_worker step
    exact absurd rfl created

end System

section Config

variable {platform : Platform} {caller : Caller} {fresh : ℕ} {running : List ℕ}
  {answers : Answers} {sh sh' : Shared}

theorem ConcludePc.step_config (pc : ConcludePc) : (pc.step sh answers).1.config = sh.config := by
  cases pc <;> rfl

theorem StartPc.step_config {pc : StartPc} {control : Control StartPc ResultCode}
    (step : pc.step platform fresh answers sh = some (sh', control)) : sh'.config = sh.config := by
  cases pc with
  | partialCleanup pc result =>
    obtain ⟨rfl, -⟩ := Prod.mk.inj (Option.some.inj step)
    exact (pc.stepPartialStart_cleans sh answers.result).config
  | sourceStop pc =>
    obtain ⟨rfl, -⟩ := Prod.mk.inj (Option.some.inj step)
    exact (pc.stepSourceStop_cleans sh answers.result).config
  | conclude pc =>
    obtain ⟨rfl, -⟩ := Prod.mk.inj (Option.some.inj step)
    exact pc.step_config
  | createWorker =>
    simp only [StartPc.step] at step
    split_ifs at step
    · cases platform <;> obtain ⟨rfl, -⟩ := Prod.mk.inj (Option.some.inj step) <;> rfl
    · obtain ⟨rfl, -⟩ := Prod.mk.inj (Option.some.inj step)
      rfl
  | enter | startSource | assignWorker =>
    simp only [StartPc.step] at step
    split_ifs at step <;> obtain ⟨rfl, -⟩ := Prod.mk.inj (Option.some.inj step) <;> rfl
  | _ =>
    obtain ⟨rfl, -⟩ := Prod.mk.inj (Option.some.inj step)
    rfl

theorem StopPc.step_config {pc : StopPc} {control : Control StopPc ResultCode}
    (step : pc.step platform caller running answers sh = some (sh', control)) :
    sh'.config = sh.config := by
  cases pc with
  | partialCleanup pc =>
    obtain ⟨rfl, -⟩ := Prod.mk.inj (Option.some.inj step)
    exact (pc.stepPartialStart_cleans sh answers.result).config
  | sourceStop pc =>
    obtain ⟨rfl, -⟩ := Prod.mk.inj (Option.some.inj step)
    exact (pc.stepSourceStop_cleans sh answers.result).config
  | conclude pc =>
    obtain ⟨rfl, -⟩ := Prod.mk.inj (Option.some.inj step)
    exact pc.step_config
  | join result =>
    obtain ⟨joined, join, same⟩ := Option.map_eq_some_iff.mp step
    obtain ⟨rfl, -⟩ := Prod.mk.inj same
    obtain ⟨rfl, -⟩ := Shared.join_eq_some join
    rfl
  | enter =>
    simp only [StopPc.step] at step
    split_ifs at step <;> obtain ⟨rfl, -⟩ := Prod.mk.inj (Option.some.inj step) <;> rfl
  | _ =>
    obtain ⟨rfl, -⟩ := Prod.mk.inj (Option.some.inj step)
    rfl

theorem DestroyPc.Does.config (does : Does platform running sh sh') :
    sh'.config = sh.config := by
  cases does with
  | cleans sh' cleans unowned => exact cleans.config
  | _ => rfl

/-- Ok is what stop() releases the operation with, and no other exit returns it. -/
theorem StopPc.step_ok {pc : StopPc}
    (step : pc.step platform caller running answers sh = some (sh', .ret .ok)) :
    pc = .conclude (.release .ok) := by
  cases pc with
  | testSelf =>
    obtain ⟨-, returned⟩ := Prod.mk.inj (Option.some.inj step)
    split_ifs at returned
    simp at returned
  | enter =>
    simp only [StopPc.step] at step
    split_ifs at step <;> simp at step
  | partialCleanup pc =>
    obtain ⟨-, returned⟩ := Prod.mk.inj (Option.some.inj step)
    cases control : (pc.stepPartialStart sh answers.result).2 <;> simp [control] at returned
  | sourceStop pc =>
    obtain ⟨-, returned⟩ := Prod.mk.inj (Option.some.inj step)
    cases control : (pc.stepSourceStop sh answers.result).2 <;> simp [control] at returned
  | join result =>
    obtain ⟨joined, -, same⟩ := Option.map_eq_some_iff.mp step
    simp at same
  | conclude pc =>
    obtain ⟨-, returned⟩ := Prod.mk.inj (Option.some.inj step)
    cases pc with
    | release result =>
      obtain rfl := Control.ret.inj returned
      rfl
    | store clean result => simp [ConcludePc.step] at returned
    | diagnose clean result => simp [ConcludePc.step] at returned
  | diagnosePartial | diagnoseStopping | requestStop | awaitWorker | lastLook =>
    obtain ⟨-, returned⟩ := Prod.mk.inj (Option.some.inj step)
    simp at returned

/-- Only a configure() that is accepted changes the configuration. -/
theorem CallPc.step_config {pc : CallPc} {control : Control CallPc (Option ResultCode)}
    (step : pc.step platform caller fresh running answers sh = some (sh', control)) :
    sh'.config = sh.config ∨
      sh.lifecycleOperationActive = false ∧ sh.lifecycle = .stopped := by
  cases pc with
  | configure config =>
    have outcome := Option.some.inj step
    split_ifs at outcome with invalid busy
    · obtain ⟨rfl, -⟩ := Prod.mk.inj outcome
      exact .inl rfl
    · obtain ⟨rfl, -⟩ := Prod.mk.inj outcome
      exact .inl rfl
    · simp only [ne_eq, not_or, Bool.not_eq_true, not_not] at busy
      exact .inr busy
  | start pc =>
    obtain ⟨⟨shared, inner⟩, inside, same⟩ := Option.map_eq_some_iff.mp step
    obtain ⟨rfl, -⟩ := Prod.mk.inj same
    exact .inl (StartPc.step_config inside)
  | stop pc =>
    obtain ⟨⟨shared, inner⟩, inside, same⟩ := Option.map_eq_some_iff.mp step
    obtain ⟨rfl, -⟩ := Prod.mk.inj same
    exact .inl (StopPc.step_config inside)
  | destroy pc =>
    obtain ⟨⟨shared, inner⟩, inside, same⟩ := Option.map_eq_some_iff.mp step
    obtain ⟨rfl, -⟩ := Prod.mk.inj same
    exact .inl (DestroyPc.step_does inside).config

end Config

namespace System

variable {platform : Platform} {s t : System}

/-- The configuration does not change under a worker. -/
theorem Governed.config (h : s.Governed platform) {k : Choice}
    (step : s.next platform k = some t) (alive : s.workers ≠ []) :
    t.shared.config = s.shared.config := by
  cases k with
  | call i answers =>
    obtain ⟨caller, pc, shared, control, found, inside, rfl⟩ := next_call step
    rcases CallPc.step_config inside with same | ⟨inactive, stopped⟩
    · exact same
    · exact absurd (h.stopped inactive stopped).1.none_alive alive
  | begin caller operation =>
    obtain ⟨-, rfl⟩ := next_begin step
    rfl
  | beginDestroy caller =>
    obtain ⟨-, -, -, rfl⟩ := next_beginDestroy step
    rfl
  | beginDiagnostics caller =>
    obtain ⟨-, rfl⟩ := next_beginDiagnostics step
    rfl
  | reader i answers =>
    obtain ⟨caller, pc, found, rfl⟩ := next_reader step
    obtain ⟨d, published⟩ := pc.step_published answers s.shared
    simp only [published]
  | worker i answers =>
    obtain ⟨id, pc, found, -, rfl⟩ := next_worker step
    obtain ⟨handle, known⟩ := h.known alive
    exact (known.one.step known.field found).1.config

theorem returned_eq_some {k : Choice} {pc : CallPc} {result : ResultCode}
    (returned : s.returned platform k = some (pc, result)) :
    ∃ i answers caller shared, k = .call i answers ∧ s.calls[i]? = some (caller, pc) ∧
      pc.step platform caller s.created s.running answers s.shared =
        some (shared, .ret (some result)) := by
  cases k with
  | call i answers =>
    obtain ⟨⟨caller, pc'⟩, found, returned⟩ := Option.bind_eq_some_iff.mp returned
    obtain ⟨value, stepped, same⟩ := Option.bind_eq_some_iff.mp returned
    obtain ⟨⟨shared, control⟩, inside, ends⟩ := Option.bind_eq_some_iff.mp stepped
    obtain ⟨code, rfl, pair⟩ := Option.map_eq_some_iff.mp same
    obtain ⟨rfl, rfl⟩ := Prod.mk.inj pair
    cases control with
    | next pc'' => simp at ends
    | ret v =>
      obtain rfl := Option.some.inj ends
      exact ⟨i, answers, caller, shared, rfl, found, inside⟩
  | _ => simp [System.returned] at returned

/-- A stop() that returns Ok releases a runtime that is Stopped and has no worker. -/
theorem Governed.stop_ok (h : s.Governed platform) {k : Choice} {pc : StopPc}
    (ok : s.returned platform k = some (.stop pc, .ok)) :
    s.shared.lifecycleOperationActive = true ∧ s.shared.lifecycle = .stopped ∧
      Vacant s.shared s.workers := by
  obtain ⟨i, answers, caller, shared, rfl, found, inside⟩ := returned_eq_some ok
  obtain ⟨⟨shared', inner⟩, inside, same⟩ := Option.map_eq_some_iff.mp inside
  cases inner with
  | next pc' => simp at same
  | ret result =>
    simp only [Control.call_ret, Prod.mk.injEq, Control.ret.injEq, Option.some.injEq] at same
    obtain ⟨rfl, rfl⟩ := same
    obtain rfl := StopPc.step_ok inside
    obtain ⟨active, rest, honest⟩ := h.fact (List.mem_of_getElem? found) rfl (by simp)
    exact ⟨active, honest rfl, (AtRest.stopped rest (honest rfl)).1⟩

variable {ks : List Choice}

/-- Between operations a Stopped runtime owns nothing and has no worker. So there is one
worker at most, it is created when the one before it is finished and joined, the
configuration does not change under it, and stop() answers Ok when it is gone. -/
theorem worker_and_ownership (run : exec (next platform) {} ks = some s) :
    (s.shared.lifecycleOperationActive = false → s.shared.lifecycle = .stopped →
      s.workers = [] ∧ s.shared.worker = none ∧ s.shared.sourceStarted = false ∧
        s.shared.sourceOwnership = .none ∧ s.shared.sourceStopCalled = false) ∧
    s.workers.length ≤ 1 ∧
    (∀ w ∈ s.workers, ∀ id, s.shared.worker = some id → w.1 = id) ∧
    (∀ caller, (caller, .start .setWorkerActive) ∈ s.calls → s.shared.workerActive = false) ∧
    (∀ caller id, (caller, .start (.assignWorker id)) ∈ s.calls → s.shared.worker = none) ∧
    ∀ k t, s.next platform k = some t →
      (t.created ≠ s.created → s.workers = [] ∧ s.shared.worker = none) ∧
      (s.workers ≠ [] → t.shared.config = s.shared.config) ∧
      ∀ pc, s.returned platform k = some (.stop pc, .ok) →
        s.shared.lifecycleOperationActive = true ∧ s.shared.lifecycle = .stopped ∧
          s.workers = [] ∧ s.shared.worker = none := by
  have governed := exec_governed run
  refine ⟨?_, governed.single.1, governed.single.2, ?_, ?_, ?_⟩
  · intro inactive stopped
    obtain ⟨vacant, unowned⟩ := governed.stopped inactive stopped
    exact ⟨vacant.none_alive, vacant.joined, unowned.started, unowned.ownership, unowned.called⟩
  · intro caller member
    have fact := governed.fact member rfl (by simp)
    exact fact.2.1.inactive
  · intro caller id member
    have fact := governed.fact member rfl (by simp)
    exact fact.2.2.1
  · intro k t step
    refine ⟨governed.creates step, governed.config step, fun pc ok => ?_⟩
    obtain ⟨active, stopped, vacant⟩ := governed.stop_ok ok
    exact ⟨active, stopped, vacant.none_alive, vacant.joined⟩

/-- start() creates a worker, and stop() takes it down again up to its return. -/
def startThenStop : List Choice :=
  [.begin none .start] ++ List.replicate 11 (.call 0 {}) ++
    [.begin none .stop] ++ List.replicate 6 (.call 0 {}) ++
    List.replicate 2 (.worker 0 {}) ++ List.replicate 3 (.call 0 {})

theorem worker_and_ownership_stopped :
    (final (next .host) {} startThenStop).returned .host (.call 0 {}) =
        some (.stop (.conclude (.release .ok)), .ok) ∧
      (final (next .host) {} startThenStop).shared.lifecycle = .stopped ∧
      (final (next .host) {} startThenStop).workers = [] ∧
      (final (next .host) {} startThenStop).shared.worker = none := by
  have run := exec_eq_final (next .host) {} startThenStop (by decide)
  have ok : (final (next .host) {} startThenStop).returned .host (.call 0 {}) =
      some (.stop (.conclude (.release .ok)), .ok) := by decide
  have releases := (worker_and_ownership run).2.2.2.2.2 (.call 0 {})
    (final (next .host) (final (next .host) {} startThenStop) [.call 0 {}]) (by decide)
  exact ⟨ok, (releases.2.2 _ ok).2⟩

end System

end CanTelemetry.VehicleTelemetry
