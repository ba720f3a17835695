import CanTelemetry.VehicleTelemetry.SourceCalls

/-! The lifecycle is published twice: as the atomic that lifecycle() reads, and as a field of
the diagnostics. A worker that fails writes the diagnostics first and the atomic after its
callbacks; stop() writes them the other way round. If stop() publishes Stopping over a fault
of the worker and then gives up, nobody publishes the fault again. -/

namespace CanTelemetry.VehicleTelemetry

open Execution Threads VehicleCore

/-! ### The two views -/

/-- The worker has recorded a fault in the diagnostics and has yet to store it. -/
def WorkerPc.pendingFault : WorkerPc → Bool
  | .onFrameProcessed pass _ | .onDiagnostics pass _ => pass.faults
  | .storeFaulted => true
  | _ => false

/-- The worker is blocked in receive(), or has left its loop. -/
def WorkerPc.restful : WorkerPc → Bool
  | .receive | .clearTask | .clearActive => true
  | _ => false

def pending (workers : List (ℕ × WorkerPc)) : Bool := workers.any (·.2.pendingFault)

namespace System

/-- No operation is active and the worker is not in between. -/
def quiescent (s : System) : Bool :=
  !s.shared.lifecycleOperationActive && s.workers.all (·.2.restful)

/-- The diagnostics say Stopping where the worker has stored, or is about to store, a fault. -/
def overwritten (s : System) : Bool :=
  s.shared.diagnostics.lifecycle = .stopping &&
    (s.shared.lifecycle = .faulted || pending s.workers)

/-- stop() does not return over a fault that its Stopping has overwritten. -/
def keepsFault (s : System) : Choice → Bool
  | .call i _ => s.calls[i]?.all fun p => match p.2 with
    | .stop (.conclude (.release _)) => !s.overwritten
    | _ => true
  | _ => true

end System

/-- The views agree, up to a fault that the worker has recorded and not stored yet. -/
structure Agrees (sh : Shared) (pending : Bool) : Prop where
  recorded : pending = true → sh.diagnostics.lifecycle = .faulted
  same : pending = false → sh.diagnostics.lifecycle = sh.lifecycle

/-- stop() has published Stopping; a fault of the worker may be hidden behind it. -/
def Overwrites (sh : Shared) (pending : Bool) : Prop :=
  Agrees sh pending ∨
    sh.diagnostics.lifecycle = .stopping ∧ (sh.lifecycle = .faulted ∨ pending = true)

/-- What the two views are where an operation stands. -/
def CallPc.Views (sh : Shared) (pending : Bool) : CallPc → Prop
  | .start .reset | .start .supportsRetry | .start .startSource | .start (.diagnoseRefused _) =>
    sh.lifecycle = .stopped
  | .start .storeRunning => sh.diagnostics.lifecycle = .running
  | .configure _ | .start .enter | .start .createWorker | .start (.assignWorker _)
  | .start (.conclude (.release _)) | .stop .testSelf | .stop .enter | .destroy _ =>
    Agrees sh pending
  | .stop .diagnoseStopping => sh.lifecycle = .stopping ∨ sh.lifecycle = .faulted
  | .stop .requestStop | .stop (.sourceStop _) | .stop (.join _) | .stop (.awaitWorker _ _)
  | .stop (.lastLook _) | .stop (.conclude (.release _)) => Overwrites sh pending
  | _ => True

/-! ### The worker -/

/-- A pass has a result only for a frame. -/
def WorkerPc.Coherent : WorkerPc → Prop
  | .recheck pass => pass.result = none
  | .process pass => pass.status = .frame
  | .sample pass | .update pass _ _ => pass.result ≠ none → pass.status = .frame
  | _ => True

/-- What a step of the worker does to the two views. -/
inductive WorkerPc.Shows (sh sh' : Shared) (before after : Bool) : Prop
  | nothing (diagnostics : sh'.diagnostics.lifecycle = sh.diagnostics.lifecycle)
    (lifecycle : sh'.lifecycle = sh.lifecycle) (same : after = before)
  | records (diagnostics : sh'.diagnostics.lifecycle = .faulted)
    (lifecycle : sh'.lifecycle = sh.lifecycle) (now : after = true)
  | stores (diagnostics : sh'.diagnostics.lifecycle = sh.diagnostics.lifecycle)
    (lifecycle : sh'.lifecycle = .faulted) (was : before = true) (now : after = false)

section Worker

variable {platform : Platform} {answers : Answers} {sh sh' : Shared} {pc : WorkerPc}

theorem WorkerPc.not_pending_of_restful (h : pc.restful = true) : pc.pendingFault = false := by
  cases pc <;> first | rfl | cases h

theorem Shared.updateSilence_lifecycle (sh : Shared) (now : MonotonicTimestamp) :
    (sh.updateSilenceDiagnosticLocked now).diagnostics.lifecycle = sh.diagnostics.lifecycle := by
  unfold updateSilenceDiagnosticLocked
  split_ifs <;> rfl

/-- An update shows the fault of its pass, and no other. -/
theorem Shared.snapshotAndUpdate_lifecycle (sh : Shared) {pass : Pass}
    (statistics : AcquisitionStatistics) (timeoutNow : MonotonicTimestamp)
    (coherent : pass.result ≠ none → pass.status = .frame) :
    (sh.snapshotAndUpdate pass statistics timeoutNow).diagnostics.lifecycle =
      if pass.faults then .faulted else sh.diagnostics.lifecycle := by
  obtain ⟨status, frame, time, result⟩ := pass
  cases status with
  | frame =>
    cases result with
    | none => rfl
    | some result => cases result <;> rfl
  | timeout =>
    have unprocessed : result = none := by
      by_contra processed
      cases coherent processed
    subst unprocessed
    rw [if_neg (by simp [Pass.faults])]
    simp only [snapshotAndUpdate]
    split_ifs
    · exact updateSilence_lifecycle _ timeoutNow
    · rfl
  | fault => rfl
  | notStarted => rfl

theorem Shared.snapshotAndUpdate_stored (sh : Shared) (pass : Pass)
    (statistics : AcquisitionStatistics) (timeoutNow : MonotonicTimestamp) :
    (sh.snapshotAndUpdate pass statistics timeoutNow).lifecycle = sh.lifecycle := by
  obtain ⟨d, updated⟩ := sh.snapshotAndUpdate_eq pass statistics timeoutNow
  rw [updated]

theorem WorkerPc.exit_coherent (platform : Platform) :
    (exit platform).Coherent ∧ (exit platform).pendingFault = false := by
  cases platform <;> exact ⟨trivial, rfl⟩

theorem WorkerPc.Coherent.step (h : pc.Coherent) (platform : Platform) (answers : Answers)
    (sh : Shared) : ∀ pc' ∈ (pc.step platform answers sh).2.live, pc'.Coherent := by
  intro pc' live
  have leaves := exit_coherent platform
  cases pc with
  | loopTest =>
    obtain rfl := List.mem_singleton.mp live
    split_ifs
    · exact leaves.1
    · trivial
  | recheck pass =>
    obtain rfl := List.mem_singleton.mp live
    have unprocessed : pass.result = none := h
    split_ifs with up frame
    · exact leaves.1
    · exact frame
    · exact fun processed => absurd unprocessed processed
  | process pass =>
    obtain rfl := List.mem_singleton.mp live
    exact fun _ => h
  | sample pass =>
    obtain rfl := List.mem_singleton.mp live
    exact h
  | update pass statistics timeoutNow =>
    obtain rfl := List.mem_singleton.mp live
    split_ifs <;> trivial
  | onDiagnostics pass snapshot =>
    obtain rfl := List.mem_singleton.mp live
    split_ifs <;> trivial
  | sampleTime status frame =>
    obtain rfl := List.mem_singleton.mp live
    rfl
  | clearActive => cases live
  | _ =>
    obtain rfl := List.mem_singleton.mp live
    trivial

/-- A worker shows a fault in the diagnostics, carries it through its callbacks and stores it. -/
theorem WorkerPc.Coherent.shows (h : pc.Coherent) (platform : Platform) (answers : Answers)
    (sh : Shared) :
    Shows sh (pc.step platform answers sh).1 pc.pendingFault
      ((pc.step platform answers sh).2.live.any (·.pendingFault)) := by
  have leaves := exit_coherent platform
  cases pc with
  | update pass statistics timeoutNow =>
    have shown := sh.snapshotAndUpdate_lifecycle statistics timeoutNow h
    have kept := sh.snapshotAndUpdate_stored pass statistics timeoutNow
    have goes : (WorkerPc.step platform answers sh (.update pass statistics timeoutNow)).2.live.any
        (·.pendingFault) = pass.faults := by
      simp only [WorkerPc.step, Control.live_next, List.any_cons, List.any_nil, Bool.or_false]
      split_ifs <;> rfl
    cases faults : pass.faults with
    | true =>
      rw [faults, if_pos rfl] at shown
      exact .records shown kept (goes.trans faults)
    | false =>
      rw [faults, if_neg Bool.false_ne_true] at shown
      exact .nothing shown kept (goes.trans faults)
  | onDiagnostics pass snapshot =>
    refine .nothing rfl rfl ?_
    cases faults : pass.faults <;> simp [WorkerPc.step, pendingFault, faults]
  | storeFaulted => exact .stores rfl rfl rfl rfl
  | loopTest =>
    refine .nothing rfl rfl ?_
    simp only [WorkerPc.step]
    split_ifs
    · exact (Bool.or_false _).trans leaves.2
    · rfl
  | recheck pass =>
    refine .nothing rfl rfl ?_
    simp only [WorkerPc.step]
    split_ifs
    · exact (Bool.or_false _).trans leaves.2
    · rfl
    · rfl
  | _ => exact .nothing rfl rfl (by simp [WorkerPc.step, pendingFault])

variable {before after : Bool}

theorem WorkerPc.Shows.agrees (h : Shows sh sh' before after) (agrees : Agrees sh before) :
    Agrees sh' after := by
  cases h with
  | nothing diagnostics lifecycle same =>
    refine ⟨fun now => ?_, fun now => ?_⟩
    · exact diagnostics.trans (agrees.recorded (same.symm.trans now))
    · exact (diagnostics.trans (agrees.same (same.symm.trans now))).trans lifecycle.symm
  | records diagnostics lifecycle now =>
    refine ⟨fun _ => diagnostics, fun none => ?_⟩
    exact absurd (none.symm.trans now) Bool.false_ne_true
  | stores diagnostics lifecycle was now =>
    refine ⟨fun some => absurd (now.symm.trans some) Bool.false_ne_true, fun _ => ?_⟩
    exact (diagnostics.trans (agrees.recorded was)).trans lifecycle.symm

theorem WorkerPc.Shows.overwrites (h : Shows sh sh' before after)
    (overwrites : Overwrites sh before) : Overwrites sh' after := by
  rcases overwrites with agrees | ⟨stopping, hidden⟩
  · exact .inl (h.agrees agrees)
  · cases h with
    | nothing diagnostics lifecycle same =>
      refine .inr ⟨diagnostics.trans stopping, ?_⟩
      rw [lifecycle, same]
      exact hidden
    | records diagnostics lifecycle now =>
      refine .inl ⟨fun _ => diagnostics, fun none => ?_⟩
      exact absurd (none.symm.trans now) Bool.false_ne_true
    | stores diagnostics lifecycle was now =>
      exact .inr ⟨diagnostics.trans stopping, .inl lifecycle⟩

end Worker

/-! ### Operations -/

section Operations

variable {platform : Platform} {caller : Caller} {fresh : ℕ} {running : List ℕ}
  {answers : Answers} {sh sh' : Shared} {workers : List (ℕ × WorkerPc)} {before after : Bool}

theorem Agrees.of_same (h : Agrees sh before)
    (diagnostics : sh'.diagnostics.lifecycle = sh.diagnostics.lifecycle)
    (lifecycle : sh'.lifecycle = sh.lifecycle) : Agrees sh' before :=
  (WorkerPc.Shows.nothing diagnostics lifecycle rfl).agrees h

theorem Overwrites.of_same (h : Overwrites sh before)
    (diagnostics : sh'.diagnostics.lifecycle = sh.diagnostics.lifecycle)
    (lifecycle : sh'.lifecycle = sh.lifecycle) : Overwrites sh' before :=
  (WorkerPc.Shows.nothing diagnostics lifecycle rfl).overwrites h

theorem Overwrites.of_cleans (h : Overwrites sh before) (cleans : sh.Cleans sh') :
    Overwrites sh' before :=
  h.of_same (congrArg (·.lifecycle) cleans.diagnostics) cleans.lifecycle

/-- Without a worker, the two views agree when they are the same. -/
theorem Agrees.of_idle (none_alive : workers = [])
    (same : sh.diagnostics.lifecycle = sh.lifecycle) : Agrees sh (pending workers) := by
  subst none_alive
  exact ⟨fun hidden => absurd hidden Bool.false_ne_true, fun _ => same⟩

theorem StartPc.step_views {pc : StartPc} {control : Control StartPc ResultCode}
    (views : (CallPc.start pc).Views sh (pending workers)) (fact : pc.Fact platform sh workers)
    (step : pc.step platform fresh answers sh = some (sh', control)) :
    control.Settles StartPc.operating (Agrees sh' (pending workers)) fun pc' =>
      (CallPc.start pc').Views sh' (pending workers) := by
  cases pc with
  | enter =>
    simp only [StartPc.step] at step
    split_ifs at step with invalid busy live <;>
      obtain ⟨rfl, rfl⟩ := Prod.mk.inj (Option.some.inj step)
    · exact views
    · exact views
    · exact views
    · exact .holding rfl (not_not.mp live)
  | reset | supportsRetry =>
    obtain ⟨rfl, rfl⟩ := Prod.mk.inj (Option.some.inj step)
    exact .holding rfl views
  | startSource =>
    simp only [StartPc.step] at step
    split_ifs at step <;> obtain ⟨rfl, rfl⟩ := Prod.mk.inj (Option.some.inj step)
    · exact .holding rfl trivial
    · exact .holding rfl trivial
    · exact .holding rfl views
  | diagnoseRefused result =>
    obtain ⟨rfl, rfl⟩ := Prod.mk.inj (Option.some.inj step)
    have stopped : sh.lifecycle = .stopped := views
    exact .holding rfl (.of_idle fact.1.none_alive stopped.symm)
  | partialCleanup pc result =>
    obtain ⟨rfl, rfl⟩ := Prod.mk.inj (Option.some.inj step)
    cases (pc.stepPartialStart sh answers.result).2 <;> exact .holding rfl trivial
  | sourceStop pc =>
    obtain ⟨rfl, rfl⟩ := Prod.mk.inj (Option.some.inj step)
    cases (pc.stepSourceStop sh answers.result).2 <;> exact .holding rfl trivial
  | resetDiagnostics =>
    obtain ⟨rfl, rfl⟩ := Prod.mk.inj (Option.some.inj step)
    exact .holding rfl rfl
  | storeRunning =>
    obtain ⟨rfl, rfl⟩ := Prod.mk.inj (Option.some.inj step)
    have shown : sh.diagnostics.lifecycle = .running := views
    exact .holding rfl (.of_idle fact.1.none_alive shown)
  | createWorker =>
    have agrees : Agrees sh (pending workers) := views
    simp only [StartPc.step] at step
    split_ifs at step
    · cases platform <;> obtain ⟨rfl, rfl⟩ := Prod.mk.inj (Option.some.inj step) <;>
        exact .holding rfl (agrees.of_same rfl rfl)
    · obtain ⟨rfl, rfl⟩ := Prod.mk.inj (Option.some.inj step)
      exact .holding rfl trivial
  | assignWorker id =>
    have agrees : Agrees sh (pending workers) := views
    simp only [StartPc.step] at step
    split_ifs at step
    obtain ⟨rfl, rfl⟩ := Prod.mk.inj (Option.some.inj step)
    exact .holding rfl (agrees.of_same rfl rfl)
  | conclude pc =>
    obtain ⟨rfl, rfl⟩ := Prod.mk.inj (Option.some.inj step)
    cases pc with
    | store clean result => exact .holding rfl trivial
    | diagnose clean result => exact .holding rfl (.of_idle fact.1.none_alive fact.2.2.2.symm)
    | release result => exact Agrees.of_same views rfl rfl
  | _ =>
    obtain ⟨rfl, rfl⟩ := Prod.mk.inj (Option.some.inj step)
    exact .holding rfl trivial

/-- stop() may overwrite a fault; it makes up for it unless it gives up. -/
theorem StopPc.step_views {pc : StopPc} {control : Control StopPc ResultCode}
    (views : (CallPc.stop pc).Views sh (pending workers)) (fact : pc.Fact platform sh workers)
    (kept : ∀ result, pc = .conclude (.release result) → sh.diagnostics.lifecycle = .stopping →
      sh.lifecycle ≠ .faulted ∧ pending workers = false)
    (step : pc.step platform caller running answers sh = some (sh', control)) :
    control.Settles StopPc.operating (Agrees sh' (pending workers)) fun pc' =>
      (CallPc.stop pc').Views sh' (pending workers) := by
  cases pc with
  | testSelf =>
    obtain ⟨rfl, rfl⟩ := Prod.mk.inj (Option.some.inj step)
    split_ifs
    · exact views
    · exact .resting rfl views
  | enter =>
    simp only [StopPc.step] at step
    split_ifs at step <;> obtain ⟨rfl, rfl⟩ := Prod.mk.inj (Option.some.inj step)
    · exact views
    · exact views
    · exact .holding rfl trivial
    · exact .holding rfl (.inl rfl)
  | diagnosePartial =>
    obtain ⟨rfl, rfl⟩ := Prod.mk.inj (Option.some.inj step)
    exact .holding rfl trivial
  | partialCleanup pc =>
    obtain ⟨rfl, rfl⟩ := Prod.mk.inj (Option.some.inj step)
    cases (pc.stepPartialStart sh answers.result).2 <;> exact .holding rfl trivial
  | diagnoseStopping =>
    obtain ⟨rfl, rfl⟩ := Prod.mk.inj (Option.some.inj step)
    refine .holding rfl ?_
    rcases views with stopping | faulted
    · cases hidden : pending workers with
      | false => exact .inl ⟨fun none => absurd none Bool.false_ne_true, fun _ => stopping.symm⟩
      | true => exact .inr ⟨rfl, .inr rfl⟩
    · exact .inr ⟨rfl, .inl faulted⟩
  | requestStop =>
    obtain ⟨rfl, rfl⟩ := Prod.mk.inj (Option.some.inj step)
    exact .holding rfl (Overwrites.of_same views rfl rfl)
  | sourceStop pc =>
    obtain ⟨rfl, rfl⟩ := Prod.mk.inj (Option.some.inj step)
    have overwrites := Overwrites.of_cleans views (pc.stepSourceStop_cleans sh answers.result)
    cases (pc.stepSourceStop sh answers.result).2 with
    | next pc' => exact .holding rfl overwrites
    | ret result =>
      simp only [Control.call_ret]
      split_ifs
      · exact .holding rfl overwrites
      · cases platform <;> exact .holding rfl overwrites
  | join result =>
    obtain ⟨joined, join, same⟩ := Option.map_eq_some_iff.mp step
    obtain ⟨rfl, rfl⟩ := Prod.mk.inj same
    exact .holding rfl trivial
  | awaitWorker waited result =>
    obtain ⟨rfl, rfl⟩ := Prod.mk.inj (Option.some.inj step)
    split_ifs <;> exact .holding rfl views
  | lastLook result =>
    obtain ⟨rfl, rfl⟩ := Prod.mk.inj (Option.some.inj step)
    refine .holding rfl ?_
    by_cases active : sh.workerActive = true
    · rw [if_pos active]
      exact views
    · rw [if_neg active]
      trivial
  | conclude pc =>
    obtain ⟨rfl, rfl⟩ := Prod.mk.inj (Option.some.inj step)
    cases pc with
    | store clean result => exact .holding rfl trivial
    | diagnose clean result =>
      exact .holding rfl (.inl (.of_idle fact.1.1.none_alive fact.1.2.2.2.symm))
    | release result =>
      rcases (views : Overwrites sh (pending workers)) with agrees | ⟨stopping, hidden⟩
      · exact agrees.of_same rfl rfl
      · obtain ⟨stored, recorded⟩ := kept result rfl stopping
        rcases hidden with faulted | waits
        · exact absurd faulted stored
        · exact absurd (recorded.symm.trans waits) Bool.false_ne_true

theorem CallPc.views_of_waiting {pc : CallPc} (waiting : pc.operating = false)
    (agrees : Agrees sh before) : pc.Views sh before := by
  rcases waiting_cases waiting with ⟨config, rfl⟩ | rfl | rfl | rfl <;> exact agrees

theorem CallPc.fact_of_waiting {pc : CallPc} (waiting : pc.operating = false) :
    pc.Fact platform sh workers := by
  rcases waiting_cases waiting with ⟨config, rfl⟩ | rfl | rfl | rfl <;> trivial

/-- One step of a call, where a stop() that releases the operation hides no fault. -/
theorem CallPc.step_views {pc : CallPc} {control : Control CallPc (Option ResultCode)}
    (views : pc.Views sh (pending workers))
    (fact : (∀ destroyer, pc ≠ .destroy destroyer) → pc.Fact platform sh workers)
    (kept : ∀ result, pc = .stop (.conclude (.release result)) →
      sh.diagnostics.lifecycle = .stopping → sh.lifecycle ≠ .faulted ∧ pending workers = false)
    (step : pc.step platform caller fresh running answers sh = some (sh', control)) :
    control.Settles CallPc.operating (Agrees sh' (pending workers)) fun pc' =>
      pc'.Views sh' (pending workers) := by
  cases pc with
  | configure config =>
    have agrees : Agrees sh (pending workers) := views
    have outcome := Option.some.inj step
    split_ifs at outcome <;> obtain ⟨rfl, rfl⟩ := Prod.mk.inj outcome
    · exact agrees
    · exact agrees
    · exact agrees.of_same rfl rfl
  | start pc =>
    obtain ⟨⟨shared, inner⟩, inside, same⟩ := Option.map_eq_some_iff.mp step
    obtain ⟨rfl, rfl⟩ := Prod.mk.inj same
    exact (StartPc.step_views views (fact (by simp)) inside).call (fun _ => rfl) fun _ h => h
  | stop pc =>
    obtain ⟨⟨shared, inner⟩, inside, same⟩ := Option.map_eq_some_iff.mp step
    obtain ⟨rfl, rfl⟩ := Prod.mk.inj same
    exact (StopPc.step_views views (fact (by simp)) (by simpa using kept) inside).call
      (fun _ => rfl) fun _ h => h
  | destroy pc =>
    obtain ⟨⟨shared, inner⟩, inside, same⟩ := Option.map_eq_some_iff.mp step
    obtain ⟨rfl, rfl⟩ := Prod.mk.inj same
    have agrees : Agrees sh (pending workers) := views
    have agrees' : Agrees shared (pending workers) := by
      cases DestroyPc.step_does inside with
      | nothing => exact agrees
      | requests => exact agrees.of_same rfl rfl
      | cleans sh' cleans unowned =>
        exact agrees.of_same (congrArg (·.lifecycle) cleans.diagnostics) cleans.lifecycle
      | joins host finished => exact agrees.of_same rfl rfl
    cases inner with
    | next pc' => exact .holding rfl agrees'
    | ret value => exact agrees'

/-- start() publishes before there is a worker. -/
def CallPc.alone : CallPc → Bool
  | .start .reset | .start .supportsRetry | .start .startSource | .start (.diagnoseRefused _)
  | .start .storeRunning => true
  | _ => false

theorem CallPc.Fact.none_alive {pc : CallPc} (h : pc.Fact platform sh workers)
    (alone : pc.alone = true) : workers = [] := by
  cases pc with
  | start pc =>
    cases pc with
    | reset | supportsRetry | startSource | diagnoseRefused => exact h.1.none_alive
    | storeRunning => exact h.1.none_alive
    | _ => cases alone
  | _ => cases alone

/-- What another thread does to the views, if it leaves a start() without a worker alone. -/
theorem CallPc.Views.shown {pc : CallPc} (h : pc.Views sh before)
    (shows : WorkerPc.Shows sh sh' before after)
    (kept : pc.alone = true → sh'.diagnostics.lifecycle = sh.diagnostics.lifecycle ∧
      sh'.lifecycle = sh.lifecycle) : pc.Views sh' after := by
  cases pc with
  | configure config => exact shows.agrees h
  | start pc =>
    cases pc with
    | reset | supportsRetry | startSource | diagnoseRefused => exact (kept rfl).2.trans h
    | storeRunning => exact (kept rfl).1.trans h
    | enter | createWorker | assignWorker => exact shows.agrees h
    | conclude pc =>
      cases pc with
      | release result => exact shows.agrees h
      | _ => trivial
    | _ => trivial
  | stop pc =>
    cases pc with
    | testSelf | enter => exact shows.agrees h
    | diagnoseStopping =>
      cases shows with
      | nothing diagnostics lifecycle same => exact Or.imp lifecycle.trans lifecycle.trans h
      | records diagnostics lifecycle now => exact Or.imp lifecycle.trans lifecycle.trans h
      | stores diagnostics lifecycle was now => exact .inr lifecycle
    | requestStop | sourceStop | join | awaitWorker | lastLook => exact shows.overwrites h
    | conclude pc =>
      cases pc with
      | release result => exact shows.overwrites h
      | _ => trivial
    | _ => trivial
  | destroy pc => exact shows.agrees h

end Operations

/-! ### Runs -/

theorem pending_append_spawned (workers : List (ℕ × WorkerPc)) (pc : CallPc) (fresh : ℕ)
    (answers : Answers) : pending (workers ++ pc.spawned fresh answers) = pending workers := by
  have idle : pending (pc.spawned fresh answers) = false := by
    rw [pending, List.any_eq_false]
    intro w created
    rw [CallPc.loopTest_of_spawned created]
    exact Bool.false_ne_true
  have both : pending (workers ++ pc.spawned fresh answers) =
      (pending workers || pending (pc.spawned fresh answers)) := List.any_append
  rw [both, idle, Bool.or_false]

namespace System

/-- What the two views are in a run, wherever its operation stands. -/
structure Viewed (s : System) : Prop where
  views : Held (fun p : Caller × CallPc => p.2.operating) (Agrees s.shared (pending s.workers))
    (fun p => p.2.Views s.shared (pending s.workers)) s.calls
  workers : ∀ w ∈ s.workers, w.2.Coherent

variable {platform : Platform} {s t : System}

theorem Viewed.call (h : s.Viewed) (governed : s.Governed platform) {i : ℕ} {answers : Answers}
    (keeps : s.keepsFault (.call i answers) = true)
    (step : s.next platform (.call i answers) = some t) : t.Viewed := by
  obtain ⟨caller, pc, shared, control, found, inside, rfl⟩ := next_call step
  have member := List.mem_of_getElem? found
  have fact (usable : ∀ destroyer, pc ≠ .destroy destroyer) :
      pc.Fact platform s.shared s.workers := by
    cases operating : pc.operating with
    | true => exact (governed.fact member operating usable).2
    | false => exact CallPc.fact_of_waiting operating
  have kept (result : ResultCode) (releases : pc = .stop (.conclude (.release result)))
      (stopping : s.shared.diagnostics.lifecycle = .stopping) :
      s.shared.lifecycle ≠ .faulted ∧ pending s.workers = false := by
    subst releases
    simpa [keepsFault, found, overwritten, stopping] using keeps
  have settles (views : pc.Views s.shared (pending s.workers)) :=
    CallPc.step_views views fact kept inside
  refine ⟨?_, ?_⟩
  · show Held _ _ _ (resume s.calls i _)
    rw [pending_append_spawned]
    refine governed.call_held h.views found inside (fun _ views => settles views)
      (fun waiting rest => settles (CallPc.views_of_waiting waiting rest)) ?_
    intro waiting same q views
    rw [same]
    exact views
  · intro w member
    rcases List.mem_append.mp member with earlier | created
    · exact h.workers w earlier
    · rw [CallPc.loopTest_of_spawned created]
      trivial

theorem Viewed.worker (h : s.Viewed) (governed : s.Governed platform) {i : ℕ} {answers : Answers}
    (step : s.next platform (.worker i answers) = some t) : t.Viewed := by
  obtain ⟨id, pc, found, -, rfl⟩ := next_worker step
  obtain ⟨single, resumed⟩ := governed.worker_alone found
  have coherent := h.workers _ (List.mem_of_getElem? found)
  have shows := coherent.shows platform answers s.shared
  have before : pending s.workers = pc.pendingFault := by simp [single, pending]
  have after : pending (resume s.workers i ((pc.step platform answers s.shared).2.call (id, ·)
      (.ret : Unit → Control (ℕ × WorkerPc) Unit))) =
      (pc.step platform answers s.shared).2.live.any (·.pendingFault) := by
    rw [resumed]
    cases (pc.step platform answers s.shared).2 <;> simp [pending]
  refine ⟨?_, ?_⟩
  · refine h.views.mono (fun agrees => ?_) fun p member operating views => ?_
    · rw [before] at agrees
      exact after ▸ shows.agrees agrees
    · rw [before] at views
      refine after ▸ views.shown shows fun alone => ?_
      have usable (destroyer : DestroyPc) : p.2 ≠ .destroy destroyer := by
        intro destroys
        rw [destroys] at alone
        cases alone
      have fact := (governed.fact member operating usable).2
      have none_alive := fact.none_alive alone
      rw [single] at none_alive
      cases none_alive
  · show ∀ w ∈ resume s.workers i _, _
    rw [resumed]
    exact Control.forall_mem_live_call
      (fun pc' next => coherent.step platform answers s.shared pc' (by simp [next])) (by simp)

theorem Viewed.next (h : s.Viewed) (governed : s.Governed platform) {k : Choice}
    (keeps : s.keepsFault k = true) (step : s.next platform k = some t) : t.Viewed := by
  cases k with
  | call i answers => exact h.call governed keeps step
  | worker i answers => exact h.worker governed step
  | begin caller operation =>
    obtain ⟨-, rfl⟩ := next_begin step
    refine ⟨h.views.join ?_, h.workers⟩
    cases operation <;> rfl
  | beginDestroy caller =>
    obtain ⟨-, quiet, -, rfl⟩ := next_beginDestroy step
    have views := h.views
    rw [quiet] at views
    exact ⟨views.alone rfl id, h.workers⟩
  | beginDiagnostics caller =>
    obtain ⟨-, rfl⟩ := next_beginDiagnostics step
    exact ⟨h.views, h.workers⟩
  | reader i answers =>
    obtain ⟨caller, pc, found, rfl⟩ := next_reader step
    obtain ⟨d, published⟩ := pc.step_published answers s.shared
    have lifecycle : (pc.step answers s.shared).1.lifecycle = s.shared.lifecycle := by
      rw [published]
    have diagnostics : (pc.step answers s.shared).1.diagnostics.lifecycle =
        s.shared.diagnostics.lifecycle := by
      cases pc with
      | sample => rfl
      | evaluate now => exact s.shared.updateSilence_lifecycle now
    have shows : WorkerPc.Shows s.shared (pc.step answers s.shared).1 (pending s.workers)
        (pending s.workers) := .nothing diagnostics lifecycle rfl
    exact ⟨h.views.mono shows.agrees fun p _ _ views =>
      views.shown shows fun _ => ⟨diagnostics, lifecycle⟩, h.workers⟩

theorem viewed_of_run {ks : List Choice}
    (run : exec (guarded keepsFault (next platform)) {} ks = some s) :
    s.Governed platform ∧ s.Viewed := by
  refine exec_invariant (P := fun s : System => s.Governed platform ∧ s.Viewed) ?_ run
    ⟨.initial platform, .start ⟨fun none => absurd none Bool.false_ne_true, fun _ => rfl⟩,
      by simp⟩
  rintro s k t ⟨governed, viewed⟩ step
  obtain ⟨keeps, step⟩ := guarded_eq_some.mp step
  exact ⟨governed.next step, viewed.next governed keeps step⟩

/-- In the absence of an operation the views agree, up to a fault on its way. -/
theorem Viewed.agrees (h : s.Viewed) (governed : s.Governed platform)
    (inactive : s.shared.lifecycleOperationActive = false) :
    Agrees s.shared (pending s.workers) := by
  rcases governed.between h.views inactive with agrees | ⟨-, destroyer, agrees⟩
  · exact agrees
  · exact agrees

/-- As long as no stop() gives up over a fault that its Stopping has overwritten, both views
are the same whenever no operation is active and the worker is blocked or gone. -/
theorem views_agree {ks : List Choice}
    (run : exec (guarded keepsFault (next platform)) {} ks = some s)
    (rest : s.quiescent = true) : s.shared.diagnostics.lifecycle = s.shared.lifecycle := by
  obtain ⟨governed, viewed⟩ := viewed_of_run run
  obtain ⟨inactive, restful⟩ := Bool.and_eq_true _ _ |>.mp rest
  refine (viewed.agrees governed (by simpa using inactive)).same ?_
  rw [pending, List.any_eq_false]
  intro w member
  exact ne_true_of_eq_false
    (WorkerPc.not_pending_of_restful (List.all_eq_true.mp restful w member))

/-- start(), and a worker whose receive() has failed, inside its observer's callback. -/
def workerFails : List Choice :=
  [.begin none .start] ++ List.replicate 11 (.call 0 { retrySupported := true }) ++
    List.replicate 6 (.worker 0 { received := .fault })

/-- stop() publishes Stopping over the fault; when the worker has stored it and has left,
stop() joins it and publishes Stopped. -/
def stopMakesUp : List Choice :=
  workerFails ++ [.begin none .stop] ++ List.replicate 6 (.call 0 {}) ++
    List.replicate 5 (.worker 0 {}) ++ List.replicate 4 (.call 0 {})

theorem stop_makes_up_agrees :
    (final (guarded keepsFault (next .host)) {} stopMakesUp).shared.diagnostics.lifecycle =
      (final (guarded keepsFault (next .host)) {} stopMakesUp).shared.lifecycle :=
  views_agree (exec_eq_final (guarded keepsFault (next .host)) {} stopMakesUp (by decide))
    (by decide)

/-- The stop() of the source times out, so stop() gives up; then the worker stores Faulted. -/
def stopGivesUp : List Choice :=
  workerFails ++ [.begin none .stop] ++ List.replicate 7 (.call 0 { result := .timeout }) ++
    List.replicate 4 (.worker 0 {})

theorem stop_gives_up_disagrees :
    (exec (next .host) {} stopGivesUp).isSome = true ∧
      (final (next .host) {} stopGivesUp).quiescent = true ∧
      (final (next .host) {} stopGivesUp).shared.diagnostics.lifecycle = .stopping ∧
      (final (next .host) {} stopGivesUp).shared.lifecycle = .faulted := by
  exact ⟨by decide, by decide, by decide, by decide⟩

end System

end CanTelemetry.VehicleTelemetry
