import CanTelemetry.VehicleTelemetry.FrameAccount

/-! Transport silence. TimedOut is stored by diagnostics() and by the worker's timeout polls,
and only a frame takes it back, with a time that was sampled before the frame was
processed. As long as the clock does not go backwards, what is stored is justified for
every later sample, so that diagnostics() reports a function of the last frame and of the
clock it has sampled. -/

namespace CanTelemetry.VehicleTelemetry

open Execution Threads VehicleCore

/-- The transport as a function of the last frame of the run and of the clock. -/
def transportAt (silence : Microseconds) (now : MonotonicTimestamp) :
    Option MonotonicTimestamp → TransportHealth
  | none => .awaitingTraffic
  | some last => if silence ≤ now - last then .timedOut else .live

/-- The diagnostics hold the last frame, and a silence that is stored is one at this clock. -/
def TransportDiagnostics.Holds (d : TransportDiagnostics) (silence : Microseconds)
    (clock : MonotonicTimestamp) : Option MonotonicTimestamp → Prop
  | none => d.hasLastFrame = false ∧ d.transport = .awaitingTraffic
  | some last => d.hasLastFrame = true ∧ d.lastFrameUs = last ∧ last ≤ clock ∧
    (d.transport = .live ∨ d.transport = .timedOut ∧ silence ≤ clock - last)

section Clock

variable {silence : Microseconds} {clock clock' : MonotonicTimestamp}
  {last : Option MonotonicTimestamp} {d d' : TransportDiagnostics}

/-- Time that has passed at one clock has passed at every later one. -/
theorem elapsed_mono {from' : MonotonicTimestamp} (before : from' ≤ clock) (later : clock ≤ clock') :
    clock - from' ≤ clock' - from' := by
  rw [BitVec.le_def] at before later ⊢
  rw [BitVec.toNat_sub_of_le before,
    BitVec.toNat_sub_of_le (BitVec.le_def.mpr (before.trans later))]
  omega

theorem TransportDiagnostics.Holds.later (h : d.Holds silence clock last)
    (later : clock ≤ clock') : d.Holds silence clock' last := by
  cases last with
  | none => exact h
  | some last =>
    obtain ⟨seen, same, before, transport⟩ := h
    refine ⟨seen, same, BitVec.le_trans before later, transport.imp_right ?_⟩
    rintro ⟨timedOut, silent⟩
    exact ⟨timedOut, BitVec.le_trans silent (elapsed_mono before later)⟩

theorem TransportDiagnostics.Holds.of_same (h : d.Holds silence clock last)
    (record : d.SameRecord d') (transport : d'.transport = d.transport) :
    d'.Holds silence clock last := by
  cases last with
  | none => exact ⟨record.hasLastFrame.trans h.1, transport.trans h.2⟩
  | some last =>
    obtain ⟨seen, same, before, shown⟩ := h
    refine ⟨record.hasLastFrame.trans seen, record.lastFrameUs.trans same, before, ?_⟩
    rw [transport]
    exact shown

theorem TransportDiagnostics.Holds.hasLastFrame (h : d.Holds silence clock last) :
    d.hasLastFrame = last.isSome := by
  cases last with
  | none => exact h.1
  | some last => exact h.1

theorem TransportDiagnostics.Holds.lastFrameUs (h : d.Holds silence clock last) :
    ∀ l ∈ last, d.lastFrameUs = l ∧ l ≤ clock := by
  rintro l rfl
  exact ⟨h.2.1, h.2.2.1⟩

/-- Looking for a silence at the clock leaves what the clock and the last frame say. -/
theorem Shared.evaluate (sh : Shared) (h : sh.diagnostics.Holds silence clock last)
    (config : sh.config.transportSilenceTimeoutUs = silence)
    (running : last.isSome = true → sh.lifecycle = .running) :
    (sh.updateSilenceDiagnosticLocked clock).diagnostics.Holds silence clock last ∧
      (sh.updateSilenceDiagnosticLocked clock).diagnostics.transport =
        transportAt silence clock last := by
  cases last with
  | none =>
    have unwatched : sh.updateSilenceDiagnosticLocked clock = sh := if_pos (.inr h.1)
    rw [unwatched]
    exact ⟨h, h.2⟩
  | some last =>
    obtain ⟨seen, same, before, transport⟩ := h
    have watched : ¬(sh.lifecycle ≠ .running ∨ sh.diagnostics.hasLastFrame = false) := by
      simp [running rfl, seen]
    rw [updateSilenceDiagnosticLocked, if_neg watched]
    simp only [transportAt]
    by_cases silent : silence ≤ clock - last
    · have found : sh.silent clock = true := by
        simp [Shared.silent, same, config, before, silent]
      rw [if_pos found, if_pos silent]
      exact ⟨⟨seen, same, before, .inr ⟨rfl, silent⟩⟩, rfl⟩
    · have missed : ¬sh.silent clock = true := by
        simp [Shared.silent, same, config, silent]
      have live := transport.resolve_right fun absurd => silent absurd.2
      rw [if_neg missed, if_neg silent]
      exact ⟨⟨seen, same, before, .inl live⟩, live⟩

end Clock

/-! ### The worker -/

/-- The pass has a frame or a timeout, and no fault. -/
structure Pass.Regular (pass : Pass) (clock : MonotonicTimestamp) : Prop where
  received : pass.status = .frame ∨ pass.status = .timeout
  processed : pass.result ≠ some .fault
  sampled : pass.receiveTimeUs ≤ clock

theorem Pass.Regular.faults {pass : Pass} {clock : MonotonicTimestamp} (h : pass.Regular clock) :
    pass.faults = false := by
  rcases h.received with received | received <;> simp [Pass.faults, received, h.processed]

/-- The update that follows its samples at once. -/
def WorkerPc.midway : WorkerPc → Bool
  | .update _ _ _ => true
  | _ => false

/-- What the worker has sampled is not later than the clock. -/
def WorkerPc.Timely (clock : MonotonicTimestamp) : WorkerPc → Prop
  | .sampleTime status _ => status = .frame ∨ status = .timeout
  | .recheck pass => pass.Regular clock ∧ pass.result = none
  | .process pass => pass.Regular clock ∧ pass.status = .frame
  | .sample pass => pass.Regular clock ∧ pass.Complete
  | .update pass _ timeoutNow =>
    pass.Regular clock ∧ pass.Complete ∧ (pass.status = .timeout → timeoutNow = clock)
  | .onFrameProcessed pass _ | .onDiagnostics pass _ => pass.faults = false
  | .storeFaulted => False
  | _ => True

/-- The clock that the worker samples with this step. -/
def WorkerPc.samples (answers : Answers) : WorkerPc → List MonotonicTimestamp
  | .sampleTime _ _ => [answers.now]
  | .sample pass => if pass.status = .timeout then [answers.now] else []
  | _ => []

/-- The time of the frame that this step records. -/
def WorkerPc.records : WorkerPc → List MonotonicTimestamp
  | .update pass _ _ => if pass.status = .frame then [pass.receiveTimeUs] else []
  | _ => []

/-- No fault comes back. -/
def WorkerPc.regular (answers : Answers) : WorkerPc → Bool
  | .receive => answers.received = .frame || answers.received = .timeout
  | .process _ => answers.processed ≠ .fault
  | _ => true

section Worker

variable {answers : Answers} {silence : Microseconds}
  {clock clock' : MonotonicTimestamp} {last : Option MonotonicTimestamp} {sh : Shared}
  {pc : WorkerPc}

theorem Pass.Regular.later {pass : Pass} (h : pass.Regular clock) (later : clock ≤ clock') :
    pass.Regular clock' :=
  ⟨h.received, h.processed, BitVec.le_trans h.sampled later⟩

theorem WorkerPc.Timely.later (h : pc.Timely clock) (settled : pc.midway = false)
    (later : clock ≤ clock') : pc.Timely clock' := by
  cases pc with
  | recheck pass => exact ⟨h.1.later later, h.2⟩
  | process pass => exact ⟨h.1.later later, h.2⟩
  | sample pass => exact ⟨h.1.later later, h.2⟩
  | update pass statistics now => cases settled
  | _ => exact h

/-- The update of a regular pass. -/
theorem Shared.snapshotAndUpdate_holds {pass : Pass} {statistics : AcquisitionStatistics}
    {timeoutNow : MonotonicTimestamp} (h : sh.diagnostics.Holds silence clock last)
    (config : sh.config.transportSilenceTimeoutUs = silence) (running : sh.lifecycle = .running)
    (regular : pass.Regular clock) (complete : pass.Complete)
    (sampled : pass.status = .timeout → timeoutNow = clock) :
    (sh.snapshotAndUpdate pass statistics timeoutNow).diagnostics.Holds silence clock
      ((WorkerPc.update pass statistics timeoutNow).records.getLast?.or last) := by
  rcases regular.received with received | received
  · obtain ⟨-, result, processed⟩ := complete.resolve_right fun absurd => absurd.1 received
    have regularResult : result ≠ .fault := by
      rintro rfl
      exact regular.processed processed
    simp only [snapshotAndUpdate, WorkerPc.records, received, processed, if_pos,
      List.getLast?_singleton, Option.some_or]
    cases result with
    | fault => exact absurd rfl regularResult
    | _ => exact ⟨rfl, rfl, regular.sampled, .inl rfl⟩
  · obtain rfl := sampled received
    have taken : (WorkerPc.update pass statistics timeoutNow).records = [] := by
      simp [WorkerPc.records, received]
    simp only [snapshotAndUpdate, received, taken, List.getLast?_nil, Option.none_or]
    have same : TransportDiagnostics.Holds { sh.diagnostics with acquisition := statistics } silence
        timeoutNow last := h.of_same ⟨⟨rfl, rfl, rfl, rfl⟩, rfl, rfl⟩ rfl
    split_ifs with seen
    · let acquired : Shared :=
        { sh with diagnostics := { sh.diagnostics with acquisition := statistics } }
      have evaluated : (acquired.updateSilenceDiagnosticLocked timeoutNow).diagnostics.Holds
          silence timeoutNow last ∧ _ := acquired.evaluate same config fun _ => running
      exact evaluated.1
    · cases last with
      | none => exact ⟨h.1, rfl⟩
      | some last => exact absurd h.1 seen

/-- One step of the worker in a run without a fault. -/
theorem WorkerPc.step_timely (platform : Platform) (h : pc.Timely clock)
    (holds : sh.diagnostics.Holds silence clock last)
    (config : sh.config.transportSilenceTimeoutUs = silence) (running : sh.lifecycle = .running)
    (regular : pc.regular answers = true) (ordered : ∀ now ∈ pc.samples answers, clock ≤ now) :
    (pc.step platform answers sh).1.config = sh.config ∧
      (pc.step platform answers sh).1.lifecycle = .running ∧
      (pc.step platform answers sh).1.diagnostics.Holds silence
        ((pc.samples answers).getLastD clock) (pc.records.getLast?.or last) ∧
      ∀ pc' ∈ (pc.step platform answers sh).2.live,
        pc'.Timely ((pc.samples answers).getLastD clock) := by
  have leaves (clock : MonotonicTimestamp) : (exit platform).Timely clock := by
    cases platform <;> trivial
  cases pc with
  | loopTest =>
    refine ⟨rfl, running, holds, ?_⟩
    intro pc' live
    obtain rfl := List.mem_singleton.mp live
    split_ifs
    · exact leaves _
    · trivial
  | receive =>
    refine ⟨rfl, running, holds, ?_⟩
    intro pc' live
    obtain rfl := List.mem_singleton.mp live
    have back : answers.received = .frame ∨ answers.received = .timeout := by
      simpa [WorkerPc.regular] using regular
    exact back
  | sampleTime status frame =>
    refine ⟨rfl, running, holds.later (ordered answers.now (by simp [samples])), ?_⟩
    intro pc' live
    obtain rfl := List.mem_singleton.mp live
    exact ⟨⟨h, by simp, BitVec.le_refl _⟩, rfl⟩
  | recheck pass =>
    refine ⟨rfl, running, holds, ?_⟩
    intro pc' live
    obtain rfl := List.mem_singleton.mp live
    split_ifs with requested received
    · exact leaves _
    · exact ⟨h.1, received⟩
    · exact ⟨h.1, .inr ⟨received, h.2⟩⟩
  | process pass =>
    refine ⟨rfl, running, holds, ?_⟩
    intro pc' live
    obtain rfl := List.mem_singleton.mp live
    have processed : answers.processed ≠ .fault := by simpa [WorkerPc.regular] using regular
    refine ⟨⟨h.1.received, ?_, h.1.sampled⟩, .inl ⟨h.2, answers.processed, rfl⟩⟩
    exact fun absurd => processed (Option.some.inj absurd)
  | sample pass =>
    have later : clock ≤ (samples answers (.sample pass)).getLastD clock := by
      by_cases received : pass.status = .timeout
      · simp only [samples, if_pos received]
        exact ordered answers.now (by simp [samples, received])
      · simp only [samples, if_neg received]
        exact BitVec.le_refl _
    refine ⟨rfl, running, holds.later later, ?_⟩
    intro pc' live
    obtain rfl := List.mem_singleton.mp live
    refine ⟨h.1.later later, h.2, ?_⟩
    intro received
    simp [samples, received]
  | update pass statistics now =>
    obtain ⟨regular, complete, sampled⟩ := h
    obtain ⟨d, updated⟩ := sh.snapshotAndUpdate_eq pass statistics now
    refine ⟨?_, ?_,
      Shared.snapshotAndUpdate_holds holds config running regular complete sampled, ?_⟩
    · simp only [step, updated]
    · simp only [step, updated]
      exact running
    · intro pc' live
      obtain rfl := List.mem_singleton.mp live
      split_ifs
      · exact regular.faults
      · exact regular.faults
  | onFrameProcessed pass snapshot =>
    refine ⟨rfl, running, holds, ?_⟩
    intro pc' live
    obtain rfl := List.mem_singleton.mp live
    exact h
  | onDiagnostics pass snapshot =>
    refine ⟨rfl, running, holds, ?_⟩
    intro pc' live
    obtain rfl := List.mem_singleton.mp live
    have faults : pass.faults = false := h
    simp [faults, Timely]
  | storeFaulted => exact absurd h id
  | requestStop =>
    refine ⟨rfl, running, holds, ?_⟩
    intro pc' live
    obtain rfl := List.mem_singleton.mp live
    trivial
  | clearTask =>
    refine ⟨rfl, running, holds, ?_⟩
    intro pc' live
    obtain rfl := List.mem_singleton.mp live
    trivial
  | clearActive => exact ⟨rfl, running, holds, by simp [step]⟩

end Worker

/-! ### The operations -/

/-- A call that does not disturb the run: it has not begun, or it is the start() that has
cleared the diagnostics, or the destructor, which stores neither lifecycle nor diagnostics. -/
def CallPc.Harmless (lifecycle : LifecycleState) : CallPc → Prop
  | .configure _ | .start .enter | .start .storeRunning | .stop .testSelf | .stop .enter
  | .destroy _ => True
  | .start .createWorker | .start (.assignWorker _) | .start (.conclude (.release _)) =>
    lifecycle = .running
  | _ => False

/-- No stop() begins its work, and start() gets its worker. -/
def CallPc.regular (active : Bool) (answers : Answers) : CallPc → Bool
  | .stop .enter => active
  | .start .createWorker => answers.created
  | _ => true

theorem CallPc.Harmless.mono {pc : CallPc} {lifecycle lifecycle' : LifecycleState}
    (h : pc.Harmless lifecycle) (goes : lifecycle' = lifecycle ∨ lifecycle' = .running) :
    pc.Harmless lifecycle' := by
  rcases goes with rfl | rfl
  · exact h
  · unfold CallPc.Harmless at h ⊢
    split at h <;> trivial

section Calls

variable {platform : Platform} {caller : Caller} {fresh : ℕ} {running : List ℕ}
  {answers : Answers} {sh sh' : Shared}

/-- One step of start() in a run that is not disturbed. -/
theorem StartPc.step_harmless {pc : StartPc} {control : Control StartPc ResultCode}
    (h : (CallPc.start pc).Harmless sh.lifecycle)
    (engaged : sh.lifecycleOperationActive = true ∨ sh.lifecycle = .running)
    (regular : (CallPc.start pc).regular sh.lifecycleOperationActive answers = true)
    (step : pc.step platform fresh answers sh = some (sh', control)) :
    sh'.diagnostics = sh.diagnostics ∧ sh'.config = sh.config ∧
      (sh'.lifecycle = sh.lifecycle ∨ sh'.lifecycle = .running) ∧
      (pc = .storeRunning → sh'.lifecycle = .running) ∧
      ∀ pc' ∈ control.live, (CallPc.start pc').Harmless sh'.lifecycle := by
  cases pc with
  | enter =>
    simp only [StartPc.step] at step
    split_ifs at step with invalid active state
    · obtain ⟨rfl, rfl⟩ := Prod.mk.inj (Option.some.inj step)
      exact ⟨rfl, rfl, .inl rfl, by simp, by simp⟩
    · obtain ⟨rfl, rfl⟩ := Prod.mk.inj (Option.some.inj step)
      exact ⟨rfl, rfl, .inl rfl, by simp, by simp⟩
    · obtain ⟨rfl, rfl⟩ := Prod.mk.inj (Option.some.inj step)
      exact ⟨rfl, rfl, .inl rfl, by simp, by simp⟩
    · cases (engaged.resolve_left active).symm.trans (not_not.mp state)
  | storeRunning =>
    obtain ⟨rfl, rfl⟩ := Prod.mk.inj (Option.some.inj step)
    exact ⟨rfl, rfl, .inr rfl, fun _ => rfl, by simp [CallPc.Harmless]⟩
  | createWorker =>
    have created : answers.created = true := regular
    have state : sh.lifecycle = .running := h
    simp only [StartPc.step, created, if_true] at step
    cases platform <;> obtain ⟨rfl, rfl⟩ := Prod.mk.inj (Option.some.inj step) <;>
      exact ⟨rfl, rfl, .inl rfl, by simp, by simp [CallPc.Harmless, state]⟩
  | assignWorker id =>
    have state : sh.lifecycle = .running := h
    simp only [StartPc.step] at step
    split_ifs at step
    obtain ⟨rfl, rfl⟩ := Prod.mk.inj (Option.some.inj step)
    exact ⟨rfl, rfl, .inl rfl, by simp, by simp [CallPc.Harmless, state]⟩
  | conclude pc =>
    cases pc with
    | release result =>
      obtain ⟨rfl, rfl⟩ := Prod.mk.inj (Option.some.inj step)
      exact ⟨rfl, rfl, .inl rfl, by simp, by simp [ConcludePc.step]⟩
    | store clean result => exact absurd h id
    | diagnose clean result => exact absurd h id
  | _ => exact absurd h id

/-- One step of any call in a run that is not disturbed. -/
theorem CallPc.step_harmless {pc : CallPc} {control : Control CallPc (Option ResultCode)}
    (h : pc.Harmless sh.lifecycle)
    (engaged : sh.lifecycleOperationActive = true ∨ sh.lifecycle = .running)
    (regular : pc.regular sh.lifecycleOperationActive answers = true)
    (step : pc.step platform caller fresh running answers sh = some (sh', control)) :
    sh'.diagnostics = sh.diagnostics ∧ sh'.config = sh.config ∧
      (sh'.lifecycle = sh.lifecycle ∨ sh'.lifecycle = .running) ∧
      (pc = .start .storeRunning → sh'.lifecycle = .running) ∧
      ∀ pc' ∈ control.live, pc'.Harmless sh'.lifecycle := by
  cases pc with
  | configure config =>
    have busy : sh.lifecycleOperationActive = true ∨ sh.lifecycle ≠ .stopped :=
      engaged.imp_right fun state => by simp [state]
    have outcome := Option.some.inj step
    rw [if_pos busy] at outcome
    split_ifs at outcome <;> obtain ⟨rfl, rfl⟩ := Prod.mk.inj outcome <;>
      exact ⟨rfl, rfl, .inl rfl, by simp, by simp⟩
  | start pc =>
    obtain ⟨⟨shared, inner⟩, inside, same⟩ := Option.map_eq_some_iff.mp step
    obtain ⟨rfl, rfl⟩ := Prod.mk.inj same
    obtain ⟨diagnostics, config, lifecycle, stores, goes⟩ :=
      StartPc.step_harmless h engaged regular inside
    refine ⟨diagnostics, config, lifecycle, fun own => stores (CallPc.start.inj own), ?_⟩
    cases inner with
    | next pc' => simpa using goes
    | ret result => simp
  | stop pc =>
    obtain ⟨⟨shared, inner⟩, inside, same⟩ := Option.map_eq_some_iff.mp step
    obtain ⟨rfl, rfl⟩ := Prod.mk.inj same
    cases pc with
    | testSelf =>
      obtain ⟨rfl, rfl⟩ := Prod.mk.inj (Option.some.inj inside)
      refine ⟨rfl, rfl, .inl rfl, by simp, ?_⟩
      split_ifs
      · simp
      · simp [CallPc.Harmless]
    | enter =>
      have active : sh.lifecycleOperationActive = true := regular
      simp only [StopPc.step, if_pos active] at inside
      obtain ⟨rfl, rfl⟩ := Prod.mk.inj (Option.some.inj inside)
      exact ⟨rfl, rfl, .inl rfl, by simp, by simp⟩
    | _ => exact absurd h id
  | destroy pc =>
    obtain ⟨⟨shared, inner⟩, inside, same⟩ := Option.map_eq_some_iff.mp step
    obtain ⟨rfl, rfl⟩ := Prod.mk.inj same
    have goes : ∀ pc' ∈ (inner.call CallPc.destroy fun _ => .ret none :
        Control CallPc (Option ResultCode)).live, pc'.Harmless shared.lifecycle := by
      cases inner <;> simp [CallPc.Harmless]
    cases DestroyPc.step_does inside with
    | nothing => exact ⟨rfl, rfl, .inl rfl, by simp, goes⟩
    | requests => exact ⟨rfl, rfl, .inl rfl, by simp, goes⟩
    | cleans sh' cleans unowned =>
      exact ⟨cleans.diagnostics, cleans.config, .inl cleans.lifecycle, by simp, goes⟩
    | joins host finished => exact ⟨rfl, rfl, .inl rfl, by simp, goes⟩

end Calls

/-! ### Runs -/

/-- The evaluation that follows the sample of its call at once. -/
def DiagnosticsPc.midway : DiagnosticsPc → Bool
  | .evaluate _ => true
  | .sample => false

/-- The clock that a call has sampled. -/
def DiagnosticsPc.Timely (clock : MonotonicTimestamp) : DiagnosticsPc → Prop
  | .evaluate now => now = clock
  | .sample => True

def DiagnosticsPc.samples (answers : Answers) : DiagnosticsPc → List MonotonicTimestamp
  | .sample => [answers.now]
  | .evaluate _ => []

namespace System

variable {platform : Platform} {s t first : System} {k : Choice} {ks ls : List Choice}
  {silence : Microseconds} {clock : MonotonicTimestamp} {last : Option MonotonicTimestamp}

/-- No diagnostics() and no update of the worker is between its sample and its evaluation. -/
def settled (s : System) : Bool :=
  s.readers.all (fun r => !r.2.midway) && s.workers.all fun w => !w.2.midway

/-- A diagnostics() call and an update of the worker go on at once to their evaluation. -/
def atomic (s : System) (k : Choice) : Bool :=
  s.settled || match k with
    | .reader i _ => s.readers[i]?.any (·.2.midway)
    | .worker i _ => s.workers[i]?.any (·.2.midway)
    | _ => false

/-- No stop() begins its work, start() gets its worker, and no fault comes back. -/
def regular (s : System) : Choice → Bool
  | .call i answers => s.calls[i]?.all fun p => p.2.regular s.shared.lifecycleOperationActive answers
  | .worker i answers => s.workers[i]?.all fun w => w.2.regular answers
  | _ => true

def undisturbed (s : System) (k : Choice) : Bool := s.atomic k && s.regular k

/-- The clock that is sampled at a step. -/
def clockSamples (s : System) : Choice → List MonotonicTimestamp
  | .reader i answers => (s.readers[i]?.map fun r => r.2.samples answers).getD []
  | .worker i answers => (s.workers[i]?.map fun w => w.2.samples answers).getD []
  | _ => []

/-- The time of the frame that is recorded at a step. -/
def recordedFrames (s : System) : Choice → List MonotonicTimestamp
  | .worker i _ => (s.workers[i]?.map fun w => w.2.records).getD []
  | _ => []

/-- The run is not disturbed, and nothing that was sampled is later than the clock. -/
structure Watching (s : System) (silence : Microseconds) (clock : MonotonicTimestamp)
    (last : Option MonotonicTimestamp) : Prop where
  config : s.shared.config.transportSilenceTimeoutUs = silence
  holds : s.shared.diagnostics.Holds silence clock last
  seen : last.isSome = true → s.shared.lifecycle = .running
  begun : s.shared.lifecycle = .running ∨ ∃ caller, (caller, .start .storeRunning) ∈ s.calls
  calls : ∀ p ∈ s.calls, p.2.Harmless s.shared.lifecycle
  readers : ∀ r ∈ s.readers, r.2.Timely clock
  workers : ∀ w ∈ s.workers, w.2.Timely clock

/-- Where nothing is pending, any clock is as good. -/
theorem timely_of_settled (settled : s.settled = true) (clock : MonotonicTimestamp) :
    (∀ r ∈ s.readers, r.2.Timely clock) ∧ ∀ w ∈ s.workers, w.2.midway = false := by
  simp only [System.settled, Bool.and_eq_true, List.all_eq_true, Bool.not_eq_true'] at settled
  refine ⟨?_, settled.2⟩
  rintro ⟨caller, pc⟩ mem
  cases pc with
  | sample => trivial
  | evaluate now => cases settled.1 _ mem

namespace Watching

theorem engaged (h : s.Watching silence clock last) (governed : s.Governed platform) :
    s.shared.lifecycleOperationActive = true ∨ s.shared.lifecycle = .running := by
  rcases h.begun with running | ⟨caller, member⟩
  · exact .inr running
  · exact .inl (governed.fact member rfl (by simp)).1

/-- A worker exists only once Running is stored. -/
theorem running (h : s.Watching silence clock last) (governed : s.Governed platform)
    (alive : s.workers ≠ []) : s.shared.lifecycle = .running := by
  refine h.begun.resolve_right ?_
  rintro ⟨caller, member⟩
  exact alive (governed.fact member rfl (by simp)).2.1.none_alive

theorem call (h : s.Watching silence clock last) (governed : s.Governed platform) {i : ℕ}
    {answers : Answers} (regular : s.regular (.call i answers) = true)
    (step : s.next platform (.call i answers) = some t) : t.Watching silence clock last := by
  obtain ⟨caller, pc, shared, control, found, inside, rfl⟩ := next_call step
  have member := List.mem_of_getElem? found
  have allowed : pc.regular s.shared.lifecycleOperationActive answers = true := by
    simpa [System.regular, found] using regular
  obtain ⟨diagnostics, config, lifecycle, stores, goes⟩ :=
    CallPc.step_harmless (h.calls _ member) (h.engaged governed) allowed inside
  refine ⟨?_, ?_, ?_, ?_, ?_, h.readers, ?_⟩
  · rw [config]
    exact h.config
  · rw [diagnostics]
    exact h.holds
  · intro recorded
    exact lifecycle.elim (fun same => same.trans (h.seen recorded)) id
  · rcases h.begun with running | ⟨other, storing⟩
    · exact .inl (lifecycle.elim (fun same => same.trans running) id)
    · by_cases own : pc = .start .storeRunning
      · exact .inl (stores own)
      · refine .inr ⟨other, mem_resume_of_ne _ found storing ?_⟩
        rintro ⟨rfl, rfl⟩
        exact own rfl
  · intro p mem
    rcases mem_of_mem_resume found mem with old | new
    · exact (h.calls p old).mono lifecycle
    · cases control with
      | next pc' =>
        obtain rfl := List.mem_singleton.mp new
        exact goes pc' (by simp)
      | ret result => cases new
  · intro w mem
    rcases List.mem_append.mp mem with old | new
    · exact h.workers w old
    · rw [CallPc.loopTest_of_spawned new]
      trivial

theorem worker (h : s.Watching silence clock last) (governed : s.Governed platform) {i : ℕ}
    {answers : Answers} (atomic : s.atomic (.worker i answers) = true)
    (regular : s.regular (.worker i answers) = true)
    (ordered : ∀ now ∈ s.clockSamples (.worker i answers), clock ≤ now)
    (step : s.next platform (.worker i answers) = some t) :
    t.Watching silence ((s.clockSamples (.worker i answers)).getLastD clock)
      ((s.recordedFrames (.worker i answers)).getLast?.or last) := by
  obtain ⟨id, pc, found, -, rfl⟩ := next_worker step
  obtain ⟨only, resumed⟩ := governed.worker_alone found
  have member := List.mem_of_getElem? found
  have running := h.running governed (List.ne_nil_of_mem member)
  have allowed : pc.regular answers = true := by simpa [System.regular, found] using regular
  simp only [clockSamples, recordedFrames, found, Option.map_some, Option.getD_some] at ordered ⊢
  obtain ⟨config, lifecycle, holds, goes⟩ := WorkerPc.step_timely platform (h.workers _ member)
    h.holds h.config running allowed ordered
  refine ⟨?_, holds, fun _ => lifecycle, .inl lifecycle, ?_, ?_, ?_⟩
  · show (pc.step platform answers s.shared).1.config.transportSilenceTimeoutUs = silence
    rw [config]
    exact h.config
  · intro p mem
    exact (h.calls p mem).mono (.inr lifecycle)
  · intro r mem
    cases samples : pc.samples answers with
    | nil => exact h.readers r mem
    | cons now rest =>
      -- a worker that samples the clock finds no evaluation pending
      have midway : pc.midway = false := by
        cases pc <;> first | rfl | simp [WorkerPc.samples] at samples
      have settled : s.settled = true := by
        simpa [System.atomic, found, midway] using atomic
      exact (timely_of_settled settled _).1 r mem
  · intro w mem
    simp only [resumed] at mem
    generalize (pc.step platform answers s.shared).2 = control at mem goes
    cases control with
    | next pc' =>
      obtain rfl := List.mem_singleton.mp mem
      exact goes pc' (by simp)
    | ret value => cases mem

theorem reader (h : s.Watching silence clock last) {i : ℕ} {answers : Answers}
    (atomic : s.atomic (.reader i answers) = true)
    (ordered : ∀ now ∈ s.clockSamples (.reader i answers), clock ≤ now)
    (step : s.next platform (.reader i answers) = some t) :
    t.Watching silence ((s.clockSamples (.reader i answers)).getLastD clock) last := by
  obtain ⟨caller, pc, found, rfl⟩ := next_reader step
  simp only [clockSamples, found, Option.map_some, Option.getD_some] at ordered ⊢
  cases pc with
  | sample =>
    have settled : s.settled = true := by
      simpa [System.atomic, found, DiagnosticsPc.midway] using atomic
    have later : clock ≤ answers.now := ordered answers.now (by simp [DiagnosticsPc.samples])
    refine ⟨h.config, h.holds.later later, h.seen, h.begun, h.calls, ?_, ?_⟩
    · intro r mem
      change r ∈ resume s.readers i
        ((.next (.evaluate answers.now) : Control DiagnosticsPc TransportDiagnostics).call
          (caller, ·) .ret) at mem
      rcases mem_of_mem_resume found mem with old | own
      · exact (timely_of_settled settled _).1 r old
      · obtain rfl := List.mem_singleton.mp own
        rfl
    · intro w mem
      exact (h.workers w mem).later ((timely_of_settled settled clock).2 w mem) later
  | evaluate now =>
    obtain rfl : now = clock := h.readers _ (List.mem_of_getElem? found)
    obtain ⟨d, published⟩ := s.shared.updateSilence_eq now
    have lifecycle : (s.shared.updateSilenceDiagnosticLocked now).lifecycle =
        s.shared.lifecycle := by rw [published]
    have config : (s.shared.updateSilenceDiagnosticLocked now).config = s.shared.config := by
      rw [published]
    refine ⟨?_, (s.shared.evaluate h.holds h.config h.seen).1, ?_, ?_, ?_, ?_, h.workers⟩
    · show (s.shared.updateSilenceDiagnosticLocked now).config.transportSilenceTimeoutUs = silence
      rw [config]
      exact h.config
    · exact fun recorded => lifecycle.trans (h.seen recorded)
    · exact h.begun.imp_left lifecycle.trans
    · intro p mem
      show p.2.Harmless (s.shared.updateSilenceDiagnosticLocked now).lifecycle
      rw [lifecycle]
      exact h.calls p mem
    · intro r mem
      change r ∈ resume s.readers i
        ((.ret (s.shared.updateSilenceDiagnosticLocked now).diagnostics :
          Control DiagnosticsPc _).call (caller, ·) .ret) at mem
      rcases mem_of_mem_resume found mem with old | own
      · exact h.readers r old
      · cases own

/-- One step of a run that is not disturbed. -/
theorem next (h : s.Watching silence clock last) (governed : s.Governed platform)
    (steady : s.undisturbed k = true) (ordered : ∀ now ∈ s.clockSamples k, clock ≤ now)
    (step : s.next platform k = some t) :
    t.Watching silence ((s.clockSamples k).getLastD clock)
      ((s.recordedFrames k).getLast?.or last) := by
  obtain ⟨atomic, regular⟩ := Bool.and_eq_true_iff.mp steady
  cases k with
  | worker i answers => exact h.worker governed atomic regular ordered step
  | reader i answers => exact h.reader atomic ordered step
  | call i answers => exact h.call governed regular step
  | begin caller operation =>
    obtain ⟨-, rfl⟩ := next_begin step
    refine ⟨h.config, h.holds, h.seen, ?_, ?_, h.readers, h.workers⟩
    · exact h.begun.imp_right fun ⟨other, mem⟩ => ⟨other, List.mem_append_left _ mem⟩
    · intro p mem
      rcases List.mem_append.mp mem with old | new
      · exact h.calls p old
      · obtain rfl := List.mem_singleton.mp new
        cases operation <;> trivial
  | beginDestroy caller =>
    obtain ⟨-, idle, -, rfl⟩ := next_beginDestroy step
    refine ⟨h.config, h.holds, h.seen, ?_, ?_, h.readers, h.workers⟩
    · refine .inl (h.begun.resolve_right ?_)
      rintro ⟨other, mem⟩
      rw [idle] at mem
      cases mem
    · intro p mem
      obtain rfl := List.mem_singleton.mp mem
      trivial
  | beginDiagnostics caller =>
    obtain ⟨-, rfl⟩ := next_beginDiagnostics step
    refine ⟨h.config, h.holds, h.seen, h.begun, h.calls, ?_, h.workers⟩
    intro r mem
    rcases List.mem_append.mp mem with old | new
    · exact h.readers r old
    · obtain rfl := List.mem_singleton.mp new
      trivial

end Watching

end System

end CanTelemetry.VehicleTelemetry
