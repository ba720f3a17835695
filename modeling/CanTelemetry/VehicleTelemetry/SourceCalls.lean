import CanTelemetry.VehicleTelemetry.Ownership

/-! The lifecycle calls that the runtime makes on its source, and what a step of an
operation can do to the fields that keep track of them. A call counts when it returns;
the operations exclude each other, so no other call on the source is in between. -/

namespace CanTelemetry.VehicleTelemetry

open Execution Threads VehicleCore

/-- A call of stop(), or of retry_stop() if `retry` is set. -/
structure CleanupCall where
  retry : Bool
  result : ResultCode
  deriving DecidableEq

inductive SourceCall
  | supportsStopRetry (answer : Bool)
  | start (result : ResultCode)
  | cleanup (call : CleanupCall)
  deriving DecidableEq

/-- `attempt_source_stop` and `attempt_partial_start_cleanup`. -/
inductive Cleanup
  | sourceStop | partialStart
  deriving DecidableEq

def Cleanup.step (sh : Shared) (result : ResultCode) :
    Cleanup → CleanupPc → Shared × Control CleanupPc ResultCode
  | .sourceStop, pc => pc.stepSourceStop sh result
  | .partialStart, pc => pc.stepPartialStart sh result

def CleanupPc.sourceCalls (result : ResultCode) : CleanupPc → List SourceCall
  | .test => []
  | .call retry => [.cleanup ⟨retry, result⟩]

def CleanupPc.inSource : CleanupPc → Bool
  | .test => false
  | .call _ => true

@[simp] theorem CleanupPc.inSource_test : CleanupPc.test.inSource = false := rfl

namespace CallPc

/-- The cleanup that an operation is in. -/
def cleanup : CallPc → Option (Cleanup × CleanupPc)
  | .start (.partialCleanup pc _) | .stop (.partialCleanup pc) | .destroy (.partialCleanup _ pc) =>
    some (.partialStart, pc)
  | .start (.sourceStop pc) | .stop (.sourceStop pc) | .destroy (.sourceStop _ pc) =>
    some (.sourceStop, pc)
  | _ => none

/-- The calls on the source that return at a step. -/
def sourceCalls (answers : Answers) (pc : CallPc) : List SourceCall :=
  match pc with
  | .start .supportsRetry => [.supportsStopRetry answers.retrySupported]
  | .start .startSource => [.start answers.result]
  | pc => match pc.cleanup with
    | some (_, inner) => inner.sourceCalls answers.result
    | none => []

/-- The operation is inside start(), stop() or retry_stop() of the source. -/
def inSource (pc : CallPc) : Bool :=
  match pc with
  | .start .startSource => true
  | pc => pc.cleanup.any (·.2.inSource)

end CallPc

def System.sourceCalls (s : System) : Choice → List SourceCall
  | .call i answers => match s.calls[i]? with
    | some (_, pc) => pc.sourceCalls answers
    | none => []
  | _ => []

/-! ### What a step does to the source's fields -/

/-- Everything that is kept about the source is as before. -/
structure Shared.SameOwnership (sh sh' : Shared) : Prop extends SameSource sh sh' where
  supported : sh'.sourceStopRetrySupported = sh.sourceStopRetrySupported

/-- What a step of an operation does to the source and to what is kept about it. -/
inductive CallPc.SourceStep (answers : Answers) (sh : Shared) :
    CallPc → Shared → Control CallPc (Option ResultCode) → Prop
  | beside {pc : CallPc} {sh' : Shared} {control : Control CallPc (Option ResultCode)}
    (outside : pc.sourceCalls answers = []) (same : sh.SameOwnership sh')
    (next : ∀ pc' ∈ control.live, pc'.inSource = false) : SourceStep answers sh pc sh' control
  | asks : SourceStep answers sh (.start .supportsRetry)
      { sh with sourceStopRetrySupported := answers.retrySupported } (.next (.start .startSource))
  | started (ok : answers.result = .ok) : SourceStep answers sh (.start .startSource)
      { sh with
        sourceStarted := true
        sourceOwnership := .successfulStart
        sourceStopCalled := false
        sourceStopResult := .ok } (.next (.start .clearStopRequested))
  | failed (notOk : answers.result ≠ .ok)
    (owns : startFailureMayOwnSource answers.result = true) :
    SourceStep answers sh (.start .startSource)
      { sh with
        sourceStarted := true
        sourceOwnership := .partialStart
        partialCleanupAttempts := 0 } (.next (.start (.partialCleanup .test answers.result)))
  | refused (notOk : answers.result ≠ .ok)
    (owns : startFailureMayOwnSource answers.result = false) :
    SourceStep answers sh (.start .startSource) { sh with sourceStopRetrySupported := false }
      (.next (.start (.diagnoseRefused answers.result)))
  | cleans {pc : CallPc} {kind : Cleanup} {inner : CleanupPc}
    {control : Control CallPc (Option ResultCode)} (inside : pc.cleanup = some (kind, inner))
    (next : match (kind.step sh answers.result inner).2 with
      | .next inner' => ∃ pc', control = .next pc' ∧ pc'.cleanup = some (kind, inner')
      | .ret _ => ∀ pc' ∈ control.live, pc'.inSource = false) :
    SourceStep answers sh pc (kind.step sh answers.result inner).1 control

section Steps

variable {platform : Platform} {caller : Caller} {fresh : ℕ} {running : List ℕ}
  {answers : Answers} {sh sh' : Shared}

theorem ConcludePc.step_source (pc : ConcludePc) : sh.SameOwnership (pc.step sh answers).1 := by
  cases pc <;> exact ⟨⟨rfl, rfl, rfl, rfl, rfl⟩, rfl⟩

/-- A cleanup calls the source only for one that is started, and keeps that in mind. -/
theorem Cleanup.step_test (kind : Cleanup) (sh : Shared) (result : ResultCode) :
    (kind.step sh result .test).1.sourceStarted = sh.sourceStarted ∧
      (kind.step sh result .test).1.sourceStopRetrySupported = sh.sourceStopRetrySupported ∧
      ∀ inner, (kind.step sh result .test).2 = .next inner →
        sh.sourceStarted = true ∧ ∃ retry, inner = .call retry := by
  have started (absent : ¬(sh.sourceOwnership ≠ .successfulStart ∨ sh.sourceStarted = false)) :
      sh.sourceStarted = true := by simpa using (not_or.mp absent).2
  have started' (absent : ¬(sh.sourceOwnership ≠ .partialStart ∨ sh.sourceStarted = false)) :
      sh.sourceStarted = true := by simpa using (not_or.mp absent).2
  cases kind with
  | sourceStop =>
    simp only [step, CleanupPc.stepSourceStop]
    split_ifs with absent
    · exact ⟨rfl, rfl, by simp⟩
    · exact ⟨rfl, rfl, by simp [started absent]⟩
    · exact ⟨rfl, rfl, by simp⟩
    · exact ⟨rfl, rfl, by simp [started absent]⟩
  | partialStart =>
    simp only [step, CleanupPc.stepPartialStart]
    split_ifs with absent
    · exact ⟨rfl, rfl, by simp⟩
    · exact ⟨rfl, rfl, by simp⟩
    · exact ⟨rfl, rfl, by simp [started' absent]⟩
    · exact ⟨rfl, rfl, by simp [started' absent]⟩

/-- A source whose stop() can be retried is forgotten exactly when it says that it is stopped. -/
theorem Cleanup.step_call (kind : Cleanup) {sh : Shared} (retry : Bool) (result : ResultCode)
    (retries : sh.sourceStopRetrySupported = true) :
    (∃ value, (kind.step sh result (.call retry)).2 = .ret value) ∧
      if result = .ok ∨ result = .notRunning then
        (kind.step sh result (.call retry)).1.sourceStarted = false
      else (kind.step sh result (.call retry)).1.sourceStarted = sh.sourceStarted ∧
        (kind.step sh result (.call retry)).1.sourceStopRetrySupported = true := by
  cases kind with
  | sourceStop =>
    simp only [step, CleanupPc.stepSourceStop, retries, true_and, if_true]
    split_ifs
    · exact ⟨⟨_, rfl⟩, rfl⟩
    · exact ⟨⟨_, rfl⟩, rfl, rfl⟩
  | partialStart =>
    simp only [step, CleanupPc.stepPartialStart]
    split_ifs
    · exact ⟨⟨_, rfl⟩, rfl⟩
    · exact ⟨⟨_, rfl⟩, rfl, retries⟩

/-- A step that changes none of the fields and stays out of the source. -/
theorem CallPc.SourceStep.of_eq {pc : CallPc} {control : Control CallPc (Option ResultCode)}
    (outside : pc.sourceCalls answers = [])
    (next : ∀ pc' ∈ control.live, pc'.inSource = false) : SourceStep answers sh pc sh control :=
  .beside outside ⟨⟨rfl, rfl, rfl, rfl, rfl⟩, rfl⟩ next

theorem StartPc.step_source {pc : StartPc} {control : Control StartPc ResultCode}
    (step : pc.step platform fresh answers sh = some (sh', control)) :
    CallPc.SourceStep answers sh (.start pc) sh'
      (control.call .start fun result => .ret (some result)) := by
  cases pc with
  | enter =>
    simp only [StartPc.step] at step
    split_ifs at step <;> obtain ⟨rfl, rfl⟩ := Prod.mk.inj (Option.some.inj step)
    · exact .of_eq rfl (by simp)
    · exact .of_eq rfl (by simp)
    · exact .of_eq rfl (by simp)
    · exact .beside rfl ⟨⟨rfl, rfl, rfl, rfl, rfl⟩, rfl⟩ (by simp [CallPc.inSource, CallPc.cleanup])
  | supportsRetry =>
    obtain ⟨rfl, rfl⟩ := Prod.mk.inj (Option.some.inj step)
    exact .asks
  | startSource =>
    simp only [StartPc.step] at step
    split_ifs at step with ok owns <;> obtain ⟨rfl, rfl⟩ := Prod.mk.inj (Option.some.inj step)
    · exact .started ok
    · exact .failed ok owns
    · exact .refused ok (eq_false_of_ne_true owns)
  | partialCleanup pc result =>
    obtain ⟨rfl, rfl⟩ := Prod.mk.inj (Option.some.inj step)
    have inside : (CallPc.start (.partialCleanup pc result)).cleanup = some (.partialStart, pc) :=
      rfl
    refine .cleans inside ?_
    simp only [Cleanup.step]
    cases (pc.stepPartialStart sh answers.result).2 <;> simp [CallPc.cleanup, CallPc.inSource]
  | sourceStop pc =>
    obtain ⟨rfl, rfl⟩ := Prod.mk.inj (Option.some.inj step)
    have inside : (CallPc.start (.sourceStop pc)).cleanup = some (.sourceStop, pc) := rfl
    refine .cleans inside ?_
    simp only [Cleanup.step]
    cases (pc.stepSourceStop sh answers.result).2 <;> simp [CallPc.cleanup, CallPc.inSource]
  | createWorker =>
    simp only [StartPc.step] at step
    split_ifs at step
    · cases platform <;> obtain ⟨rfl, rfl⟩ := Prod.mk.inj (Option.some.inj step) <;>
        exact .beside rfl ⟨⟨rfl, rfl, rfl, rfl, rfl⟩, rfl⟩
          (by simp [CallPc.inSource, CallPc.cleanup])
    · obtain ⟨rfl, rfl⟩ := Prod.mk.inj (Option.some.inj step)
      exact .of_eq rfl (by simp [CallPc.inSource, CallPc.cleanup])
  | assignWorker id =>
    simp only [StartPc.step] at step
    split_ifs at step
    obtain ⟨rfl, rfl⟩ := Prod.mk.inj (Option.some.inj step)
    exact .beside rfl ⟨⟨rfl, rfl, rfl, rfl, rfl⟩, rfl⟩ (by simp [CallPc.inSource, CallPc.cleanup])
  | conclude pc =>
    obtain ⟨rfl, rfl⟩ := Prod.mk.inj (Option.some.inj step)
    refine .beside rfl pc.step_source ?_
    cases pc <;> simp [ConcludePc.step, CallPc.inSource, CallPc.cleanup]
  | _ =>
    obtain ⟨rfl, rfl⟩ := Prod.mk.inj (Option.some.inj step)
    exact .beside rfl ⟨⟨rfl, rfl, rfl, rfl, rfl⟩, rfl⟩ (by simp [CallPc.inSource, CallPc.cleanup])

theorem StopPc.step_source {pc : StopPc} {control : Control StopPc ResultCode}
    (step : pc.step platform caller running answers sh = some (sh', control)) :
    CallPc.SourceStep answers sh (.stop pc) sh'
      (control.call .stop fun result => .ret (some result)) := by
  cases pc with
  | testSelf =>
    obtain ⟨rfl, rfl⟩ := Prod.mk.inj (Option.some.inj step)
    refine .of_eq rfl ?_
    split_ifs <;> simp [CallPc.inSource, CallPc.cleanup]
  | enter =>
    simp only [StopPc.step] at step
    split_ifs at step <;> obtain ⟨rfl, rfl⟩ := Prod.mk.inj (Option.some.inj step)
    · exact .of_eq rfl (by simp)
    · exact .of_eq rfl (by simp)
    · exact .beside rfl ⟨⟨rfl, rfl, rfl, rfl, rfl⟩, rfl⟩ (by simp [CallPc.inSource, CallPc.cleanup])
    · exact .beside rfl ⟨⟨rfl, rfl, rfl, rfl, rfl⟩, rfl⟩ (by simp [CallPc.inSource, CallPc.cleanup])
  | partialCleanup pc =>
    obtain ⟨rfl, rfl⟩ := Prod.mk.inj (Option.some.inj step)
    have inside : (CallPc.stop (.partialCleanup pc)).cleanup = some (.partialStart, pc) := rfl
    refine .cleans inside ?_
    simp only [Cleanup.step]
    cases (pc.stepPartialStart sh answers.result).2 <;> simp [CallPc.cleanup, CallPc.inSource]
  | sourceStop pc =>
    obtain ⟨rfl, rfl⟩ := Prod.mk.inj (Option.some.inj step)
    have inside : (CallPc.stop (.sourceStop pc)).cleanup = some (.sourceStop, pc) := rfl
    refine .cleans inside ?_
    simp only [Cleanup.step]
    cases (pc.stepSourceStop sh answers.result).2 with
    | next pc' => simp [CallPc.cleanup]
    | ret result =>
      simp only [Control.call_ret]
      split_ifs
      · simp [CallPc.inSource, CallPc.cleanup]
      · cases platform <;> simp [CallPc.inSource, CallPc.cleanup]
  | join result =>
    obtain ⟨joined, join, same⟩ := Option.map_eq_some_iff.mp step
    obtain ⟨rfl, rfl⟩ := Prod.mk.inj same
    obtain ⟨rfl, -⟩ := Shared.join_eq_some join
    exact .beside rfl ⟨⟨rfl, rfl, rfl, rfl, rfl⟩, rfl⟩ (by simp [CallPc.inSource, CallPc.cleanup])
  | awaitWorker waited result =>
    obtain ⟨rfl, rfl⟩ := Prod.mk.inj (Option.some.inj step)
    refine .of_eq rfl ?_
    split_ifs <;> simp [CallPc.inSource, CallPc.cleanup]
  | lastLook result =>
    obtain ⟨rfl, rfl⟩ := Prod.mk.inj (Option.some.inj step)
    exact .of_eq rfl (by simp [CallPc.inSource, CallPc.cleanup])
  | conclude pc =>
    obtain ⟨rfl, rfl⟩ := Prod.mk.inj (Option.some.inj step)
    refine .beside rfl pc.step_source ?_
    cases pc <;> simp [ConcludePc.step, CallPc.inSource, CallPc.cleanup]
  | _ =>
    obtain ⟨rfl, rfl⟩ := Prod.mk.inj (Option.some.inj step)
    exact .beside rfl ⟨⟨rfl, rfl, rfl, rfl, rfl⟩, rfl⟩ (by simp [CallPc.inSource, CallPc.cleanup])

/-- The destructor starts a cleanup, or goes past it. -/
theorem DestroyPc.attempt_outside (last : Bool) {otherwise : DestroyPc}
    (outside : (CallPc.destroy otherwise).inSource = false) :
    (CallPc.destroy (attempt sh last otherwise)).inSource = false := by
  unfold attempt
  cases sh.sourceOwnership with
  | none => exact outside
  | successfulStart => rfl
  | partialStart => rfl

theorem DestroyPc.step_source {pc : DestroyPc} {control : Control DestroyPc Unit}
    (step : pc.step platform caller running answers sh = some (sh', control)) :
    CallPc.SourceStep answers sh (.destroy pc) sh' (control.call .destroy fun _ => .ret none) := by
  cases pc with
  | requestStop =>
    obtain ⟨rfl, rfl⟩ := Prod.mk.inj (Option.some.inj step)
    refine .beside rfl ⟨⟨rfl, rfl, rfl, rfl, rfl⟩, rfl⟩ ?_
    simpa using attempt_outside false rfl
  | sourceStop last pc =>
    obtain ⟨rfl, rfl⟩ := Prod.mk.inj (Option.some.inj step)
    have inside : (CallPc.destroy (.sourceStop last pc)).cleanup = some (.sourceStop, pc) := rfl
    refine .cleans inside ?_
    simp only [Cleanup.step]
    cases (pc.stepSourceStop sh answers.result).2 <;> cases last <;>
      simp [CallPc.cleanup, CallPc.inSource, afterAttempt]
  | partialCleanup last pc =>
    obtain ⟨rfl, rfl⟩ := Prod.mk.inj (Option.some.inj step)
    have inside : (CallPc.destroy (.partialCleanup last pc)).cleanup = some (.partialStart, pc) :=
      rfl
    refine .cleans inside ?_
    simp only [Cleanup.step]
    cases (pc.stepPartialStart sh answers.result).2 <;> cases last <;>
      simp [CallPc.cleanup, CallPc.inSource, afterAttempt]
  | awaitWorker =>
    simp only [DestroyPc.step] at step
    cases platform with
    | host =>
      dsimp only at step
      split_ifs at step with own
      · obtain ⟨rfl, rfl⟩ := Prod.mk.inj (Option.some.inj step)
        exact .of_eq rfl (by simp [CallPc.inSource, CallPc.cleanup])
      · obtain ⟨joined, join, same⟩ := Option.map_eq_some_iff.mp step
        obtain ⟨rfl, rfl⟩ := Prod.mk.inj same
        obtain ⟨rfl, -⟩ := Shared.join_eq_some join
        exact .beside rfl ⟨⟨rfl, rfl, rfl, rfl, rfl⟩, rfl⟩
          (by simp [CallPc.inSource, CallPc.cleanup])
    | esp =>
      obtain ⟨rfl, rfl⟩ := Prod.mk.inj (Option.some.inj step)
      refine .of_eq rfl ?_
      split_ifs <;> simp [CallPc.inSource, CallPc.cleanup]
  | retry =>
    obtain ⟨rfl, rfl⟩ := Prod.mk.inj (Option.some.inj step)
    refine .of_eq rfl ?_
    split_ifs
    · simpa using attempt_outside true rfl
    · simp [CallPc.inSource, CallPc.cleanup]
  | release =>
    simp only [DestroyPc.step] at step
    split_ifs at step
    obtain ⟨rfl, rfl⟩ := Prod.mk.inj (Option.some.inj step)
    exact .of_eq rfl (by simp)

theorem CallPc.step_source {pc : CallPc} {control : Control CallPc (Option ResultCode)}
    (step : pc.step platform caller fresh running answers sh = some (sh', control)) :
    SourceStep answers sh pc sh' control := by
  cases pc with
  | configure config =>
    have outcome := Option.some.inj step
    split_ifs at outcome <;> obtain ⟨rfl, rfl⟩ := Prod.mk.inj outcome
    · exact .of_eq rfl (by simp)
    · exact .of_eq rfl (by simp)
    · exact .beside rfl ⟨⟨rfl, rfl, rfl, rfl, rfl⟩, rfl⟩ (by simp)
  | start pc =>
    obtain ⟨⟨shared, inner⟩, inside, same⟩ := Option.map_eq_some_iff.mp step
    obtain ⟨rfl, rfl⟩ := Prod.mk.inj same
    exact StartPc.step_source inside
  | stop pc =>
    obtain ⟨⟨shared, inner⟩, inside, same⟩ := Option.map_eq_some_iff.mp step
    obtain ⟨rfl, rfl⟩ := Prod.mk.inj same
    exact StopPc.step_source inside
  | destroy pc =>
    obtain ⟨⟨shared, inner⟩, inside, same⟩ := Option.map_eq_some_iff.mp step
    obtain ⟨rfl, rfl⟩ := Prod.mk.inj same
    exact DestroyPc.step_source inside

theorem CallPc.outside_of_waiting {pc : CallPc} (waiting : pc.operating = false)
    (answers : Answers) : pc.inSource = false ∧ pc.sourceCalls answers = [] := by
  rcases waiting_cases waiting with ⟨config, rfl⟩ | rfl | rfl | rfl <;> exact ⟨rfl, rfl⟩

theorem CallPc.sourceCalls_eq {pc : CallPc} {kind : Cleanup} {inner : CleanupPc}
    (answers : Answers) (inside : pc.cleanup = some (kind, inner)) :
    pc.sourceCalls answers = inner.sourceCalls answers.result ∧ pc ≠ .start .startSource := by
  unfold sourceCalls
  split
  · cases inside
  · cases inside
  · rename_i elsewhere
    rw [inside]
    exact ⟨rfl, elsewhere⟩

theorem CallPc.outside_of_sourceCalls {pc : CallPc} (outside : pc.sourceCalls answers = []) :
    pc.inSource = false := by
  unfold inSource
  split
  · cases outside
  · cases within : pc.cleanup with
    | none => rfl
    | some place =>
      obtain ⟨kind, inner⟩ := place
      rw [(sourceCalls_eq answers within).1] at outside
      cases inner with
      | test => rfl
      | call retry => cases outside

theorem CallPc.inSource_of_cleanup {pc : CallPc} {kind : Cleanup} {inner : CleanupPc}
    (inside : pc.cleanup = some (kind, inner)) : pc.inSource = inner.inSource := by
  unfold inSource
  split
  · cases inside
  · rw [inside]
    rfl

theorem CallPc.operating_of_inSource {pc : CallPc} (within : pc.inSource = true) :
    pc.operating = true := by
  refine eq_true_of_ne_false fun waiting => ?_
  exact absurd ((outside_of_waiting waiting {}).1.symm.trans within) Bool.false_ne_true

/-- Inside the source, an operation is in its start() or in a cleanup. -/
theorem CallPc.inSource_cases {pc : CallPc} (within : pc.inSource = true) :
    pc = .start .startSource ∨ ∃ kind retry, pc.cleanup = some (kind, .call retry) := by
  unfold inSource at within
  split at within
  · exact .inl rfl
  · obtain ⟨⟨kind, inner⟩, inside, calls⟩ := (Option.any_eq_true _ _).mp within
    cases inner with
    | test => cases calls
    | call retry => exact .inr ⟨kind, retry, inside⟩

/-- A worker keeps nothing about the source. -/
theorem WorkerPc.step_ownership (pc : WorkerPc) :
    sh.SameOwnership (pc.step platform answers sh).1 := by
  have moves : pc.Moves platform sh (pc.step platform answers sh).1
      (pc.step platform answers sh).2 := pc.step_moves
  generalize pc.step platform answers sh = outcome at moves
  obtain ⟨sh', control⟩ := outcome
  cases moves <;> exact ⟨⟨rfl, rfl, rfl, rfl, rfl⟩, rfl⟩

theorem DiagnosticsPc.step_ownership (pc : DiagnosticsPc) :
    sh.SameOwnership (pc.step answers sh).1 := by
  obtain ⟨d, published⟩ := pc.step_published answers sh
  rw [published]
  exact ⟨⟨rfl, rfl, rfl, rfl, rfl⟩, rfl⟩

end Steps

/-! ### Facts about the operation in progress -/

namespace System

variable {platform : Platform} {s : System} {Rest Rest' : Prop} {Fact Fact' : CallPc → Prop}

/-- What is known of the operation in progress and of a runtime without one, after a step of
a call: the operation works, or a call enters, or a call is refused and nothing changes. -/
theorem Governed.call_held (governed : s.Governed platform)
    (held : Held (fun p : Caller × CallPc => p.2.operating) Rest (fun p => Fact p.2) s.calls)
    {i : ℕ} {caller : Caller} {pc : CallPc} {answers : Answers} {shared : Shared}
    {control : Control CallPc (Option ResultCode)} (found : s.calls[i]? = some (caller, pc))
    (inside : pc.step platform caller s.created s.running answers s.shared =
      some (shared, control))
    (own : pc.operating = true → Fact pc → control.Settles CallPc.operating Rest' Fact')
    (enters : pc.operating = false → Rest → control.Settles CallPc.operating Rest' Fact')
    (refused : pc.operating = false → shared = s.shared → ∀ q, Fact q → Fact' q) :
    Held (fun p : Caller × CallPc => p.2.operating) Rest' (fun p => Fact' p.2)
      (resume s.calls i (control.call (caller, ·) (.ret : Option ResultCode → Control _ _))) := by
  refine held.step found ?_ ?_ ?_
  · intro operating fact
    exact (own operating fact).call (fun _ => rfl) fun _ h => h
  · intro waiting rest
    exact (enters waiting rest).call (fun _ => rfl) fun _ h => h
  · intro waiting q other operating fact
    cases governed with
    | usable alive held =>
      have active := (held.fact other operating).1
      obtain ⟨same, idle⟩ := CallPc.step_refused waiting active inside
      refine ⟨refused waiting same q.2 fact, ?_⟩
      cases control with
      | next pc' => simpa using idle pc' (by simp)
      | ret result => simp
    | gone destroyed only =>
      obtain ⟨destroyer, rfl⟩ := only _ (List.mem_of_getElem? found)
      cases waiting

end System

end CanTelemetry.VehicleTelemetry
