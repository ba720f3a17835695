import CanTelemetry.VehicleTelemetry.SourceCalls

/-! The protocol that the runtime follows with its source. The calls of a run fall into
periods, each opened by the question whether stop() may be retried and by start(). What
the runtime keeps about the source says which calls its current period has seen, so a
period is left behind only once it is complete. -/

namespace CanTelemetry.VehicleTelemetry

open Execution Threads VehicleCore

/-! ### Periods -/

/-- From one start() of the source up to the next. -/
structure Period where
  retry : Bool
  started : Option ResultCode := none
  cleanups : List CleanupCall := []

/-- The source answered that nothing of it runs any more. -/
def CleanupCall.Settled (call : CleanupCall) : Prop := call.result = .ok ∨ call.result = .notRunning

namespace Period

def calls (p : Period) : List SourceCall :=
  .supportsStopRetry p.retry ::
    ((p.started.map SourceCall.start).toList ++ p.cleanups.map SourceCall.cleanup)

def start (p : Period) (result : ResultCode) : Period := { p with started := some result }

def clean (p : Period) (call : CleanupCall) : Period := { p with cleanups := p.cleanups ++ [call] }

/-- The source refused before it acquired anything. -/
def Refused (p : Period) : Prop :=
  p.started = some .alreadyRunning ∨ p.started = some .invalidConfiguration

/-- The calls that a period may consist of. -/
structure Allowed (p : Period) : Prop where
  unstarted : p.started = none → p.cleanups = []
  refused : p.Refused → p.cleanups = []
  never : p.retry = false → ∀ c ∈ p.cleanups, c.retry = false
  bounded : p.retry = false → p.cleanups.length ≤ if p.started = some .ok then 1 else 2
  retried : p.retry = true → ∀ i c, p.cleanups[i]? = some c → (c.retry = true ↔ 0 < i)
  last : p.retry = true → ∀ i c, p.cleanups[i]? = some c → c.Settled → i + 1 = p.cleanups.length

/-- Ok ends a period, and NotRunning ends one that may be retried or that never began. -/
def Accepts (p : Period) (c : CleanupCall) : Prop :=
  c.result = .ok ∨ c.result = .notRunning ∧ (p.retry = true ∨ p.started ≠ some .ok)

/-- The next start() may come. -/
def Complete (p : Period) : Prop :=
  p.Refused ∨ (∃ c, p.cleanups.getLast? = some c ∧ p.Accepts c) ∨
    (p.retry = false ∧ p.started = some .ok ∧ p.cleanups.length = 1)

end Period

/-- The periods of a list of calls, the one that is still going on apart. -/
structure Ledger where
  past : List Period := []
  current : Option Period := none

namespace Ledger

def periods (l : Ledger) : List Period := l.past ++ l.current.toList

def calls (l : Ledger) : List SourceCall := l.periods.flatMap Period.calls

def record (l : Ledger) : SourceCall → Ledger
  | .supportsStopRetry answer => { past := l.periods, current := some { retry := answer } }
  | .start result => { l with current := l.current.map (·.start result) }
  | .cleanup call => { l with current := l.current.map (·.clean call) }

/-- What is left behind is complete. -/
def Sound (l : Ledger) : Prop := ∀ p ∈ l.past, p.Allowed ∧ p.Complete

variable {l : Ledger} {p : Period}

theorem record_start (now : l.current = some p) (result : ResultCode) :
    l.record (.start result) = { l with current := some (p.start result) } := by
  simp [record, now]

theorem current_record_start (now : l.current = some p) (result : ResultCode) :
    (l.record (.start result)).current = some (p.start result) := by
  rw [record_start now]

theorem record_cleanup (now : l.current = some p) (call : CleanupCall) :
    l.record (.cleanup call) = { l with current := some (p.clean call) } := by
  simp [record, now]

theorem calls_record_supports (l : Ledger) (answer : Bool) :
    (l.record (.supportsStopRetry answer)).calls = l.calls ++ [.supportsStopRetry answer] := by
  simp [calls, record, periods, Period.calls]

theorem calls_record_start (now : l.current = some p) (unstarted : p.started = none)
    (unused : p.cleanups = []) (result : ResultCode) :
    (l.record (.start result)).calls = l.calls ++ [.start result] := by
  rw [record_start now]
  simp [calls, periods, now, Period.calls, Period.start, unstarted, unused]

theorem calls_record_cleanup (now : l.current = some p) (call : CleanupCall) :
    (l.record (.cleanup call)).calls = l.calls ++ [.cleanup call] := by
  rw [record_cleanup now]
  simp [calls, periods, now, Period.calls, Period.clean]

end Ledger

def ledger (calls : List SourceCall) : Ledger := calls.foldl Ledger.record {}

/-! ### What the runtime keeps about its period -/

/-- A period that is not over: nothing of it has settled, and only a first stop() is not a
retry. -/
structure Period.Open (p : Period) (supported : Bool) : Prop where
  retry : p.retry = supported
  kinds : ∀ i c, p.cleanups[i]? = some c → c.retry = (p.retry && decide (0 < i))
  unsettled : ∀ c ∈ p.cleanups, ¬c.Settled

/-- start() failed and may have acquired something. -/
def Period.Failed (p : Period) : Prop :=
  ∃ result, p.started = some result ∧ result ≠ .ok ∧ startFailureMayOwnSource result = true

/-- No call on the source is in progress. -/
inductive Ledger.Owing (l : Ledger) (sh : Shared) : Prop
  | nothing (unowned : sh.sourceOwnership = .none)
    (complete : ∀ p ∈ l.current, p.Allowed ∧ p.Complete)
  | source (p : Period) (now : l.current = some p) (owned : sh.sourceOwnership = .successfulStart)
    (ok : p.started = some .ok) (isOpen : p.Open sh.sourceStopRetrySupported)
    (called : sh.sourceStopCalled = true ↔ p.cleanups ≠ [])
    (once : p.retry = false → p.cleanups = [])
  | partialStart (p : Period) (now : l.current = some p)
    (owned : sh.sourceOwnership = .partialStart) (failed : p.Failed)
    (isOpen : p.Open sh.sourceStopRetrySupported)
    (called : sh.sourceStopCalled = true ↔ p.cleanups ≠ [])
    (twice : p.retry = false →
      p.cleanups.length = sh.partialCleanupAttempts.toNat ∧ p.cleanups.length ≤ 2)

/-- The cleanup is inside stop() or retry_stop(). -/
inductive Ledger.Calling (l : Ledger) (sh : Shared) (retry : Bool) : Cleanup → Prop
  | source (p : Period) (now : l.current = some p) (owned : sh.sourceOwnership = .successfulStart)
    (ok : p.started = some .ok) (isOpen : p.Open sh.sourceStopRetrySupported)
    (called : sh.sourceStopCalled = true) (kind : retry = (p.retry && decide (0 < p.cleanups.length)))
    (once : p.retry = false → p.cleanups = []) : Calling l sh retry .sourceStop
  | partialStart (p : Period) (now : l.current = some p)
    (owned : sh.sourceOwnership = .partialStart) (failed : p.Failed)
    (isOpen : p.Open sh.sourceStopRetrySupported) (called : sh.sourceStopCalled = true)
    (kind : retry = (p.retry && decide (0 < p.cleanups.length)))
    (twice : p.retry = false →
      p.cleanups.length + 1 = sh.partialCleanupAttempts.toNat ∧ p.cleanups.length + 1 ≤ 2) :
    Calling l sh retry .partialStart

def Ledger.Cleaning (l : Ledger) (sh : Shared) : Option (Cleanup × CleanupPc) → Prop
  | some (kind, .call retry) => l.Calling sh retry kind
  | some (_, .test) | none => l.Owing sh

/-- What the ledger says while an operation stands at a program counter. -/
def CallPc.Books (l : Ledger) (sh : Shared) (pc : CallPc) : Prop :=
  match pc with
  | .start .startSource =>
    sh.sourceOwnership = .none ∧ l.current = some { retry := sh.sourceStopRetrySupported }
  | pc => l.Cleaning sh pc.cleanup

/-! ### Cleanup calls -/

namespace Period

variable {p : Period} {supported : Bool} {c : CleanupCall}

theorem getElem?_clean {i : ℕ} {d : CleanupCall} (h : (p.clean c).cleanups[i]? = some d) :
    p.cleanups[i]? = some d ∨ i = p.cleanups.length ∧ d = c := by
  simp only [clean, List.getElem?_append] at h
  split_ifs at h with earlier
  · exact .inl h
  · obtain ⟨bound, rfl⟩ := List.getElem?_eq_some_iff.mp h
    simp only [List.length_singleton] at bound
    exact .inr ⟨by omega, by simp⟩

/-- One more call of the kind that is due. -/
theorem Open.kinds_clean (h : p.Open supported)
    (kind : c.retry = (p.retry && decide (0 < p.cleanups.length))) :
    ∀ i d, (p.clean c).cleanups[i]? = some d → d.retry = (p.retry && decide (0 < i)) := by
  intro i d found
  rcases getElem?_clean found with earlier | ⟨rfl, rfl⟩
  · exact h.kinds i d earlier
  · exact kind

theorem Open.last_clean (h : p.Open supported) :
    ∀ i d, (p.clean c).cleanups[i]? = some d → d.Settled → i + 1 = (p.clean c).cleanups.length := by
  intro i d found settled
  rcases getElem?_clean found with earlier | ⟨rfl, rfl⟩
  · exact absurd settled (h.unsettled d (List.mem_of_getElem? earlier))
  · simp [clean]

theorem Open.clean (h : p.Open supported) (unsettled : ¬c.Settled)
    (kind : c.retry = (p.retry && decide (0 < p.cleanups.length))) :
    (p.clean c).Open supported := by
  refine ⟨h.retry, h.kinds_clean kind, ?_⟩
  intro d member
  rcases List.mem_append.mp member with earlier | own
  · exact h.unsettled d earlier
  · rw [List.mem_singleton.mp own]
    exact unsettled

theorem allowed_of {result : ResultCode} (started : p.started = some result)
    (acquired : result = .ok ∨ startFailureMayOwnSource result = true)
    (kinds : ∀ i c, p.cleanups[i]? = some c → c.retry = (p.retry && decide (0 < i)))
    (last : ∀ i c, p.cleanups[i]? = some c → c.Settled → i + 1 = p.cleanups.length)
    (bounded : p.retry = false → p.cleanups.length ≤ if p.started = some .ok then 1 else 2) :
    p.Allowed := by
  refine ⟨by simp [started], ?_, ?_, bounded, ?_, fun _ => last⟩
  · rintro (refused | refused) <;> obtain rfl := Option.some.inj (started.symm.trans refused) <;>
      simp [startFailureMayOwnSource] at acquired
  · intro once c member
    obtain ⟨i, found⟩ := List.getElem?_of_mem member
    simpa [once] using kinds i c found
  · intro retried i c found
    simp [kinds i c found, retried]

/-- A period that is still open is one that is allowed. -/
theorem Open.allowed {result : ResultCode} (h : p.Open supported) (started : p.started = some result)
    (acquired : result = .ok ∨ startFailureMayOwnSource result = true)
    (bounded : p.retry = false → p.cleanups.length ≤ if p.started = some .ok then 1 else 2) :
    p.Allowed := by
  refine allowed_of started acquired h.kinds ?_ bounded
  intro i c found settled
  exact absurd settled (h.unsettled c (List.mem_of_getElem? found))

end Period

/-! ### One step -/

section Steps

variable {l : Ledger} {sh sh' : Shared} {answers : Answers}

theorem Shared.SameOwnership.owing (same : sh.SameOwnership sh') (h : l.Owing sh) :
    l.Owing sh' := by
  cases h with
  | nothing unowned complete => exact .nothing (same.ownership.trans unowned) complete
  | source p now owned ok isOpen called once =>
    refine .source p now (same.ownership.trans owned) ok ?_ ?_ once
    · rw [same.supported]
      exact isOpen
    · rw [same.called]
      exact called
  | partialStart p now owned failed isOpen called twice =>
    refine .partialStart p now (same.ownership.trans owned) failed ?_ ?_ ?_
    · rw [same.supported]
      exact isOpen
    · rw [same.called]
      exact called
    · rw [same.attempts]
      exact twice

theorem Shared.SameOwnership.calling (same : sh.SameOwnership sh') {retry : Bool} {kind : Cleanup}
    (h : l.Calling sh retry kind) : l.Calling sh' retry kind := by
  cases h with
  | source p now owned ok isOpen called kind once =>
    refine .source p now (same.ownership.trans owned) ok ?_ (same.called.trans called) kind once
    rw [same.supported]
    exact isOpen
  | partialStart p now owned failed isOpen called kind twice =>
    refine .partialStart p now (same.ownership.trans owned) failed ?_ (same.called.trans called)
      kind ?_
    · rw [same.supported]
      exact isOpen
    · rw [same.attempts]
      exact twice

theorem Shared.SameOwnership.cleaning (same : sh.SameOwnership sh')
    {at_cleanup : Option (Cleanup × CleanupPc)} (h : l.Cleaning sh at_cleanup) :
    l.Cleaning sh' at_cleanup := by
  unfold Ledger.Cleaning at h ⊢
  split at h
  · exact same.calling h
  · exact same.owing h
  · exact same.owing h

theorem CallPc.books_eq {pc : CallPc} (elsewhere : pc ≠ .start .startSource) :
    pc.Books l sh = l.Cleaning sh pc.cleanup := by
  unfold Books
  split
  · contradiction
  · rfl

theorem CallPc.books_of_outside {pc : CallPc} (outside : pc.inSource = false) :
    pc.Books l sh ↔ l.Owing sh := by
  have elsewhere : pc ≠ .start .startSource := by
    rintro rfl
    cases outside
  have notCalling : (pc.cleanup.any (·.2.inSource)) = false := by
    unfold inSource at outside
    split at outside
    · cases outside
    · exact outside
  rw [books_eq elsewhere]
  cases within : pc.cleanup with
  | none => rfl
  | some place =>
    obtain ⟨kind, inner⟩ := place
    cases inner with
    | test => rfl
    | call retry => simp [within, CleanupPc.inSource] at notCalling

theorem Shared.SameOwnership.books (same : sh.SameOwnership sh') {pc : CallPc}
    (h : pc.Books l sh) : pc.Books l sh' := by
  by_cases starts : pc = .start .startSource
  · subst starts
    obtain ⟨unowned, asked⟩ := h
    exact ⟨same.ownership.trans unowned, by rw [same.supported]; exact asked⟩
  · rw [CallPc.books_eq starts] at h ⊢
    exact same.cleaning h

theorem Ledger.Owing.allowed (h : l.Owing sh) : ∀ p ∈ l.current, p.Allowed := by
  intro p current
  cases h with
  | nothing unowned complete => exact (complete p current).1
  | source p' now owned ok isOpen called once =>
    obtain rfl := Option.some.inj (now.symm.trans current)
    refine isOpen.allowed ok (.inl rfl) fun never => ?_
    simp [once never]
  | partialStart p' now owned failed isOpen called twice =>
    obtain rfl := Option.some.inj (now.symm.trans current)
    obtain ⟨result, started, notOk, owns⟩ := failed
    refine isOpen.allowed started (.inr owns) fun never => ?_
    simpa [started, notOk] using (twice never).2

theorem Ledger.Calling.allowed {retry : Bool} {kind : Cleanup} (h : l.Calling sh retry kind) :
    ∀ p ∈ l.current, p.Allowed := by
  intro p current
  cases h with
  | source p' now owned ok isOpen called kind once =>
    obtain rfl := Option.some.inj (now.symm.trans current)
    refine isOpen.allowed ok (.inl rfl) fun never => ?_
    simp [once never]
  | partialStart p' now owned failed isOpen called kind twice =>
    obtain rfl := Option.some.inj (now.symm.trans current)
    obtain ⟨result, started, notOk, owns⟩ := failed
    refine isOpen.allowed started (.inr owns) fun never => ?_
    have two := (twice never).2
    rw [if_neg (by simpa [started] using notOk)]
    omega

theorem CallPc.Books.allowed {pc : CallPc} (h : pc.Books l sh) : ∀ p ∈ l.current, p.Allowed := by
  by_cases starts : pc = .start .startSource
  · subst starts
    intro p current
    obtain rfl := Option.some.inj (h.2.symm.trans current)
    exact ⟨fun _ => rfl, fun _ => rfl, by simp, by simp, by simp, by simp⟩
  · rw [books_eq starts] at h
    unfold Ledger.Cleaning at h
    split at h
    · exact Ledger.Calling.allowed h
    · exact Ledger.Owing.allowed h
    · exact Ledger.Owing.allowed h

/-- A cleanup goes into the source with the call that is due. -/
theorem Cleanup.test_books (kind : Cleanup) (h : l.Owing sh) (result : ResultCode) :
    match (kind.step sh result .test).2 with
    | .next (.call retry) => l.Calling (kind.step sh result .test).1 retry kind
    | .next .test => False
    | .ret _ => l.Owing (kind.step sh result .test).1 := by
  cases kind with
  | sourceStop =>
    simp only [step, CleanupPc.stepSourceStop]
    split_ifs with absent called retries
    · exact h
    · simp only [not_or, not_not] at absent
      cases h with
      | nothing unowned => simp [unowned] at absent
      | partialStart p now owned => simp [owned] at absent
      | source p now owned ok isOpen seen once =>
        have used := List.length_pos_iff.mpr (seen.mp called)
        refine .source p now owned ok isOpen called ?_ once
        simp [isOpen.retry, retries, used]
    · exact h
    · simp only [not_or, not_not] at absent
      cases h with
      | nothing unowned => simp [unowned] at absent
      | partialStart p now owned => simp [owned] at absent
      | source p now owned ok isOpen seen once =>
        have unused : p.cleanups = [] := not_not.mp (mt seen.mpr called)
        exact .source p now owned ok ⟨isOpen.1, isOpen.2, isOpen.3⟩ rfl (by simp [unused]) once
  | partialStart =>
    simp only [step, CleanupPc.stepPartialStart]
    split_ifs with absent spent retries
    · exact h
    · exact h
    · simp only [not_or, not_not] at absent
      cases h with
      | nothing unowned => simp [unowned] at absent
      | source p now owned => simp [owned] at absent
      | partialStart p now owned failed isOpen seen twice =>
        have used := List.length_pos_iff.mpr (seen.mp retries.2)
        refine .partialStart p now owned failed ⟨isOpen.1, isOpen.2, isOpen.3⟩ retries.2 ?_ ?_
        · simp [isOpen.retry, retries.1, used]
        · intro never
          simp [isOpen.retry, retries.1] at never
    · simp only [not_or, not_not] at absent
      cases h with
      | nothing unowned => simp [unowned] at absent
      | source p now owned => simp [owned] at absent
      | partialStart p now owned failed isOpen seen twice =>
        refine .partialStart p now owned failed ⟨isOpen.1, isOpen.2, isOpen.3⟩ rfl ?_ ?_
        · cases supported : sh.sourceStopRetrySupported with
          | false => simp [isOpen.retry, supported]
          | true =>
            have unused : p.cleanups = [] :=
              not_not.mp (mt seen.mpr fun called => retries ⟨supported, called⟩)
            simp [unused]
        · intro never
          obtain ⟨counted, -⟩ := twice never
          have unsupported : sh.sourceStopRetrySupported = false := isOpen.retry.symm.trans never
          have few : sh.partialCleanupAttempts.toNat < 2 := by
            by_contra many
            refine spent ⟨?_, unsupported⟩
            rw [BitVec.le_def]
            exact not_lt.mp many
          have next : (sh.partialCleanupAttempts + 1).toNat = sh.partialCleanupAttempts.toNat + 1 := by
            rw [BitVec.toNat_add]
            exact Nat.mod_eq_of_lt (by simp; omega)
          simp only [Shared.countAttempt, next]
          omega

theorem Period.complete_of_accepts {p : Period} {c : CleanupCall} (accepts : p.Accepts c) :
    (p.clean c).Complete :=
  .inr (.inl ⟨c, by simp [Period.clean], accepts⟩)

theorem Ledger.Calling.current {retry : Bool} {kind : Cleanup} (h : l.Calling sh retry kind) :
    ∃ p, l.current = some p := by
  cases h with
  | source p now => exact ⟨p, now⟩
  | partialStart p now => exact ⟨p, now⟩

/-- The call returns, and either the period is over or a retry of it is owed. -/
theorem Cleanup.call_books {kind : Cleanup} {retry : Bool} (h : l.Calling sh retry kind)
    (result : ResultCode) :
    (l.record (.cleanup ⟨retry, result⟩)).Owing (kind.step sh result (.call retry)).1 ∧
      ∃ value, (kind.step sh result (.call retry)).2 = .ret value := by
  cases h with
  | source p now owned ok isOpen called kind once =>
    rw [Ledger.record_cleanup now]
    have allowed : (p.clean ⟨retry, result⟩).Allowed := by
      refine Period.allowed_of ok (.inl rfl) (isOpen.kinds_clean kind) isOpen.last_clean ?_
      intro never
      simp [Period.clean, once never, ok]
    simp only [step, CleanupPc.stepSourceStop]
    split_ifs with complete retries
    · refine ⟨.nothing rfl ?_, _, rfl⟩
      intro p' current
      obtain rfl := Option.some.inj current
      refine ⟨allowed, Period.complete_of_accepts ?_⟩
      rcases complete with done | ⟨retries, gone⟩
      · exact .inl done
      · exact .inr ⟨gone, .inl (isOpen.retry.trans retries)⟩
    · have unsettled : ¬(⟨retry, result⟩ : CleanupCall).Settled := by
        rintro (done | gone)
        · exact complete (.inl done)
        · exact complete (.inr ⟨retries, gone⟩)
      refine ⟨.source _ rfl owned ok (isOpen.clean unsettled kind) ?_ ?_, _, rfl⟩
      · simp [called, Period.clean]
      · intro never
        exact absurd ((isOpen.retry.trans retries).symm.trans never) (by decide)
    · refine ⟨.nothing rfl ?_, _, rfl⟩
      intro p' current
      obtain rfl := Option.some.inj current
      have never : p.retry = false := isOpen.retry.trans (eq_false_of_ne_true retries)
      exact ⟨allowed, .inr (.inr ⟨never, ok, by simp [Period.clean, once never]⟩)⟩
  | partialStart p now owned failed isOpen called kind twice =>
    rw [Ledger.record_cleanup now]
    obtain ⟨answer, started, notOk, owns⟩ := failed
    have allowed : (p.clean ⟨retry, result⟩).Allowed := by
      refine Period.allowed_of started (.inr owns) (isOpen.kinds_clean kind) isOpen.last_clean ?_
      intro never
      have two := (twice never).2
      simpa [Period.clean, started, notOk] using two
    simp only [step, CleanupPc.stepPartialStart]
    split_ifs with complete
    · refine ⟨.nothing rfl ?_, _, rfl⟩
      intro p' current
      obtain rfl := Option.some.inj current
      refine ⟨allowed, Period.complete_of_accepts ?_⟩
      rcases complete with done | gone
      · exact .inl done
      · exact .inr ⟨gone, .inr (by simpa [started] using notOk)⟩
    · refine ⟨.partialStart _ rfl owned ⟨answer, started, notOk, owns⟩
        (isOpen.clean complete kind) ?_ ?_, _, rfl⟩
      · simp [called, Period.clean]
      · intro never
        simpa [Period.clean] using twice never

/-- A step of an operation writes down its calls; what it goes on with is what is owed. -/
structure Ledger.Records (l l' : Ledger) (calls : List SourceCall) (sh : Shared)
    (control : Control CallPc (Option ResultCode)) : Prop where
  written : l'.calls = l.calls ++ calls
  sound : l'.Sound
  next : ∀ pc ∈ control.live, pc.Books l' sh
  returned : control.live = [] → l'.Owing sh

/-- A period that has just been opened by start(). -/
theorem Period.open_start (supported : Bool) (result : ResultCode) :
    (Period.start { retry := supported } result).Open supported :=
  ⟨rfl, fun i c found => by simp [Period.start] at found,
    fun c member => by simp [Period.start] at member⟩

theorem Ledger.Owing.records {control : Control CallPc (Option ResultCode)} {calls : List SourceCall}
    {l' : Ledger} (h : l'.Owing sh) (written : l'.calls = l.calls ++ calls) (sound : l'.Sound)
    (next : ∀ pc ∈ control.live, pc.inSource = false) : l.Records l' calls sh control :=
  ⟨written, sound, fun pc live => (CallPc.books_of_outside (next pc live)).mpr h, fun _ => h⟩

theorem CallPc.SourceStep.records {pc : CallPc} {control : Control CallPc (Option ResultCode)}
    (step : SourceStep answers sh pc sh' control) (books : pc.Books l sh) (sound : l.Sound)
    (unowned : pc = .start .supportsRetry ∨ pc = .start .startSource → sh.Unowned) :
    l.Records ((pc.sourceCalls answers).foldl Ledger.record l) (pc.sourceCalls answers) sh'
      control := by
  cases step with
  | beside outside same next =>
    rw [outside]
    have owing := (books_of_outside (outside_of_sourceCalls outside)).mp books
    exact (same.owing owing).records (by simp) sound next
  | asks =>
    have owing := (books_of_outside rfl).mp books
    refine ⟨l.calls_record_supports _, ?_, ?_, by simp⟩
    · intro p member
      rcases List.mem_append.mp member with earlier | last
      · exact sound p earlier
      · have vacant := (unowned (.inl rfl)).ownership
        cases owing with
        | nothing unowned complete => exact complete p (Option.mem_toList.mp last)
        | source p now owned => simp [vacant] at owned
        | partialStart p now owned => simp [vacant] at owned
    · intro pc' live
      obtain rfl := List.mem_singleton.mp live
      exact ⟨(unowned (.inl rfl)).ownership, rfl⟩
  | started ok =>
    obtain ⟨vacant, now⟩ := books
    have recorded := Ledger.current_record_start now answers.result
    refine Ledger.Owing.records ?_ (Ledger.calls_record_start now rfl rfl _) sound
      (by simp [inSource, cleanup])
    exact .source _ recorded rfl (congrArg some ok) (Period.open_start _ _)
      (by simp [Period.start]) fun _ => rfl
  | failed notOk owns =>
    obtain ⟨vacant, now⟩ := books
    have recorded := Ledger.current_record_start now answers.result
    have uncalled := (unowned (.inr rfl)).called
    refine Ledger.Owing.records ?_ (Ledger.calls_record_start now rfl rfl _) sound
      (by simp [inSource, cleanup])
    exact .partialStart _ recorded rfl ⟨_, rfl, notOk, owns⟩ (Period.open_start _ _)
      (by simp [Period.start, uncalled]) (by simp [Period.start])
  | refused notOk owns =>
    obtain ⟨vacant, now⟩ := books
    refine Ledger.Owing.records (.nothing vacant ?_) (Ledger.calls_record_start now rfl rfl _) sound
      (by simp [inSource, cleanup])
    intro p current
    obtain rfl := Option.some.inj
      ((Ledger.current_record_start now answers.result).symm.trans current)
    have refused : (Period.start { retry := sh.sourceStopRetrySupported } answers.result).Refused := by
      simp only [startFailureMayOwnSource, Bool.and_eq_false_iff, decide_eq_false_iff_not,
        not_not] at owns
      rcases owns with running | invalid
      · exact .inl (congrArg some running)
      · exact .inr (congrArg some invalid)
    exact ⟨⟨fun _ => rfl, fun _ => rfl, by simp [Period.start], by simp [Period.start],
      by simp [Period.start], by simp [Period.start]⟩, .inl refused⟩
  | cleans inside next =>
    rename_i kind inner
    obtain ⟨calls, elsewhere⟩ := sourceCalls_eq answers inside
    rw [books_eq elsewhere, inside] at books
    rw [calls]
    cases inner with
    | test =>
      have after := kind.test_books books answers.result
      generalize kind.step sh answers.result .test = outcome at after next ⊢
      obtain ⟨sh', inner⟩ := outcome
      cases inner with
      | ret value => exact Ledger.Owing.records after (by simp [CleanupPc.sourceCalls]) sound next
      | next inner =>
        cases inner with
        | test => exact absurd after id
        | call retry =>
          obtain ⟨pc', rfl, within⟩ := next
          refine ⟨by simp [CleanupPc.sourceCalls], sound, ?_, by simp⟩
          intro pc live
          obtain rfl := List.mem_singleton.mp live
          have elsewhere : pc ≠ .start .startSource := by
            rintro rfl
            cases within
          rw [books_eq elsewhere, within]
          exact after
    | call retry =>
      obtain ⟨p, now⟩ := Ledger.Calling.current books
      obtain ⟨owing, value, returned⟩ := Cleanup.call_books books answers.result
      simp only [returned] at next
      exact owing.records (Ledger.calls_record_cleanup now _)
        (by simpa [Ledger.Sound, Ledger.record] using sound) next

end Steps

/-! ### Runs -/

theorem Ledger.Records.settles {l l' : Ledger} {calls : List SourceCall} {sh : Shared}
    {control : Control CallPc (Option ResultCode)} (h : l.Records l' calls sh control) :
    control.Settles CallPc.operating (l'.Owing sh) (CallPc.Books l' sh) := by
  refine .of_live h.returned h.next fun pc waiting books => ?_
  exact (CallPc.books_of_outside (CallPc.outside_of_waiting waiting {}).1).mp books

theorem ledger_append (calls more : List SourceCall) :
    ledger (calls ++ more) = more.foldl Ledger.record (ledger calls) :=
  List.foldl_append ..

namespace System

/-- The ledger of the calls so far is sound, and agrees with what the runtime keeps. -/
structure Booked (calls : List SourceCall) (s : System) : Prop where
  written : (ledger calls).calls = calls
  sound : (ledger calls).Sound
  held : Held (fun p : Caller × CallPc => p.2.operating) ((ledger calls).Owing s.shared)
    (fun p => p.2.Books (ledger calls) s.shared) s.calls

variable {platform : Platform} {s t : System} {calls : List SourceCall}

theorem Booked.initial : Booked [] {} where
  written := rfl
  sound := fun p member => by cases member
  held := .start (.nothing rfl (by simp [ledger]))

theorem Booked.same (h : Booked calls s) (kept : t.calls = s.calls)
    (same : s.shared.SameOwnership t.shared) : Booked calls t := by
  refine ⟨h.written, h.sound, ?_⟩
  rw [kept]
  exact h.held.mono same.owing fun p _ _ books => same.books books

theorem Governed.unowned (governed : s.Governed platform) {caller : Caller} {pc : CallPc}
    (member : (caller, pc) ∈ s.calls)
    (asks : pc = .start .supportsRetry ∨ pc = .start .startSource) : s.shared.Unowned := by
  rcases asks with rfl | rfl <;> exact (governed.fact member rfl (by simp)).2.2

theorem Booked.call (h : Booked calls s) (governed : s.Governed platform) {i : ℕ}
    {answers : Answers} (step : s.next platform (.call i answers) = some t) :
    Booked (calls ++ s.sourceCalls (.call i answers)) t := by
  obtain ⟨caller, pc, shared, control, found, inside, rfl⟩ := next_call step
  have member := List.mem_of_getElem? found
  have emitted : s.sourceCalls (.call i answers) = pc.sourceCalls answers := by
    rw [sourceCalls, found]
  rw [emitted]
  have records (books : pc.Books (ledger calls) s.shared) :=
    (CallPc.step_source inside).records books h.sound (governed.unowned member)
  cases operating : pc.operating with
  | true =>
    have recorded := records (h.held.fact member operating)
    rw [← ledger_append] at recorded
    refine ⟨recorded.written.trans (by rw [h.written]), recorded.sound,
      governed.call_held h.held found inside (fun _ _ => recorded.settles) ?_ ?_⟩
    · intro waiting
      exact absurd (operating.symm.trans waiting) Bool.noConfusion
    · intro waiting
      exact absurd (operating.symm.trans waiting) Bool.noConfusion
  | false =>
    obtain ⟨outside, silent⟩ := CallPc.outside_of_waiting operating answers
    rw [silent] at records ⊢
    rw [List.append_nil]
    refine ⟨h.written, h.sound, governed.call_held h.held found inside ?_ ?_ ?_⟩
    · intro working
      exact absurd (operating.symm.trans working) Bool.noConfusion
    · intro _ owing
      exact (records ((CallPc.books_of_outside outside).mpr owing)).settles
    · rintro _ same q books
      rw [same]
      exact books

theorem Booked.next (h : Booked calls s) (governed : s.Governed platform) {k : Choice}
    (step : s.next platform k = some t) : Booked (calls ++ s.sourceCalls k) t := by
  cases k with
  | call i answers => exact h.call governed step
  | begin caller operation =>
    obtain ⟨-, rfl⟩ := next_begin step
    show Booked (calls ++ []) _
    rw [List.append_nil]
    refine ⟨h.written, h.sound, h.held.join ?_⟩
    cases operation <;> rfl
  | beginDestroy caller =>
    obtain ⟨-, quiet, -, rfl⟩ := next_beginDestroy step
    show Booked (calls ++ []) _
    rw [List.append_nil]
    have held := h.held
    rw [quiet] at held
    exact ⟨h.written, h.sound, held.alone rfl id⟩
  | beginDiagnostics caller =>
    obtain ⟨-, rfl⟩ := next_beginDiagnostics step
    show Booked (calls ++ []) _
    rw [List.append_nil]
    exact h.same rfl ⟨⟨rfl, rfl, rfl, rfl, rfl⟩, rfl⟩
  | reader i answers =>
    obtain ⟨caller, pc, found, rfl⟩ := next_reader step
    show Booked (calls ++ []) _
    rw [List.append_nil]
    exact h.same rfl pc.step_ownership
  | worker i answers =>
    obtain ⟨id, pc, found, -, rfl⟩ := next_worker step
    show Booked (calls ++ []) _
    rw [List.append_nil]
    exact h.same rfl pc.step_ownership

theorem booked_of_run {ks : List Choice} (run : exec (next platform) {} ks = some s) :
    Booked (trace (next platform) sourceCalls {} ks) s := by
  refine exec_history (P := fun ks s => Booked (trace (next platform) sourceCalls {} ks) s)
    Booked.initial ?_ run
  intro ks t k u before booked step
  rw [trace_concat before k]
  exact booked.next (exec_governed before) step

/-- The calls of every run are a list of periods. Each is one that the protocol allows, each
but the last is complete before the source is asked for the next one, and no worker is alive
when start() is about to be called. -/
theorem source_call_protocol {ks : List Choice} (run : exec (next platform) {} ks = some s) :
    (ledger (trace (next platform) sourceCalls {} ks)).periods.flatMap Period.calls =
        trace (next platform) sourceCalls {} ks ∧
      (∀ p ∈ (ledger (trace (next platform) sourceCalls {} ks)).periods, p.Allowed) ∧
      (∀ p ∈ (ledger (trace (next platform) sourceCalls {} ks)).past, p.Complete) ∧
      ∀ caller, (caller, .start .startSource) ∈ s.calls → s.workers = [] := by
  have booked := booked_of_run run
  refine ⟨booked.written, ?_, fun p member => (booked.sound p member).2, ?_⟩
  · intro p member
    rcases List.mem_append.mp member with earlier | current
    · exact (booked.sound p earlier).1
    · have now := Option.mem_toList.mp current
      cases booked.held with
      | free idle owing => exact owing.allowed p now
      | taken before after q split before_idle after_idle working books => exact books.allowed p now
  · intro caller member
    exact ((exec_governed run).fact member rfl (by simp)).2.1.none_alive

/-- stop() times out and is retried with success; another owner then refuses the next
start(). -/
def retriedThenRefused : List Choice :=
  [.begin none .start] ++ List.replicate 11 (.call 0 { retrySupported := true }) ++
    [.begin none .stop] ++ List.replicate 7 (.call 0 { result := .timeout }) ++
    [.begin none .stop] ++ List.replicate 6 (.call 0 {}) ++ List.replicate 2 (.worker 0 {}) ++
    List.replicate 4 (.call 0 {}) ++
    [.begin none .start] ++ List.replicate 4 (.call 0 { result := .alreadyRunning })

theorem retried_then_refused_protocol :
    trace (next .host) sourceCalls {} retriedThenRefused =
        [.supportsStopRetry true, .start .ok, .cleanup ⟨false, .timeout⟩, .cleanup ⟨true, .ok⟩,
          .supportsStopRetry false, .start .alreadyRunning] ∧
      (ledger (trace (next .host) sourceCalls {} retriedThenRefused)).periods.length = 2 ∧
      (∀ p ∈ (ledger (trace (next .host) sourceCalls {} retriedThenRefused)).periods, p.Allowed) ∧
      ∀ p ∈ (ledger (trace (next .host) sourceCalls {} retriedThenRefused)).past, p.Complete := by
  have run := exec_eq_final (next .host) {} retriedThenRefused (by decide)
  have protocol := source_call_protocol run
  exact ⟨by decide, by decide, protocol.2.1, protocol.2.2.1⟩

end System

end CanTelemetry.VehicleTelemetry
