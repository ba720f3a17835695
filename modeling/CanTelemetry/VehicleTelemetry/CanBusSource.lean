import CanTelemetry.CanBus.Cleanup
import CanTelemetry.VehicleTelemetry.SourceCalls

/-! The source that stands for the CAN bus, and a runtime over it. A call of the runtime on
its source is a call on the bus, which takes as many steps as it takes there; when it has
returned, the runtime goes on with the mapped result. Anybody else may use the bus as well.
What receive() and statistics() of the source answer stays part of the runtime's schedule,
which is more than the bus can answer. -/

namespace CanTelemetry.CanBusSource

open Execution Threads

variable {w : ℕ}

/-! ### The adapter -/

/-- `map_start_result` -/
def mapStartResult : CanBus.Result → VehicleTelemetry.ResultCode
  | .ok => .ok
  | .invalidConfiguration => .invalidConfiguration
  | .alreadyStarted => .alreadyRunning
  | .stopping => .stopping
  | .faulted | .driverFailure | .taskFailure => .faulted
  | .notStarted | .timeout => .invalidState

/-- `map_stop_result` -/
def mapStopResult : CanBus.Result → VehicleTelemetry.ResultCode
  | .ok => .ok
  | .notStarted => .notRunning
  | .stopping => .stopping
  | .timeout => .timeout
  | .faulted | .driverFailure | .taskFailure => .faulted
  | .invalidConfiguration | .alreadyStarted => .invalidState

/-- `CanBusSource::supports_stop_retry` -/
def supportsStopRetry : Bool := true

/-- The call on the bus that the runtime's call on the source makes: start() makes a start(),
stop() and retry_stop() make a stop(). -/
def request (configuration : CanBus.Configuration) (pc : VehicleTelemetry.CallPc) :
    Option (CanBus.CallPc w) :=
  match pc with
  | .start .startSource => some (.start configuration .beginStart)
  | pc => if pc.inSource then some (.stop (.begin .load)) else none

/-- What the source answers for a result of the bus. -/
def reply (pc : VehicleTelemetry.CallPc) (result : CanBus.Result) :
    VehicleTelemetry.ResultCode :=
  match pc with
  | .start .startSource => mapStartResult result
  | _ => mapStopResult result

/-- Only these two results let the runtime forget the source. -/
theorem mapStopResult_gone {result : CanBus.Result} :
    mapStopResult result = .ok ∨ mapStopResult result = .notRunning ↔
      result = .ok ∨ result = .notStarted := by
  cases result <;> simp [mapStopResult]

theorem reply_of_cleanup {pc : VehicleTelemetry.CallPc} (elsewhere : pc ≠ .start .startSource)
    (result : CanBus.Result) : reply pc result = mapStopResult result := by
  unfold reply
  split
  · contradiction
  · rfl

theorem request_eq_some {configuration : CanBus.Configuration} {pc : VehicleTelemetry.CallPc}
    {inner : CanBus.CallPc w} (entry : request configuration pc = some inner) :
    pc = .start .startSource ∧ inner = .start configuration .beginStart ∨
      (∃ kind retry, pc.cleanup = some (kind, .call retry)) ∧ inner = .stop (.begin .load) := by
  unfold request at entry
  split at entry
  · exact .inl ⟨rfl, (Option.some.inj entry).symm⟩
  · rename_i elsewhere
    obtain ⟨within, entry⟩ := Option.ite_none_right_eq_some.mp entry
    exact .inr ⟨(pc.inSource_cases within).resolve_left elsewhere, (Option.some.inj entry).symm⟩

/-! ### The system -/

/-- The runtime's call on the bus. -/
inductive Call (w : ℕ)
  | inside (pc : CanBus.CallPc w)
  | returned (result : CanBus.Result)

def Call.after : Control (CanBus.CallPc w) CanBus.Result → Call w
  | .next pc => .inside pc
  | .ret result => .returned result

def Call.pc? : Call w → Option (CanBus.CallPc w)
  | .inside pc => some pc
  | .returned _ => none

def Call.result? : Call w → Option CanBus.Result
  | .inside _ => none
  | .returned result => some result

/-- The calls of the bus are those of other users; the runtime's own is `call`. -/
structure System (w : ℕ) where
  runtime : VehicleTelemetry.System := {}
  bus : CanBus.System w := {}
  call : Option (Call w) := none

/-- A step of the runtime, the entry of its call `i` into the bus, a step in there, or a step
of the bus's task, its other users and its observers. -/
inductive Choice
  | runtime (k : VehicleTelemetry.Choice)
  | enter (i : ℕ)
  | call (ok : Bool)
  | bus (k : CanBus.Choice)
  deriving DecidableEq

namespace System

/-- The source's answers at a step of the runtime are those of the adapter. -/
def answered (s : System w) : VehicleTelemetry.Choice → Bool
  | .call i answers => s.runtime.calls[i]?.all fun p => match p.2 with
    | .start .supportsRetry => answers.retrySupported = supportsStopRetry
    | pc => !pc.inSource ||
      (s.call.bind Call.result?).any fun result => answers.result = reply pc result
  | _ => true

/-- The runtime goes on after its call on the source. -/
def resumes (s : System w) : VehicleTelemetry.Choice → Bool
  | .call i _ => s.runtime.calls[i]?.any (·.2.inSource)
  | _ => false

def next (platform : VehicleTelemetry.Platform) (configuration : CanBus.Configuration)
    (s : System w) : Choice → Option (System w)
  | .runtime k =>
    if s.answered k then (s.runtime.next platform k).map fun runtime =>
      { s with runtime := runtime, call := if s.resumes k then none else s.call }
    else none
  | .enter i =>
    if s.call.isNone then
      (s.runtime.calls[i]?.bind fun p => request configuration p.2).map fun pc =>
        { s with call := some (.inside pc) }
    else none
  | .call ok => (s.call.bind Call.pc?).bind fun pc =>
    (pc.step s.bus.shared ok).map fun (shared, control) =>
      { s with
        bus := { s.bus with shared := shared, tasks := s.bus.tasks ++ pc.created ok }
        call := some (.after control) }
  | .bus k => (s.bus.next k).map fun bus => { s with bus := bus }

/-- The operation of the runtime that is the oldest call makes some steps. -/
def operates (n : ℕ) (answers : VehicleTelemetry.Answers) : List Choice :=
  List.replicate n (.runtime (.call 0 answers))

variable {platform : VehicleTelemetry.Platform} {configuration : CanBus.Configuration}
  {s t : System w}

theorem next_runtime {k : VehicleTelemetry.Choice}
    (step : s.next platform configuration (.runtime k) = some t) :
    s.answered k = true ∧ ∃ runtime, s.runtime.next platform k = some runtime ∧
      t = { s with runtime := runtime, call := if s.resumes k then none else s.call } := by
  obtain ⟨answered, step⟩ := Option.ite_none_right_eq_some.mp step
  obtain ⟨runtime, inner, rfl⟩ := Option.map_eq_some_iff.mp step
  exact ⟨answered, runtime, inner, rfl⟩

theorem next_enter {i : ℕ} (step : s.next platform configuration (.enter i) = some t) :
    s.call = none ∧ ∃ caller pc inner, s.runtime.calls[i]? = some (caller, pc) ∧
      request configuration pc = some inner ∧ t = { s with call := some (.inside inner) } := by
  obtain ⟨free, step⟩ := Option.ite_none_right_eq_some.mp step
  obtain ⟨inner, entry, rfl⟩ := Option.map_eq_some_iff.mp step
  obtain ⟨⟨caller, pc⟩, found, entry⟩ := Option.bind_eq_some_iff.mp entry
  exact ⟨Option.isNone_iff_eq_none.mp free, caller, pc, inner, found, entry, rfl⟩

theorem next_call {ok : Bool} (step : s.next platform configuration (.call ok) = some t) :
    ∃ pc shared control, s.call = some (.inside pc) ∧
      pc.step s.bus.shared ok = some (shared, control) ∧
      t = { s with
        bus := { s.bus with shared := shared, tasks := s.bus.tasks ++ pc.created ok }
        call := some (.after control) } := by
  obtain ⟨pc, current, step⟩ := Option.bind_eq_some_iff.mp step
  obtain ⟨⟨shared, control⟩, inner, rfl⟩ := Option.map_eq_some_iff.mp step
  obtain ⟨call, present, within⟩ := Option.bind_eq_some_iff.mp current
  cases call with
  | inside pc' =>
    obtain rfl := Option.some.inj within
    exact ⟨pc', shared, control, present, inner, rfl⟩
  | returned result => cases within

theorem next_bus {k : CanBus.Choice} (step : s.next platform configuration (.bus k) = some t) :
    ∃ bus, s.bus.next k = some bus ∧ t = { s with bus := bus } := by
  obtain ⟨bus, inner, rfl⟩ := Option.map_eq_some_iff.mp step
  exact ⟨bus, inner, rfl⟩

theorem answered_inSource {i : ℕ} {answers : VehicleTelemetry.Answers}
    {caller : VehicleTelemetry.Caller} {pc : VehicleTelemetry.CallPc}
    (answered : s.answered (.call i answers) = true)
    (found : s.runtime.calls[i]? = some (caller, pc)) (within : pc.inSource = true) :
    ∃ result, s.call = some (.returned result) ∧ answers.result = reply pc result := by
  simp only [System.answered, found, Option.all_some] at answered
  split at answered
  · cases within
  · simp only [within, Bool.not_true, Bool.false_or, Option.any_eq_true, decide_eq_true_eq,
      Option.bind_eq_some_iff] at answered
    obtain ⟨result, ⟨call, present, ended⟩, same⟩ := answered
    cases call with
    | inside pc' => cases ended
    | returned result' =>
      obtain rfl := Option.some.inj ended
      exact ⟨result', present, same⟩

theorem answered_supportsRetry {i : ℕ} {answers : VehicleTelemetry.Answers}
    {caller : VehicleTelemetry.Caller} (answered : s.answered (.call i answers) = true)
    (found : s.runtime.calls[i]? = some (caller, .start .supportsRetry)) :
    answers.retrySupported = true := by
  simp only [System.answered, found, Option.all_some, supportsStopRetry] at answered
  exact of_decide_eq_true answered

theorem resumes_eq {i : ℕ} {answers : VehicleTelemetry.Answers}
    {caller : VehicleTelemetry.Caller} {pc : VehicleTelemetry.CallPc}
    (found : s.runtime.calls[i]? = some (caller, pc)) :
    s.resumes (.call i answers) = pc.inSource := by
  simp only [resumes, found, Option.any_some]

/-- The runtime over the bus runs as it does over any source. -/
theorem next_governed (h : s.runtime.Governed platform) {k : Choice}
    (step : s.next platform configuration k = some t) : t.runtime.Governed platform := by
  cases k with
  | runtime k =>
    obtain ⟨-, runtime, inner, rfl⟩ := next_runtime step
    exact h.next inner
  | enter i =>
    obtain ⟨-, caller, pc, inner, -, -, rfl⟩ := next_enter step
    exact h
  | call ok =>
    obtain ⟨pc, shared, control, -, -, rfl⟩ := next_call step
    exact h
  | bus k =>
    obtain ⟨bus, -, rfl⟩ := next_bus step
    exact h

/-! ### The runtime beside its call on the bus -/

/-- Something about the runtime and its call on the bus that only a step of an operation
changes. -/
structure Coupling (Rest : VehicleTelemetry.Shared → Prop)
    (Fact : VehicleTelemetry.Shared → Option (Call w) → VehicleTelemetry.CallPc → Prop) :
    Prop where
  rest_same : ∀ {sh sh'}, sh.SameOwnership sh' → Rest sh → Rest sh'
  fact_same : ∀ {sh sh' call pc}, sh.SameOwnership sh' → Fact sh call pc → Fact sh' call pc
  outside : ∀ {sh pc}, pc.inSource = false → Rest sh → Fact sh none pc
  idle : ∀ {sh call pc}, pc.inSource = false → Fact sh call pc → call = none

/-- It holds of the operation in progress, and of a runtime without one. -/
def Coupled (Rest : VehicleTelemetry.Shared → Prop)
    (Fact : VehicleTelemetry.Shared → Option (Call w) → VehicleTelemetry.CallPc → Prop)
    (s : System w) : Prop :=
  Held (fun p : VehicleTelemetry.Caller × VehicleTelemetry.CallPc => p.2.operating)
    (s.call = none ∧ Rest s.runtime.shared) (fun p => Fact s.runtime.shared s.call p.2)
    s.runtime.calls

section Coupled

variable {Rest : VehicleTelemetry.Shared → Prop}
  {Fact : VehicleTelemetry.Shared → Option (Call w) → VehicleTelemetry.CallPc → Prop}

/-- The call on the bus belongs to the operation in progress. -/
theorem Coupled.holder (h : s.Coupled Rest Fact) {call : Call w} (current : s.call = some call) :
    ∃ p ∈ s.runtime.calls, Fact s.runtime.shared (some call) p.2 := by
  cases h with
  | free idle rest => exact absurd (rest.1.symm.trans current) (by simp)
  | taken before after p split before_idle after_idle operating fact =>
    exact ⟨p, by simp [split], current ▸ fact⟩

theorem Coupled.of_same (h : s.Coupled Rest Fact) (coupling : Coupling Rest Fact)
    (calls : t.runtime.calls = s.runtime.calls)
    (same : s.runtime.shared.SameOwnership t.runtime.shared) (call : t.call = s.call) :
    t.Coupled Rest Fact := by
  unfold Coupled
  rw [calls, call]
  refine Held.mono h ?_ fun p _ _ fact => coupling.fact_same same fact
  exact fun rest => ⟨rest.1, coupling.rest_same same rest.2⟩

theorem Coupled.call (h : s.Coupled Rest Fact) (coupling : Coupling Rest Fact)
    (governed : s.runtime.Governed platform) {i : ℕ} {answers : VehicleTelemetry.Answers}
    (settles : ∀ {caller pc shared control}, s.answered (.call i answers) = true →
      s.runtime.calls[i]? = some (caller, pc) →
      pc.step platform caller s.runtime.created s.runtime.running answers s.runtime.shared =
        some (shared, control) → Fact s.runtime.shared s.call pc →
      control.Settles VehicleTelemetry.CallPc.operating
        ((none : Option (Call w)) = none ∧ Rest shared) (Fact shared none))
    (step : s.next platform configuration (.runtime (.call i answers)) = some t) :
    t.Coupled Rest Fact := by
  obtain ⟨answered, runtime, inner, rfl⟩ := next_runtime step
  obtain ⟨caller, pc, shared, control, found, inside, rfl⟩ :=
    VehicleTelemetry.System.next_call inner
  have back (fact : Fact s.runtime.shared s.call pc) :
      (if s.resumes (.call i answers) then none else s.call) = none := by
    rw [resumes_eq found]
    split_ifs with within
    · rfl
    · exact coupling.idle (eq_false_of_ne_true within) fact
  show Held (fun p : VehicleTelemetry.Caller × VehicleTelemetry.CallPc => p.2.operating)
    ((if s.resumes (.call i answers) then none else s.call) = none ∧ Rest shared)
    (fun p => Fact shared (if s.resumes (.call i answers) then none else s.call) p.2)
    (resume s.runtime.calls i _)
  refine governed.call_held h found inside ?_ ?_ ?_
  · intro operating fact
    rw [back fact]
    exact settles answered found inside fact
  · rintro waiting ⟨idle, rest⟩
    have fact : Fact s.runtime.shared s.call pc := by
      rw [idle]
      exact coupling.outside (VehicleTelemetry.CallPc.outside_of_waiting waiting answers).1 rest
    rw [back fact]
    exact settles answered found inside fact
  · intro waiting same q fact
    rw [resumes_eq found, (VehicleTelemetry.CallPc.outside_of_waiting waiting answers).1, same]
    exact fact

/-- A step of the runtime: what is left to show is a step of an operation. -/
theorem Coupled.runtime (h : s.Coupled Rest Fact) (coupling : Coupling Rest Fact)
    (governed : s.runtime.Governed platform) {k : VehicleTelemetry.Choice}
    (settles : ∀ {i caller pc answers shared control}, s.answered (.call i answers) = true →
      s.runtime.calls[i]? = some (caller, pc) →
      pc.step platform caller s.runtime.created s.runtime.running answers s.runtime.shared =
        some (shared, control) → Fact s.runtime.shared s.call pc →
      control.Settles VehicleTelemetry.CallPc.operating
        ((none : Option (Call w)) = none ∧ Rest shared) (Fact shared none))
    (step : s.next platform configuration (.runtime k) = some t) : t.Coupled Rest Fact := by
  cases k with
  | call i answers => exact h.call coupling governed settles step
  | begin caller operation =>
    obtain ⟨-, runtime, inner, rfl⟩ := next_runtime step
    obtain ⟨-, rfl⟩ := VehicleTelemetry.System.next_begin inner
    refine Held.join h ?_
    cases operation <;> rfl
  | beginDestroy caller =>
    obtain ⟨-, runtime, inner, rfl⟩ := next_runtime step
    obtain ⟨-, quiet, -, rfl⟩ := VehicleTelemetry.System.next_beginDestroy inner
    have held : Held _ _ _ _ := h
    rw [quiet] at held
    refine held.alone rfl ?_
    rintro ⟨free, rest⟩
    show Fact _ s.call _
    rw [free]
    exact coupling.outside rfl rest
  | beginDiagnostics caller =>
    obtain ⟨-, runtime, inner, rfl⟩ := next_runtime step
    obtain ⟨-, rfl⟩ := VehicleTelemetry.System.next_beginDiagnostics inner
    exact h
  | reader i answers =>
    obtain ⟨-, runtime, inner, rfl⟩ := next_runtime step
    obtain ⟨caller, pc, found, rfl⟩ := VehicleTelemetry.System.next_reader inner
    exact h.of_same coupling rfl pc.step_ownership rfl
  | worker i answers =>
    obtain ⟨-, runtime, inner, rfl⟩ := next_runtime step
    obtain ⟨id, pc, found, -, rfl⟩ := VehicleTelemetry.System.next_worker inner
    exact h.of_same coupling rfl pc.step_ownership rfl

end Coupled

end System

end CanTelemetry.CanBusSource
