import CanTelemetry.Foundation.Monitor
import CanTelemetry.VehicleTelemetry.CanBusSource

/-! A runtime whose bus somebody else has started. Its start() is refused before anything is
installed, and what happens next hangs on the state that the refusal reads. Running becomes
AlreadyRunning, which says that the source belongs to another; every other state becomes a
result that also stands for a start() that failed half way, so the runtime cleans up after
itself and stops the other user's bus. -/

namespace CanTelemetry.CanBusSource

open Execution Threads
open VehicleTelemetry (Answers CallPc CleanupPc Platform ResultCode)

variable {w : ℕ}

/-! ### What is watched -/

/-- The runtime's latest start() of the bus was refused: the state it has read since then,
and how often the runtime has called stop() of the bus. -/
structure Refusal where
  read : Option CanBus.LifecycleState := none
  stops : ℕ := 0
  deriving DecidableEq

/-- As far as it has read, the refusal says that the bus runs for somebody else. -/
def Refusal.elsewhere (r : Refusal) : Bool := r.read = none || r.read = some .running

namespace System

/-- The runtime is about to be refused by `begin_start`. -/
def refuses (s : System w) : Bool :=
  match s.call with
  | some (.inside (.start configuration .beginStart)) =>
    CanBus.isConfigurationValid configuration && s.bus.shared.lifecycle.state ≠ .stopped
  | _ => false

/-- The runtime is about to read the state that it reports for a refusal. -/
def reads (s : System w) : Bool :=
  match s.call with
  | some (.inside (.start _ .refused)) => true
  | _ => false

def watch (s : System w) (k : Choice) (m : Option Refusal) : Option Refusal :=
  match k with
  | .enter i =>
    if s.runtime.calls[i]?.any (·.2 = .start .startSource) then none
    else m.map fun r => { r with stops := r.stops + 1 }
  | .call _ =>
    if s.refuses then some {}
    else if s.reads then m.map fun r => { r with read := some s.bus.shared.lifecycle.state }
    else m
  | _ => m

end System

/-- A step of the runtime, inside the bus or not. -/
def Choice.own : Choice → Bool
  | .bus _ => false
  | _ => true

/-! ### What follows a refusal -/

/-- A refusal whose start() is over: either it has read Running and the runtime has nothing,
or the runtime has called stop(). -/
inductive Refusal.Left (r : Refusal) (sh : VehicleTelemetry.Shared) : Prop
  | elsewhere (read : r.read = some .running) (never : r.stops = 0)
    (free : sh.sourceStarted = false)
  | stopped (state : CanBus.LifecycleState) (read : r.read = some state) (live : state ≠ .running)
    (called : 0 < r.stops)

/-- Where an operation of the runtime stands after a refusal. -/
inductive Refusal.Stage (r : Refusal) (sh : VehicleTelemetry.Shared) :
    Option (Call w) → CallPc → Prop
  | refusing (configuration : CanBus.Configuration) (unread : r.read = none) (never : r.stops = 0) :
    Stage r sh (some (.inside (.start configuration .refused))) (.start .startSource)
  | refused (state : CanBus.LifecycleState) (read : r.read = some state) (never : r.stops = 0) :
    Stage r sh (some (.returned (CanBus.refusedResult state))) (.start .startSource)
  | cleaning (state : CanBus.LifecycleState) (result : ResultCode) (read : r.read = some state)
    (live : state ≠ .running) (never : r.stops = 0) (owner : sh.sourceOwnership = .partialStart)
    (started : sh.sourceStarted = true) (attempts : sh.partialCleanupAttempts = 0) :
    Stage r sh none (.start (.partialCleanup .test result))
  | calling (state : CanBus.LifecycleState) (result : ResultCode) (retry : Bool)
    (read : r.read = some state) (live : state ≠ .running) (never : r.stops = 0) :
    Stage r sh none (.start (.partialCleanup (.call retry) result))
  | left {pc : CallPc} (outside : pc.cleanup.any (·.2.inSource) = false)
    (read : r.read = some .running) (never : r.stops = 0) (free : sh.sourceStarted = false) :
    Stage r sh none pc
  | stopped {call : Option (Call w)} {pc : CallPc} (state : CanBus.LifecycleState)
    (read : r.read = some state) (live : state ≠ .running) (called : 0 < r.stops)
    (past : ∀ configuration inner, call ≠ some (.inside (.start configuration inner))) :
    Stage r sh call pc

/-- The runtime's call on the bus is the one that its operation asked for. -/
inductive Linked : Option (Call w) → CallPc → Prop
  | idle {pc : CallPc} : Linked none pc
  | starting (configuration : CanBus.Configuration) (inner : CanBus.StartPc w) :
    Linked (some (.inside (.start configuration inner))) (.start .startSource)
  | stopping {pc : CallPc} (kind : VehicleTelemetry.Cleanup) (retry : Bool)
    (inside : pc.cleanup = some (kind, .call retry)) (inner : CanBus.StopPc) :
    Linked (some (.inside (.stop inner))) pc
  | returned {pc : CallPc} (within : pc.inSource = true) (result : CanBus.Result) :
    Linked (some (.returned result)) pc

structure Tracks (sh : VehicleTelemetry.Shared) (m : Option Refusal) (call : Option (Call w))
    (pc : CallPc) : Prop where
  linked : Linked call pc
  stage : ∀ r ∈ m, r.Stage sh call pc

section Steps

variable {sh sh' : VehicleTelemetry.Shared} {m : Option Refusal} {r : Refusal}
  {current : Option (Call w)} {pc : CallPc} {answers : Answers}
  {control : Control CallPc (Option ResultCode)}

theorem Refusal.Left.stage (h : r.Left sh) (outside : pc.inSource = false) :
    r.Stage sh (none : Option (Call w)) pc := by
  cases h with
  | elsewhere read never free =>
    refine .left ?_ read never free
    refine eq_false_of_ne_true fun within => ?_
    obtain ⟨⟨kind, inner⟩, inside, calls⟩ := (Option.any_eq_true _ _).mp within
    rw [CallPc.inSource_of_cleanup inside] at outside
    exact absurd (outside.symm.trans calls) Bool.false_ne_true
  | stopped state read live called => exact .stopped state read live called (by simp)

theorem Refusal.Stage.left_of_waiting (h : r.Stage sh (none : Option (Call w)) pc)
    (waiting : pc.operating = false) : r.Left sh := by
  cases h with
  | left outside read never free => exact .elsewhere read never free
  | stopped state read live called past => exact .stopped state read live called
  | cleaning => cases waiting
  | calling => cases waiting

theorem Refusal.Stage.of_same (h : r.Stage sh current pc) (same : sh.SameOwnership sh') :
    r.Stage sh' current pc := by
  cases h with
  | refusing configuration unread never => exact .refusing configuration unread never
  | refused state read never => exact .refused state read never
  | cleaning state result read live never owner started attempts =>
    exact .cleaning state result read live never (same.ownership.trans owner)
      (same.started.trans started) (same.attempts.trans attempts)
  | calling state result retry read live never => exact .calling state result retry read live never
  | left outside read never free => exact .left outside read never (same.started.trans free)
  | stopped state read live called past => exact .stopped state read live called past

theorem Refusal.Left.of_same (h : r.Left sh) (same : sh.SameOwnership sh') : r.Left sh' := by
  cases h with
  | elsewhere read never free => exact .elsewhere read never (same.started.trans free)
  | stopped state read live called => exact .stopped state read live called

theorem Refusal.Left.stops_iff (h : r.Left sh) :
    r.stops = 0 ↔ r.read = some .running := by
  cases h with
  | elsewhere read never free => exact iff_of_true never read
  | stopped state read live called =>
    refine iff_of_false called.ne' ?_
    rw [read]
    exact fun same => live (Option.some.inj same)

/-- Of the states that a refusal reads, only Running says that nothing is owned. -/
theorem startFailureMayOwn_refused (state : CanBus.LifecycleState) :
    VehicleTelemetry.startFailureMayOwnSource (mapStartResult (CanBus.refusedResult state)) = true ↔
      state ≠ .running := by
  cases state <;> decide

theorem mapStartResult_refused (state : CanBus.LifecycleState) :
    mapStartResult (CanBus.refusedResult state) ≠ .ok := by
  cases state <;> decide

/-- A runtime that has nothing does nothing to the bus until it starts it again. -/
theorem Refusal.Stage.step_left (outside : pc.cleanup.any (·.2.inSource) = false)
    (read : r.read = some .running) (never : r.stops = 0) (free : sh.sourceStarted = false)
    (source : CallPc.SourceStep answers sh pc sh' control) (back : pc.inSource = false) :
    r.Left sh' ∧ ∀ pc' ∈ control.live, r.Stage sh' (none : Option (Call w)) pc' := by
  have stays {sh'' : VehicleTelemetry.Shared} (same : sh''.sourceStarted = sh.sourceStarted)
      (next : ∀ pc' ∈ control.live, pc'.inSource = false) :
      r.Left sh'' ∧ ∀ pc' ∈ control.live, r.Stage sh'' (none : Option (Call w)) pc' := by
    have left : r.Left sh'' := .elsewhere read never (same.trans free)
    exact ⟨left, fun pc' live => left.stage (next pc' live)⟩
  cases source with
  | beside silent same next => exact stays same.started next
  | asks =>
    refine ⟨.elsewhere read never free, fun pc' live => ?_⟩
    obtain rfl := List.mem_singleton.mp live
    exact .left rfl read never free
  | started ok => cases back
  | failed notOk owns => cases back
  | refused notOk owns => cases back
  | @cleans _ kind inner _ inside next =>
    cases inner with
    | call retry =>
      rw [inside] at outside
      cases outside
    | test =>
      obtain ⟨started, -, calls⟩ := kind.step_test sh answers.result
      cases control' : (kind.step sh answers.result .test).2 with
      | next inner' => exact absurd (free.symm.trans (calls inner' control').1) Bool.false_ne_true
      | ret value =>
        rw [control'] at next
        exact stays started next

/-- A step of an operation after a refusal. -/
theorem Refusal.Stage.runtime {platform : Platform} {caller : VehicleTelemetry.Caller} {fresh : ℕ}
    {running : List ℕ} (h : r.Stage sh current pc)
    (step : pc.step platform caller fresh running answers sh = some (sh', control))
    (unowned : pc = .start .startSource → sh.sourceStarted = false)
    (replied : pc.inSource = true →
      ∃ result, current = some (.returned result) ∧ answers.result = reply pc result) :
    (control.live = [] → r.Left sh') ∧
      ∀ pc' ∈ control.live, r.Stage sh' (none : Option (Call w)) pc' := by
  have source := CallPc.step_source step
  cases h with
  | refusing configuration unread never =>
    obtain ⟨result, absurd_, -⟩ := replied rfl
    cases absurd_
  | calling state result retry read live never =>
    obtain ⟨result, absurd_, -⟩ := replied rfl
    cases absurd_
  | stopped state read live called past =>
    exact ⟨fun _ => .stopped state read live called,
      fun pc' _ => .stopped state read live called (by simp)⟩
  | left outside read never free =>
    have back : pc.inSource = false := by
      refine eq_false_of_ne_true fun within => ?_
      obtain ⟨result, absurd_, -⟩ := replied within
      cases absurd_
    obtain ⟨left, stages⟩ := step_left (w := w) outside read never free source back
    exact ⟨fun _ => left, stages⟩
  | refused state read never =>
    have free := unowned rfl
    obtain ⟨result, same, answer⟩ := replied rfl
    obtain rfl := Call.returned.inj (Option.some.inj same)
    have answered : answers.result = mapStartResult (CanBus.refusedResult state) := answer
    cases source with
    | beside silent same next => cases silent
    | started ok => exact absurd (answered.symm.trans ok) (mapStartResult_refused state)
    | failed notOk owns =>
      rw [answered, startFailureMayOwn_refused] at owns
      refine ⟨by simp, fun pc' live => ?_⟩
      obtain rfl := List.mem_singleton.mp live
      exact .cleaning state answers.result read owns never rfl rfl rfl
    | refused notOk owns =>
      have ran : state = .running := by
        by_contra other
        rw [answered, (startFailureMayOwn_refused state).mpr other] at owns
        cases owns
      refine ⟨by simp, fun pc' live => ?_⟩
      obtain rfl := List.mem_singleton.mp live
      exact .left rfl (ran ▸ read) never free
    | cleans inside next => cases inside
  | cleaning state result read live never owner started attempts =>
    obtain ⟨rfl, rfl⟩ := Prod.mk.inj (Option.some.inj step)
    have calls : ∃ retry, (CleanupPc.test.stepPartialStart sh answers.result).2 =
        .next (.call retry) := by
      by_cases retries : sh.sourceStopRetrySupported = true ∧ sh.sourceStopCalled = true
      · exact ⟨true, by simp [CleanupPc.stepPartialStart, owner, started, attempts, retries]⟩
      · exact ⟨false, by simp [CleanupPc.stepPartialStart, owner, started, attempts, retries]⟩
    obtain ⟨retry, goes⟩ := calls
    rw [goes]
    refine ⟨by simp, fun pc' live' => ?_⟩
    obtain rfl := List.mem_singleton.mp live'
    exact .calling state result retry read live never

theorem Tracks.runtime {platform : Platform} {caller : VehicleTelemetry.Caller} {fresh : ℕ}
    {running : List ℕ} (h : Tracks sh m current pc)
    (step : pc.step platform caller fresh running answers sh = some (sh', control))
    (unowned : pc = .start .startSource → sh.sourceStarted = false)
    (replied : pc.inSource = true →
      ∃ result, current = some (.returned result) ∧ answers.result = reply pc result) :
    control.Settles CallPc.operating ((none : Option (Call w)) = none ∧ ∀ r ∈ m, r.Left sh')
      (Tracks sh' m (none : Option (Call w))) := by
  have stages (r : Refusal) (watched : r ∈ m) := (h.stage r watched).runtime step unowned replied
  refine .of_live (fun past => ⟨rfl, fun r watched => (stages r watched).1 past⟩)
    (fun pc' live => ⟨.idle, fun r watched => (stages r watched).2 pc' live⟩) ?_
  exact fun pc' waiting tracks =>
    ⟨rfl, fun r watched => (tracks.stage r watched).left_of_waiting waiting⟩

/-- Outside the source the runtime has no call on the bus. -/
theorem Linked.none_of_outside (h : Linked current pc) (outside : pc.inSource = false) :
    current = none := by
  cases h with
  | idle => rfl
  | starting configuration inner => cases outside
  | stopping kind retry inside inner =>
    rw [CallPc.inSource_of_cleanup inside] at outside
    cases outside
  | returned within result => exact absurd (outside.symm.trans within) Bool.false_ne_true

theorem Linked.after {bus bus' : CanBus.Shared w} {inner : CanBus.CallPc w} {ok : Bool}
    {control : Control (CanBus.CallPc w) CanBus.Result} (h : Linked (some (.inside inner)) pc)
    (step : inner.step bus ok = some (bus', control)) : Linked (some (.after control)) pc := by
  cases h with
  | starting configuration inner =>
    obtain ⟨control, -, rfl⟩ := CanBus.CallPc.step_start step
    cases control with
    | next inner' => exact .starting configuration inner'
    | ret result => exact .returned rfl result
  | stopping kind retry inside inner =>
    obtain ⟨control, -, rfl⟩ := CanBus.CallPc.step_stop step
    cases control with
    | next inner' => exact .stopping kind retry inside inner'
    | ret result => exact .returned (CallPc.inSource_of_cleanup inside) result

end Steps

/-! ### Runs -/

namespace System

/-- What holds in every run, beside what is watched. -/
def Tracked (s : System w) (m : Option Refusal) : Prop :=
  Held (fun p : VehicleTelemetry.Caller × CallPc => p.2.operating)
    (s.call = none ∧ ∀ r ∈ m, r.Left s.runtime.shared)
    (fun p => Tracks s.runtime.shared m s.call p.2) s.runtime.calls

variable {platform : Platform} {configuration : CanBus.Configuration} {s t : System w}
  {m : Option Refusal}

theorem tracked_coupling (m : Option Refusal) :
    Coupling (fun sh => ∀ r ∈ m, r.Left sh) (fun sh => Tracks (w := w) sh m) where
  rest_same same left r watched := (left r watched).of_same same
  fact_same same tracks :=
    ⟨tracks.linked, fun r watched => (tracks.stage r watched).of_same same⟩
  outside outside left := ⟨.idle, fun r watched => (left r watched).stage outside⟩
  idle outside tracks := tracks.linked.none_of_outside outside

theorem Tracked.coupled (h : s.Tracked m) :
    s.Coupled (fun sh => ∀ r ∈ m, r.Left sh) fun sh => Tracks sh m := h

theorem Tracked.runtime (h : s.Tracked m) (governed : s.runtime.Governed platform)
    {k : VehicleTelemetry.Choice}
    (step : s.next platform configuration (.runtime k) = some t) : t.Tracked m := by
  refine h.coupled.runtime (tracked_coupling m) governed ?_ step
  intro i caller pc answers shared control answered found inside tracks
  refine tracks.runtime inside ?_ (answered_inSource answered found)
  rintro rfl
  exact (governed.fact (List.mem_of_getElem? found) rfl (by simp)).2.2.started

/-- A start() that finds another user's acquisition changes nothing and is refused. -/
theorem step_refuses {inner : CanBus.CallPc w} {bus : CanBus.Shared w} {ok : Bool}
    {control : Control (CanBus.CallPc w) CanBus.Result} (current : s.call = some (.inside inner))
    (refuses : s.refuses = true) (step : inner.step s.bus.shared ok = some (bus, control)) :
    bus = s.bus.shared ∧ ∃ configuration, inner = .start configuration .beginStart ∧
      control = .next (.start configuration .refused) := by
  simp only [System.refuses, current] at refuses
  split at refuses
  · rename_i configuration same
    obtain rfl := Call.inside.inj (Option.some.inj same)
    obtain ⟨valid, live⟩ := (Bool.and_eq_true _ _).mp refuses
    have live : s.bus.shared.lifecycle.state ≠ .stopped := of_decide_eq_true live
    obtain ⟨inner, inside, rfl⟩ := CanBus.CallPc.step_start step
    simp only [CanBus.StartPc.step, valid, Bool.not_true, Bool.false_eq_true, if_false,
      CanBus.LifecycleController.beginStart, if_neg live] at inside
    obtain ⟨rfl, rfl⟩ := Prod.mk.inj (Option.some.inj inside)
    exact ⟨rfl, configuration, rfl, rfl⟩
  · cases refuses

theorem step_reads {inner : CanBus.CallPc w} {bus : CanBus.Shared w} {ok : Bool}
    {control : Control (CanBus.CallPc w) CanBus.Result} (current : s.call = some (.inside inner))
    (reads : s.reads = true) (step : inner.step s.bus.shared ok = some (bus, control)) :
    bus = s.bus.shared ∧ (∃ configuration, inner = .start configuration .refused) ∧
      control = .ret (CanBus.refusedResult s.bus.shared.lifecycle.state) := by
  simp only [System.reads, current] at reads
  split at reads
  · rename_i configuration same
    obtain rfl := Call.inside.inj (Option.some.inj same)
    obtain ⟨inner, inside, rfl⟩ := CanBus.CallPc.step_start step
    obtain ⟨rfl, rfl⟩ := Prod.mk.inj (Option.some.inj inside)
    exact ⟨rfl, ⟨configuration, rfl⟩, rfl⟩
  · cases reads

theorem Tracked.inside (h : s.Tracked m) {ok : Bool}
    (step : s.next platform configuration (.call ok) = some t) :
    t.Tracked (s.watch (.call ok) m) := by
  obtain ⟨inner, shared, control, current, inside, rfl⟩ := next_call step
  refine Held.mono h ?_ ?_
  · rintro ⟨free, -⟩
    exact absurd (free.symm.trans current) (by simp)
  · intro p _ _ tracks
    rw [current] at tracks
    show Tracks s.runtime.shared (s.watch (.call ok) m) (some (.after control)) p.2
    refine ⟨tracks.linked.after inside, ?_⟩
    obtain ⟨caller, pc⟩ := p
    have linked := tracks.linked
    simp only [watch]
    split_ifs with refuses reads
    · obtain ⟨-, configuration, rfl, rfl⟩ := step_refuses current refuses inside
      intro r fresh
      obtain rfl := Option.some.inj fresh
      cases linked with
      | starting => exact .refusing configuration rfl rfl
    · obtain ⟨-, ⟨configuration, rfl⟩, rfl⟩ := step_reads current reads inside
      intro r watched
      obtain ⟨before, member, rfl⟩ := Option.map_eq_some_iff.mp watched
      cases tracks.stage before member with
      | refusing _ unread never => exact .refused _ rfl never
      | stopped state read live called past => exact absurd rfl (past configuration .refused)
    · intro r watched
      cases tracks.stage r watched with
      | refusing configuration unread never => simp [System.reads, current] at reads
      | stopped state read live called past =>
        refine .stopped state read live called ?_
        cases linked with
        | starting configuration inner => exact absurd rfl (past configuration inner)
        | stopping kind retry within inner =>
          obtain ⟨control, -, rfl⟩ := CanBus.CallPc.step_stop inside
          cases control <;> simp [Call.after]

theorem Tracked.enter (h : s.Tracked m) {i : ℕ}
    (step : s.next platform configuration (.enter i) = some t) :
    t.Tracked (s.watch (.enter i) m) := by
  obtain ⟨free, caller, pc, inner, found, entry, rfl⟩ := next_enter step
  have within : pc.inSource = true := by
    rcases request_eq_some entry with ⟨rfl, -⟩ | ⟨⟨kind, retry, inside⟩, -⟩
    · rfl
    · exact CallPc.inSource_of_cleanup inside
  refine Held.update h found (CallPc.operating_of_inSource within) fun tracks => ?_
  rw [free] at tracks
  show Tracks s.runtime.shared (s.watch (.enter i) m) (some (.inside inner)) pc
  rcases request_eq_some entry with ⟨rfl, rfl⟩ | ⟨⟨kind, retry, inside⟩, rfl⟩
  · refine ⟨.starting configuration .beginStart, ?_⟩
    simp [watch, found]
  · have elsewhere : pc ≠ .start .startSource := by
      rintro rfl
      cases inside
    refine ⟨.stopping kind retry inside (.begin .load), ?_⟩
    have counted : s.watch (.enter i) m = m.map fun r => { r with stops := r.stops + 1 } := by
      simp [watch, found, elsewhere]
    rw [counted]
    intro r watched
    obtain ⟨before, member, rfl⟩ := Option.map_eq_some_iff.mp watched
    have calls : pc.cleanup.any (·.2.inSource) = true := by
      rw [inside]
      rfl
    cases tracks.stage before member with
    | left outside read never free' => exact absurd (outside.symm.trans calls) Bool.false_ne_true
    | cleaning => cases inside
    | calling state result retry' read live never =>
      exact .stopped state read live (Nat.succ_pos _) (by simp)
    | stopped state read live called past =>
      exact .stopped state read live (Nat.succ_pos _) (by simp)

theorem Tracked.next (h : s.Tracked m) (governed : s.runtime.Governed platform) {k : Choice}
    (step : s.next platform configuration k = some t) : t.Tracked (s.watch k m) := by
  cases k with
  | runtime k => exact h.runtime governed step
  | enter i => exact h.enter step
  | call ok => exact h.inside step
  | bus k =>
    obtain ⟨bus, -, rfl⟩ := next_bus step
    exact h

theorem tracked_of_run {ks : List Choice}
    (run : exec (watched (next platform configuration) watch) (({} : System w), none) ks =
      some (s, m)) : s.runtime.Governed platform ∧ s.Tracked m := by
  refine exec_invariant
    (P := fun p : System w × Option Refusal => p.1.runtime.Governed platform ∧ p.1.Tracked p.2)
    ?_ run ⟨.initial platform, .start ⟨rfl, by simp⟩⟩
  rintro p k q ⟨governed, tracked⟩ step
  obtain ⟨step, seen⟩ := watched_eq_some.mp step
  rw [seen]
  exact ⟨next_governed governed step, tracked.next governed step⟩

/-- A step of a call on the bus that is about to be refused, or that reports it, leaves the
bus as it is. -/
theorem next_beside {ok : Bool} (step : s.next platform configuration (.call ok) = some t)
    (beside : s.refuses = true ∨ s.reads = true) : t.bus = s.bus := by
  obtain ⟨inner, shared, control, current, inside, rfl⟩ := next_call step
  have nothing : shared = s.bus.shared ∧ inner.created ok = [] := by
    rcases beside with refuses | reads
    · obtain ⟨rfl, configuration, rfl, -⟩ := step_refuses current refuses inside
      exact ⟨rfl, rfl⟩
    · obtain ⟨rfl, ⟨configuration, rfl⟩, -⟩ := step_reads current reads inside
      exact ⟨rfl, rfl⟩
  obtain ⟨rfl, created⟩ := nothing
  simp [created]

theorem Tracked.beside (h : s.Tracked m) {k : Choice}
    (step : s.next platform configuration k = some t) (own : k.own = true) {r : Refusal}
    (watched : s.watch k m = some r) (elsewhere : r.elsewhere = true) : t.bus = s.bus := by
  cases k with
  | runtime k =>
    obtain ⟨-, runtime, -, rfl⟩ := next_runtime step
    rfl
  | enter i =>
    obtain ⟨-, caller, pc, inner, -, -, rfl⟩ := next_enter step
    rfl
  | bus k => cases own
  | call ok =>
    by_cases beside : s.refuses = true ∨ s.reads = true
    · exact next_beside step beside
    · obtain ⟨refuses, reads⟩ := not_or.mp beside
      obtain ⟨inner, shared, control, current, -, -⟩ := next_call step
      obtain ⟨⟨caller, pc⟩, member, tracks⟩ := h.coupled.holder current
      simp only [watch, refuses, reads, Bool.false_eq_true, if_false] at watched
      -- A call that neither is refused nor reads is a stop(), and the runtime has read
      -- something else than Running before it.
      cases tracks.stage r watched with
      | refusing configuration unread never => simp [System.reads, current] at reads
      | stopped state read live called past =>
        simp [Refusal.elsewhere, read, live] at elsewhere

theorem Tracked.stops_iff (h : s.Tracked m) (governed : s.runtime.Governed platform) {r : Refusal}
    (watched : r ∈ m) (inactive : s.runtime.shared.lifecycleOperationActive = false) :
    r.stops = 0 ↔ r.read = some .running := by
  rcases governed.between h inactive with ⟨-, left⟩ | ⟨-, destroyer, tracks⟩
  · exact (left r watched).stops_iff
  · have stage := tracks.stage r watched
    generalize s.call = current at stage
    cases stage with
    | left outside read never free => exact iff_of_true never read
    | stopped state read live called past =>
      have left : r.Left s.runtime.shared := .stopped state read live called
      exact left.stops_iff

/-- Whoever else uses the bus, and whenever: as long as the latest refusal of the runtime's
start() has read no other state than Running, no step of the runtime touches the bus, be it in
start(), in stop() or in the destructor. Once that start() is over, the runtime has called
stop() of the bus unless the state was Running. -/
theorem refused_start_leaves_bus {ks : List Choice}
    (run : exec (watched (next platform configuration) watch) (({} : System w), none) ks =
      some (s, m)) :
    (∀ k t r, k.own = true → s.next platform configuration k = some t → s.watch k m = some r →
      r.elsewhere = true → t.bus = s.bus) ∧
      ∀ r ∈ m, s.runtime.shared.lifecycleOperationActive = false →
        (r.stops = 0 ↔ r.read = some .running) := by
  obtain ⟨governed, tracked⟩ := tracked_of_run run
  refine ⟨fun k t r own step watched elsewhere => ?_, fun r watched inactive => ?_⟩
  · exact tracked.beside step own watched elsewhere
  · exact tracked.stops_iff governed watched inactive

/-- Another user starts the bus. -/
def othersStart : List Choice :=
  .bus (.beginStart {}) :: List.replicate 36 (.bus (.call 0 true))

/-- The driver fails the other user's receive task, which latches the fault and ends. -/
def taskFails : List Choice :=
  [.bus (.task 0 {}), .bus (.task 0 { received := .failed })] ++
    List.replicate 7 (.bus (.task 0 {}))

/-- The runtime's start() up to the return of the bus. -/
def refusedRun : List Choice :=
  [.runtime (.begin none .start)] ++ operates 3 { retrySupported := true } ++ [.enter 0] ++
    List.replicate 2 (.call true)

/-- A start() of the runtime on the other user's bus has returned. -/
def refused : System 8 × Option Refusal :=
  final (watched (System.next .host {}) watch) ({}, none)
    (othersStart ++ refusedRun ++ operates 1 { result := .alreadyRunning } ++ operates 2 {})

theorem refused_start_leaves_running_bus :
    refused.2 = some { read := some .running } ∧
      refused.1.bus.shared.lifecycle.state = .running ∧
      ∀ k t, k.own = true → refused.1.next .host {} k = some t →
        refused.1.watch k refused.2 = some { read := some .running } →
          t.bus = refused.1.bus := by
  have run := exec_eq_final (watched (System.next .host {}) watch) (({} : System 8), none)
    (othersStart ++ refusedRun ++ operates 1 { result := .alreadyRunning } ++ operates 2 {})
    (by decide)
  obtain ⟨beside, -⟩ := refused_start_leaves_bus (m := refused.2) run
  exact ⟨by decide, by decide, fun k t own step watched => beside k t _ own step watched rfl⟩

/-- The bus of another user after its receive task has failed. -/
def failed : System 8 := final (System.next .host {}) {} (othersStart ++ taskFails)

/-- The runtime's start() on that bus, up to its return. -/
def cleaningRun : List Choice :=
  refusedRun ++ operates 1 { result := .faulted } ++ operates 1 {} ++ [.enter 0] ++
    List.replicate 16 (.call true) ++ operates 4 {}

def cleaned : System 8 × Option Refusal :=
  final (watched (System.next .host {}) watch) (failed, none) cleaningRun

/-- A refusal that reads Faulted: the runtime uninstalls the driver that another user has
installed. -/
theorem refused_start_stops_bus :
    exec (System.next .host {}) {} (othersStart ++ taskFails) = some failed ∧
      exec (watched (System.next .host {}) watch) (failed, none) cleaningRun = some cleaned ∧
      cleaningRun.all Choice.own = true ∧
      cleaned.2 = some { read := some .faulted, stops := 1 } ∧
      failed.bus.shared.lifecycle =
        { state := .faulted, driverInstalled := true, driverStarted := true } ∧
      failed.bus.shared.driver = .running ∧
      cleaned.1.runtime.calls = [] ∧ cleaned.1.bus.shared.lifecycle = {} ∧
      cleaned.1.bus.shared.driver = .uninstalled := by
  refine ⟨exec_eq_final _ _ _ (by decide), exec_eq_final _ _ _ (by decide), ?_, ?_, ?_, ?_, ?_, ?_,
    ?_⟩ <;> decide

end System

end CanTelemetry.CanBusSource
