import CanTelemetry.CanBus.RingEffort
import CanTelemetry.CanBus.StartedOnce
import CanTelemetry.CanBus.Cancellation

/-! start() and stop() end. Of the loops they run through, those that drain a semaphore have its
tokens to lose, and nobody gives one back; `begin_stop` starts over at most once, since the
fault that the task latches is the last thing that changes the state; and the ring is
cleared while nobody else moves its tail. -/

namespace CanTelemetry.CanBus

open Execution RingIndex Threads

variable {w : ℕ}

/-! ### The lifecycle controller -/

/-- A state other than Faulted may still become Faulted under a call. -/
def LifecycleState.unlatched (state : LifecycleState) : ℕ := if state = .faulted then 0 else 1

def BeginStopPc.left (state : LifecycleState) : BeginStopPc → ℕ
  | .load => state.unlatched + 2
  | .exchange current _ => state.unlatched + if current = state then 1 else 2

def BeginStopPc.exchanges : BeginStopPc → Bool
  | .load => false
  | .exchange _ _ => true

theorem BeginStopPc.left_le (state : LifecycleState) (pc : BeginStopPc) : pc.left state ≤ 3 := by
  have most : state.unlatched ≤ 1 := by
    unfold LifecycleState.unlatched
    split <;> omega
  cases pc with
  | load =>
    simp only [left]
    omega
  | exchange current live =>
    simp only [left]
    split <;> omega

theorem BeginStopPc.spends (c : LifecycleController) (cas : Bool) (pc : BeginStopPc) :
    1 + ((pc.step c cas).2.live.map (left (pc.step c cas).1.state)).sum ≤
      pc.left c.state + missed pc.exchanges cas := by
  have tested : ((test c.state).live.map (left c.state)).sum ≤ c.state.unlatched + 1 := by
    cases state : c.state <;> simp [test, left]
  cases pc with
  | load =>
    simp only [step, left]
    omega
  | exchange current live =>
    by_cases won : cas = true ∧ c.state = current
    · simp only [step, if_pos won, Control.live_ret, List.map_nil, List.sum_nil, left]
      split <;> omega
    · simp only [step, if_neg won, left, missed, exchanges, Bool.true_and]
      by_cases same : current = c.state
      · have lost : cas = false := by simpa [same] using won
        simp only [if_pos same, lost, Bool.not_false, if_true]
        omega
      · rw [if_neg same]
        omega

/-- The latch of a fault makes `begin_stop` start over, but this happens once. -/
theorem BeginStopPc.disturbed {state state' : LifecycleState}
    (latched : state' = state ∨ state' = .faulted) (pc : BeginStopPc) :
    pc.left state' ≤ pc.left state := by
  rcases latched with rfl | rfl
  · exact Nat.le_refl _
  · cases pc with
    | load => exact Nat.add_le_add_right (Nat.zero_le _) 2
    | exchange current live =>
      by_cases faulted : state = .faulted
      · rw [faulted]
      · simp only [left, LifecycleState.unlatched, if_true, if_neg faulted]
        split <;> split <;> omega

def AbortPc.left : AbortPc → ℕ
  | .loadInstalled => 3
  | .loadOwned => 2
  | .storeStopped => 1

theorem AbortPc.spends (c : LifecycleController) (pc : AbortPc) :
    1 + ((pc.step c).2.live.map left).sum ≤ pc.left := by
  cases pc with
  | loadInstalled | loadOwned =>
    simp only [step]
    split <;> simp [left]
  | storeStopped => simp [step, left]

def ReconcilePc.left : ReconcilePc → ℕ
  | .loadOwned => 3
  | .loadInstalled => 2
  | .store _ => 1

theorem ReconcilePc.spends (c : LifecycleController) (pc : ReconcilePc) :
    1 + ((pc.step c).2.live.map left).sum ≤ pc.left := by
  cases pc with
  | loadOwned =>
    simp only [step, Control.live_next, List.map_cons, List.map_nil, List.sum_singleton]
    split <;> simp [left]
  | _ => simp [step, left]

/-! ### start() and stop() -/

theorem Shared.tokens_le (sh : Shared w) : sh.tokens ≤ queueCapacity := by
  unfold tokens
  cases sh.available with
  | none => exact Nat.zero_le _
  | some s => exact s.within

theorem Shared.stoppedTokens_le (sh : Shared w) : sh.stoppedTokens ≤ 1 := by
  unfold stoppedTokens
  cases sh.taskStopped with
  | none => exact Nat.zero_le _
  | some s => exact s.within

def StopPc.left (sh : Shared w) : StopPc → ℕ
  | .drainAvailable => sh.tokens + 1
  | .reconcile pc _ _ _ => pc.left + (queueCapacity + 1)
  | .markUninstalled => queueCapacity + 5
  | .driverUninstall => queueCapacity + 6
  | .loadInstalled _ _ => queueCapacity + 7
  | .acknowledge _ | .dropToken _ => queueCapacity + 8
  | .awaitTask _ => queueCapacity + 9
  | .loadOwned _ => queueCapacity + 10
  | .markStopped => queueCapacity + 11
  | .driverStop => queueCapacity + 12
  | .loadStarted => queueCapacity + 13
  | .unrequest => queueCapacity + 14
  | .begin pc => pc.left sh.lifecycle.state + (queueCapacity + 14)

def StopPc.exchanges : StopPc → Bool
  | .begin pc => pc.exchanges
  | _ => false

theorem StopPc.spends {sh sh' : Shared w} {ok : Bool} {pc : StopPc}
    {control : Control StopPc Result} (step : pc.step sh ok = some (sh', control)) :
    1 + (control.live.map (left sh')).sum ≤ pc.left sh + missed pc.exchanges ok := by
  cases pc with
  | begin pc =>
    obtain ⟨rfl, rfl⟩ := Prod.mk.inj (Option.some.inj step)
    exact spends_call (pc.spends sh.lifecycle ok) (fun _ => Nat.le_refl _)
      fun begun _ => by cases begun <;> simp [left]
  | reconcile pc driverStopped taskStopped driverUninstalled =>
    obtain ⟨rfl, rfl⟩ := Prod.mk.inj (Option.some.inj step)
    have least : ({ sh with lifecycle := (pc.step sh.lifecycle).1 } : Shared w).tokens ≤
        queueCapacity := sh.tokens_le
    exact spends_call ((pc.spends sh.lifecycle).trans (Nat.le_add_right _ _))
      (fun _ => Nat.le_refl _) fun _ _ => by split <;> simp [left, least]
  | loadStarted | loadOwned driverStopped | loadInstalled driverStopped taskStopped =>
    obtain ⟨rfl, rfl⟩ := Prod.mk.inj (Option.some.inj step)
    refine spends_next ?_
    split <;> simp only [left, ReconcilePc.left] <;> omega
  | driverStop | driverUninstall =>
    cases ok <;> obtain ⟨rfl, rfl⟩ := Prod.mk.inj (Option.some.inj step) <;>
      exact spends_next (by simp only [left, ReconcilePc.left]; omega)
  | awaitTask driverStopped =>
    rcases takeWithin_eq_some step with ⟨s, s', -, -, -, same⟩ | ⟨-, same⟩ <;>
      obtain ⟨rfl, rfl⟩ := Prod.mk.inj same <;> exact spends_next (by simp only [left]; omega)
  | dropToken driverStopped =>
    rcases takeNow_eq_some step with ⟨s, s', -, -, same⟩ | ⟨s, -, -, same⟩ <;>
      obtain ⟨rfl, rfl⟩ := Prod.mk.inj same <;> exact spends_next (by simp only [left]; omega)
  | drainAvailable =>
    have ended : 1 + ((Control.ret .ok : Control StopPc Result).live.map (left sh)).sum ≤
        drainAvailable.left sh + missed drainAvailable.exchanges ok := by
      simp only [left, Control.live_ret, List.map_nil, List.sum_nil]
      omega
    simp only [StopPc.step] at step
    split at step
    · obtain ⟨rfl, rfl⟩ := Prod.mk.inj (Option.some.inj step)
      exact ended
    · rcases takeNow_eq_some step with ⟨s, s', held, taken, same⟩ | ⟨s, -, -, same⟩ <;>
        obtain ⟨rfl, rfl⟩ := Prod.mk.inj same
      · have fewer := Semaphore.take?_eq_some.mp taken
        exact spends_next (by simp [left, Shared.tokens, held, fewer])
      · exact ended
  | _ =>
    obtain ⟨rfl, rfl⟩ := Prod.mk.inj (Option.some.inj step)
    exact spends_next (by simp only [left, ReconcilePc.left]; omega)

/-- The tokens that somebody gives while a stop() drains them. -/
def StopPc.refill (sh sh' : Shared w) : StopPc → ℕ
  | .drainAvailable => sh'.tokens - sh.tokens
  | _ => 0

theorem StopPc.disturbed {sh sh' : Shared w}
    (latched : sh'.lifecycle.state = sh.lifecycle.state ∨ sh'.lifecycle.state = .faulted)
    (pc : StopPc) : pc.left sh' ≤ pc.left sh + pc.refill sh sh' := by
  cases pc with
  | begin pc => exact Nat.add_le_add_right (pc.disturbed latched) _
  | drainAvailable =>
    simp only [left, refill]
    omega
  | _ => exact Nat.le_refl _

def StartPc.left (sh : Shared w) : StartPc w → ℕ
  | .refused | .setStartedBefore => 1
  | .abort pc _ => pc.left
  | .reconcile pc _ => pc.left
  | .markUninstalled _ => 4
  | .driverUninstall _ => 5
  | .markStopped => 6
  | .driverStop => 7
  | .beginStop pc => pc.left sh.lifecycle.state + 7
  | .disown => 11
  | .unrequest => 12
  | .createTask => 13
  | .markTask => 14
  | .request => 15
  | .resetLastCounters => 16
  | .recordReset => 17
  | .setBusId => 18
  | .clear pc => pc.left sh.frames + 18
  | .markStarted => 40
  | .driverStart => 41
  | .markInstalled => 42
  | .driverInstall => 43
  | .drainTaskStopped => sh.stoppedTokens + 44
  | .drainAvailable => sh.tokens + 46
  | .createTaskStopped => queueCapacity + 47
  | .createAvailable => queueCapacity + 48
  | .beginStart => queueCapacity + 49

def StartPc.exchanges : StartPc w → Bool
  | .clear pc => pc.exchanges
  | .beginStop pc => pc.exchanges
  | _ => false

theorem StartPc.left_afterCreation (sh : Shared w) :
    sh.afterCreation.left sh ≤ queueCapacity + 46 := by
  have most := sh.tokens_le
  unfold Shared.afterCreation
  split <;> simp only [left, AbortPc.left] <;> omega

theorem StartPc.spends {configuration : Configuration} {sh sh' : Shared w} {ok : Bool}
    {pc : StartPc w} {control : Control (StartPc w) Result}
    (empty : ∀ inner, pc = .clear (.snapshot inner) → sh.frames.head = sh.frames.tail)
    (step : pc.step configuration sh ok = some (sh', control)) :
    1 + (control.live.map (left sh')).sum ≤ pc.left sh + missed pc.exchanges ok := by
  cases pc with
  | beginStart =>
    simp only [StartPc.step] at step
    split at step <;> obtain ⟨rfl, rfl⟩ := Prod.mk.inj (Option.some.inj step)
    · simp only [left, Control.live_ret, List.map_nil, List.sum_nil]
      omega
    · refine spends_next ?_
      split <;> simp only [left] <;> omega
  | refused | setStartedBefore =>
    obtain ⟨rfl, rfl⟩ := Prod.mk.inj (Option.some.inj step)
    simp [left]
  | createTaskStopped =>
    obtain ⟨rfl, rfl⟩ := Prod.mk.inj (Option.some.inj step)
    exact spends_next (Nat.lt_succ_of_le (left_afterCreation _))
  | abort pc result =>
    obtain ⟨rfl, rfl⟩ := Prod.mk.inj (Option.some.inj step)
    exact spends_call (n := 0) ((pc.spends sh.lifecycle).trans (Nat.le_add_right _ _))
      (fun _ => Nat.le_refl _) fun _ _ => by simp
  | drainAvailable =>
    have most := sh.stoppedTokens_le
    rcases takeNow_eq_some step with ⟨s, s', held, taken, same⟩ | ⟨s, -, -, same⟩ <;>
      obtain ⟨rfl, rfl⟩ := Prod.mk.inj same
    · have fewer := Semaphore.take?_eq_some.mp taken
      exact spends_next (by simp [left, Shared.tokens, held, fewer])
    · exact spends_next (by simp only [left]; omega)
  | drainTaskStopped =>
    rcases takeNow_eq_some step with ⟨s, s', held, taken, same⟩ | ⟨s, -, -, same⟩ <;>
      obtain ⟨rfl, rfl⟩ := Prod.mk.inj same
    · have fewer := Semaphore.take?_eq_some.mp taken
      exact spends_next (by simp [left, Shared.stoppedTokens, held, fewer])
    · exact spends_next (by simp only [left]; omega)
  | createTask =>
    obtain ⟨rfl, rfl⟩ := Prod.mk.inj (Option.some.inj step)
    refine spends_next ?_
    cases ok <;> simp [left]
  | driverInstall | driverStart | driverStop | driverUninstall =>
    cases ok <;> obtain ⟨rfl, rfl⟩ := Prod.mk.inj (Option.some.inj step) <;>
      exact spends_next (by simp only [left, AbortPc.left, ReconcilePc.left]; omega)
  | clear pc =>
    obtain ⟨rfl, rfl⟩ := Prod.mk.inj (Option.some.inj step)
    have fits (inner) (at_snapshot : pc = .snapshot inner) :
        distance sh.frames.head sh.frames.tail ≤ queueCapacity := by
      rw [distance_eq_zero.mpr (empty inner (congrArg _ at_snapshot))]
      exact Nat.zero_le _
    exact spends_call (ClearPc.spends fits ok) (fun _ => Nat.le_refl _) fun _ _ => by simp [left]
  | beginStop pc =>
    obtain ⟨rfl, rfl⟩ := Prod.mk.inj (Option.some.inj step)
    exact spends_call (pc.spends sh.lifecycle ok) (fun _ => Nat.le_refl _)
      fun _ _ => by simp [left]
  | reconcile pc result =>
    obtain ⟨rfl, rfl⟩ := Prod.mk.inj (Option.some.inj step)
    exact spends_call (n := 0) ((pc.spends sh.lifecycle).trans (Nat.le_add_right _ _))
      (fun _ => Nat.le_refl _) fun _ _ => by simp
  | disown =>
    obtain ⟨rfl, rfl⟩ := Prod.mk.inj (Option.some.inj step)
    have most := BeginStopPc.load.left_le sh.lifecycle.state
    exact spends_next (by simp only [left, LifecycleController.acknowledgeTask]; omega)
  | _ =>
    obtain ⟨rfl, rfl⟩ := Prod.mk.inj (Option.some.inj step)
    exact spends_next (by simp only [left, ClearPc.left, ReconcilePc.left]; omega)

/-- What the other threads can do to a start(): they may give a late acknowledgement while it
drains these, and change the watermark while it clears the ring. -/
def StartPc.disturbance (sh sh' : Shared w) : StartPc w → ℕ
  | .drainTaskStopped => sh'.stoppedTokens - sh.stoppedTokens
  | .clear _ => changed sh.frames.queueHighWatermark sh'.frames.queueHighWatermark 1
  | _ => 0

theorem StartPc.disturbed {sh sh' : Shared w}
    (latched : sh'.lifecycle.state = sh.lifecycle.state ∨ sh'.lifecycle.state = .faulted)
    {pc : StartPc w}
    (drained : pc = .drainAvailable → sh'.tokens ≤ sh.tokens)
    (tail : ∀ inner, pc = .clear inner → sh'.frames.tail = sh.frames.tail) :
    pc.left sh' ≤ pc.left sh + pc.disturbance sh sh' := by
  cases pc with
  | beginStop pc => exact Nat.add_le_add_right (pc.disturbed latched) _
  | drainAvailable => exact Nat.add_le_add_right (drained rfl) 46
  | drainTaskStopped =>
    simp only [left, disturbance]
    omega
  | clear pc =>
    have inner := pc.disturbed sh.frames sh'.frames
    rw [tail pc rfl, changed_self] at inner
    simp only [left, disturbance]
    omega
  | _ => exact Nat.le_add_right _ _

namespace CallPc

def left (sh : Shared w) : CallPc w → ℕ
  | .start _ pc => pc.left sh
  | .stop pc => pc.left sh

def exchanges : CallPc w → Bool
  | .start _ pc => pc.exchanges
  | .stop pc => pc.exchanges

def disturbance (sh sh' : Shared w) : CallPc w → ℕ
  | .start _ pc => pc.disturbance sh sh'
  | .stop _ => 0

theorem spends {sh sh' : Shared w} {ok : Bool} {pc : CallPc w} {control : Control (CallPc w) Result}
    (empty : ∀ c inner, pc = .start c (.clear (.snapshot inner)) →
      sh.frames.head = sh.frames.tail)
    (step : pc.step sh ok = some (sh', control)) :
    1 + (control.live.map (left sh')).sum ≤ pc.left sh + missed pc.exchanges ok := by
  cases pc with
  | start c pc =>
    obtain ⟨inner, inside, rfl⟩ := CallPc.step_start step
    have spent := StartPc.spends (fun clear at_pc => empty c clear (by rw [at_pc])) inside
    cases inner <;> simpa [left, exchanges] using spent
  | stop pc =>
    obtain ⟨inner, inside, rfl⟩ := CallPc.step_stop step
    have spent := StopPc.spends inside
    cases inner <;> simpa [left, exchanges] using spent

theorem disturbed {sh sh' : Shared w}
    (latched : sh'.lifecycle.state = sh.lifecycle.state ∨ sh'.lifecycle.state = .faulted)
    {pc : CallPc w} (drained : pc.draining = true → sh'.tokens ≤ sh.tokens)
    (tail : pc.preparing = true → sh'.frames.tail = sh.frames.tail) :
    pc.left sh' ≤ pc.left sh + pc.disturbance sh sh' := by
  cases pc with
  | start c pc =>
    refine StartPc.disturbed latched ?_ ?_
    · rintro rfl
      exact drained rfl
    · rintro inner rfl
      exact tail rfl
  | stop pc =>
    have none : pc.refill sh sh' = 0 := by
      cases pc with
      | drainAvailable => exact Nat.sub_eq_zero_of_le (drained rfl)
      | _ => rfl
    have most := StopPc.disturbed latched pc
    rw [none] at most
    exact most

/-- Only the wait for the acknowledgement depends on anybody else, and it has an end. -/
theorem goes_on {sh : Shared w} {pc : CallPc w} (supplied : pc.Supplied sh) {ok : Bool}
    (granted : (pc.awaits && ok) = false) : (pc.step sh ok).isSome = true := by
  cases pc with
  | start c pc =>
    rw [step, Option.isSome_map]
    cases pc with
    | beginStart =>
      simp only [StartPc.step]
      split <;> rfl
    | drainAvailable =>
      rw [StartPc.step, takeNow, Option.isSome_map]
      exact (supplied.used rfl).1
    | drainTaskStopped =>
      rw [StartPc.step, takeNow, Option.isSome_map]
      exact (supplied.used rfl).2
    | driverInstall | driverStart | driverStop | driverUninstall => cases ok <;> rfl
    | _ => rfl
  | stop pc =>
    rw [step, Option.isSome_map]
    cases pc with
    | driverStop | driverUninstall => cases ok <;> rfl
    | awaitTask driverStopped =>
      obtain rfl : ok = false := granted
      obtain ⟨s, given⟩ := Option.isSome_iff_exists.mp (supplied.used rfl).2
      simp [StopPc.step, takeWithin, given]
    | dropToken driverStopped =>
      rw [StopPc.step, takeNow, Option.isSome_map]
      exact (supplied.used rfl).2
    | drainAvailable =>
      simp only [StopPc.step]
      split
      · rfl
      · rename_i s given
        rw [takeNow, given]
        rfl
    | _ => rfl

end CallPc

/-! ### The system -/

namespace System

variable {s t : System w} {k : Choice} {ks before : List Choice}

def callsLeft (s : System w) : ℕ := (s.calls.map (CallPc.left s.shared)).sum

/-- The steps of start() and stop(). -/
def callSteps (_ : System w) : Choice → ℕ
  | .call _ _ => 1
  | _ => 0

/-- What a call has to go when nobody gets in its way. -/
def callBudget (_ : System w) : Choice → ℕ
  | .beginStart _ => queueCapacity + 49
  | .beginStop => queueCapacity + 17
  | _ => 0

/-- The weak exchanges of the calls that fail. -/
def callMissed (s : System w) : Choice → ℕ
  | .call i ok => (s.calls[i]?.map fun pc => missed pc.exchanges ok).getD 0
  | _ => 0

/-- What the step of another thread costs the call in progress. -/
def callDisturbed (s : System w) : Choice → ℕ
  | .call _ _ => 0
  | k => ((s.next k).map fun t => (s.calls.map (CallPc.disturbance s.shared t.shared)).sum).getD 0

/-- A call is undisturbed while no task is live and no receive() in progress. -/
theorem next_idle (step : s.next k = some t) (idle : s.liveTasks = 0)
    (other : ∀ i ok, k ≠ .call i ok) :
    t.shared.tokens ≤ s.shared.tokens ∧
      (s.consumer = none → t.shared.frames.tail = s.shared.frames.tail) := by
  cases k with
  | call i ok => exact absurd rfl (other i ok)
  | beginStart c =>
    obtain rfl := Option.some.inj step
    exact ⟨le_rfl, fun _ => rfl⟩
  | beginStop =>
    obtain rfl := Option.some.inj step
    exact ⟨le_rfl, fun _ => rfl⟩
  | task i env =>
    obtain ⟨pc, shared, control, found, hstep, rfl⟩ := next_task step
    obtain ⟨dead, -⟩ := TaskPc.step_among_dead idle found hstep
    obtain ⟨frames, available, -, -, -, -⟩ := TaskPc.step_dead dead hstep
    refine ⟨?_, fun _ => congrArg FrameRing.tail frames⟩
    show shared.tokens ≤ s.shared.tokens
    rw [Shared.tokens, Shared.tokens, available]
  | beginReceive timeoutMs =>
    obtain ⟨-, step⟩ := Option.ite_none_right_eq_some.mp step
    obtain rfl := Option.some.inj step
    exact ⟨le_rfl, fun _ => rfl⟩
  | consumer granted =>
    obtain ⟨pc, shared, control, found, hstep, rfl⟩ := next_consumer step
    have takes := ReceivePc.step_takes hstep
    refine ⟨?_, fun none => absurd (none.symm.trans found) (by simp)⟩
    show shared.tokens ≤ s.shared.tokens
    omega
  | beginStatistics | observer | busOff =>
    obtain ⟨frames, driver, observers, same, rfl⟩ := next_beside rfl step
    exact ⟨le_rfl, fun _ => same.tail⟩

/-- Where a call drains the tokens of the ring, no task is live. -/
theorem Apart.draining (h : s.Apart) {pc : CallPc w} (member : pc ∈ s.calls)
    (drains : pc.draining = true) : s.liveTasks = 0 := by
  cases pc with
  | start c pc =>
    cases pc with
    | drainAvailable => exact (h.preparing.alone c _ member rfl).2.1
    | _ => cases drains
  | stop pc =>
    cases pc with
    | drainAvailable =>
      obtain ⟨-, outline⟩ := h.exclusive.outlined.outline member
      have stopped : s.shared.lifecycle.state = .stopped := by
        by_contra active
        exact absurd ((outline.knows.active false rfl).mp active) (by simp)
      exact h.exclusive.none (h.exclusive.outlined.sound.stopped stopped).2.2
    | _ => cases drains

theorem serialized_of_apart (allowed : s.apart k = true) : s.serialized k = true := by
  simp only [apart, Bool.and_eq_true] at allowed
  exact allowed.1.1

theorem Apart.spends (h : s.Apart) (allowed : s.apart k = true) (step : s.next k = some t) :
    s.callSteps k + t.callsLeft ≤
      s.callsLeft + (s.callBudget k + s.callMissed k + s.callDisturbed k) := by
  have serial := serialized_of_apart allowed
  cases k with
  | beginStart c =>
    obtain rfl := Option.some.inj step
    have empty : s.calls = [] := List.isEmpty_iff.mp serial
    simp only [callSteps, callsLeft, callBudget, empty, List.nil_append, List.map_cons,
      List.map_nil, List.sum_singleton, List.sum_nil, CallPc.left, StartPc.left]
    omega
  | beginStop =>
    obtain rfl := Option.some.inj step
    have empty : s.calls = [] := List.isEmpty_iff.mp serial
    have most := BeginStopPc.load.left_le s.shared.lifecycle.state
    simp only [callSteps, callsLeft, callBudget, empty, List.nil_append, List.map_cons,
      List.map_nil, List.sum_singleton, List.sum_nil, CallPc.left, StopPc.left]
    omega
  | call i ok =>
    obtain ⟨pc, -, -, found, -, -⟩ := next_call step
    have member := List.mem_of_getElem? found
    obtain ⟨single, -⟩ := h.exclusive.outlined.outline member
    obtain ⟨shared, control, hstep, rfl⟩ := next_call_single single step
    have spent := CallPc.spends (fun c inner at_pc =>
      (h.preparing.alone c _ (at_pc ▸ member) rfl).2.2.cleared rfl) hstep
    have failed : s.callMissed (.call i ok) = missed pc.exchanges ok := by simp [callMissed, found]
    simp only [callSteps, callsLeft, failed, single, List.map_cons, List.map_nil,
      List.sum_singleton]
    omega
  | _ =>
    obtain ⟨calls, interference⟩ := next_interference step (by simp) (by simp) (by simp)
    have latched := interference.state.imp_right And.right
    have each (pc) (member : pc ∈ s.calls) :
        pc.left t.shared ≤ pc.left s.shared + pc.disturbance s.shared t.shared := by
      refine CallPc.disturbed latched ?_ ?_
      · intro drains
        exact (next_idle step (h.draining member drains) (by simp)).1
      · intro prepares
        cases pc with
        | start c pc =>
          obtain ⟨none, idle, -⟩ := h.preparing.alone c pc member prepares
          exact (next_idle step idle (by simp)).2 none
        | stop pc => cases prepares
    have all := sum_map_le each
    simp only [callSteps, callsLeft, callDisturbed, step, calls, Option.map_some, Option.getD_some]
    omega

/-- From wherever no call is in progress, the calls of start() and stop() take 113 and 81 steps
at most, one more for every weak exchange that fails, and what the other threads cost them: a
late acknowledgement while start() drains these, or a change of the watermark while it clears
the ring. No call gets stuck: whatever the driver and the RTOS return, its next step is there,
and a wait for the task ends without the acknowledgement. -/
theorem calls_end (reached : exec (guarded apart next) ({} : System w) before = some s)
    (idle : s.calls = []) (run : exec (guarded apart next) s ks = some t) :
    let component := guarded apart (next (w := w))
    total component callSteps s ks ≤ total component callBudget s ks +
        total component callMissed s ks + total component callDisturbed s ks ∧
      ∀ i pc, t.calls[i]? = some pc → ∀ ok, (pc.awaits && ok) = false →
        (t.next (.call i ok)).isSome = true := by
  intro component
  constructor
  · have spent : total component callSteps s ks + t.callsLeft ≤ s.callsLeft +
        total component (fun s k => s.callBudget k + s.callMissed k + s.callDisturbed k) s ks := by
      refine total_le (P := Apart) ?_ (exec_apart reached) run
      intro s k t h step
      obtain ⟨allowed, step⟩ := guarded_eq_some.mp step
      exact ⟨h.next allowed step, h.spends allowed step⟩
    rw [total_add, total_add, callsLeft, callsLeft, idle] at spent
    simp only [List.map_nil, List.sum_nil] at spent
    omega
  · intro i pc found ok granted
    have provided := exec_provided
      (exec_guarded_mono (fun _ _ => serialized_of_apart) (exec_trans reached run))
    have steps := CallPc.goes_on (provided.calls pc (List.mem_of_getElem? found)) granted
    rw [next, found, Option.bind_some, Option.isSome_map]
    exact steps

theorem calls_end_clean :
    total (guarded apart next) callSteps ({} : System 32) cleanRun ≤ 113 + 81 := by
  have bound := (calls_end (exec_nil ({} : System 32)) rfl
    (exec_eq_final (guarded apart next) _ cleanRun (by decide))).1
  exact bound.trans (by decide)

end System

end CanTelemetry.CanBus
