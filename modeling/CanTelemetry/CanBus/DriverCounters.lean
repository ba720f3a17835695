import CanTelemetry.CanBus.RingUse
import CanTelemetry.CanBus.Wakeup
import Mathlib.Data.List.Chain

/-! The counters of the driver. The driver reports cumulative counters modulo `2 ^ 32`; the
task adds the difference to the last report to the 64-bit counters of the ring, which
resets may empty at any time. A start() leaves counters and baselines at zero, and from
then on what the resets took and what the ring shows is the driver's own count. -/

namespace CanTelemetry.CanBus

open Execution RingIndex Threads VehicleCore

variable {w : ℕ}

/-- The counters that the driver's own counters are added to. -/
def Counter.ofDriver : Counter → Bool
  | .busErrors | .driverRxMissed => true
  | _ => false

/-! ### Up to the creation of the task -/

/-- The counter has been emptied by the clear() of this start(). -/
def StartPc.emptied (counter : Counter) : StartPc w → Bool
  | .clear (.snapshot (.counters remaining _)) => counter ∉ remaining
  | .clear (.snapshot (.depthAfterReset _ _)) | .clear (.snapshot (.ensureWatermark _ _))
  | .clear .resetWatermark | .setBusId | .recordReset | .resetLastCounters | .request | .markTask
  | .createTask => true
  | _ => false

/-- The baselines have been reset by this start(). -/
def StartPc.rebased : StartPc w → Bool
  | .request | .markTask | .createTask => true
  | _ => false

def Shared.Rebased (sh : Shared w) : Prop :=
  sh.lastDriverBusErrors = 0 ∧ sh.lastDriverRxMissed = 0 ∧ sh.lastDriverRxOverrun = 0

/-- What a start() has emptied so far. -/
structure StartPc.Blank (pc : StartPc w) (sh : Shared w) : Prop where
  counters : ∀ counter, counter.ofDriver = true → pc.emptied counter = true →
    sh.frames.counters counter = 0
  baselines : pc.rebased = true → sh.Rebased

theorem StartPc.Blank.of_same {pc : StartPc w} {sh sh' : Shared w} (h : pc.Blank sh)
    (zero : ∀ counter, counter.ofDriver = true → sh.frames.counters counter = 0 →
      sh'.frames.counters counter = 0)
    (baselines : sh.Rebased → sh'.Rebased) : pc.Blank sh' :=
  ⟨fun counter own emptied => zero counter own (h.counters counter own emptied),
    fun rebased => baselines (h.baselines rebased)⟩

/-- A point that is reached without touching counters or baselines. -/
theorem StartPc.Blank.step {pc pc' : StartPc w} {sh sh' : Shared w} (h : pc.Blank sh)
    (counters : sh'.frames.counters = sh.frames.counters) (baselines : sh.Rebased → sh'.Rebased)
    (emptied : ∀ counter, pc'.emptied counter = true → pc.emptied counter = true)
    (rebased : pc'.rebased = true → pc.rebased = true) : pc'.Blank sh' := by
  refine ⟨?_, fun after => baselines (h.baselines (rebased after))⟩
  intro counter other after
  rw [counters]
  exact h.counters counter other (emptied counter after)

/-- A point at which nothing is emptied yet. -/
theorem StartPc.Blank.early {pc : StartPc w} {sh : Shared w}
    (emptied : ∀ counter, pc.emptied counter = false) (rebased : pc.rebased = false) :
    pc.Blank sh := by
  refine ⟨?_, ?_⟩
  · intro counter _ after
    exact absurd ((emptied counter).symm.trans after) Bool.false_ne_true
  · intro after
    exact absurd (rebased.symm.trans after) Bool.false_ne_true

/-- clear() empties one counter after the other. -/
theorem StartPc.Blank.clear {configuration : Configuration} {sh sh' : Shared w} {ok : Bool}
    {pc : ClearPc w} {pc' : StartPc w} (h : (StartPc.clear pc).Blank sh)
    (step : (StartPc.clear pc).step configuration sh ok = some (sh', .next pc')) :
    pc'.Blank sh' := by
  obtain ⟨rfl, same⟩ := Prod.mk.inj (Option.some.inj step)
  cases pc with
  | loadHead =>
    obtain rfl := Control.next.inj same
    exact .early (fun _ => rfl) rfl
  | storeTail head =>
    obtain rfl := Control.next.inj same
    exact .early (fun _ => rfl) rfl
  | resetWatermark =>
    obtain rfl := Control.next.inj same
    exact h.step rfl id (fun _ _ => rfl) (by simp [StartPc.rebased])
  | snapshot pc =>
    dsimp only [ClearPc.step] at same
    cases pc with
    | depth pc =>
      dsimp only [SnapshotPc.step] at same
      cases reads : pc.step sh.frames with
      | next pc'' =>
        rw [reads] at same
        obtain rfl := Control.next.inj same
        exact .early (fun _ => rfl) rfl
      | ret depth =>
        rw [reads] at same
        obtain rfl := Control.next.inj same
        refine .early ?_ rfl
        intro counter
        cases counter <;> rfl
    | counters remaining result =>
      cases remaining with
      | nil =>
        obtain rfl := Control.next.inj same
        exact h.step rfl id (fun _ _ => by simp [StartPc.emptied]) (by simp [StartPc.rebased])
      | cons first remaining =>
        obtain rfl := Control.next.inj same
        refine ⟨?_, by simp [StartPc.rebased]⟩
        intro counter other emptied
        by_cases own : counter = first
        · subst own
          exact Function.update_self _ _ _
        · refine (Function.update_of_ne own _ _).trans (h.counters counter other ?_)
          simpa [StartPc.emptied, own] using emptied
    | depthAfterReset pc result =>
      dsimp only [SnapshotPc.step] at same
      cases reads : pc.step sh.frames with
      | next pc'' =>
        rw [reads] at same
        obtain rfl := Control.next.inj same
        exact h.step rfl id (fun _ _ => rfl) (by simp [StartPc.rebased])
      | ret depth =>
        rw [reads] at same
        obtain rfl := Control.next.inj same
        exact h.step rfl id (fun _ _ => rfl) (by simp [StartPc.rebased])
    | ensureWatermark pc result =>
      dsimp only [SnapshotPc.step] at same
      generalize control : (pc.step sh.frames ok).2 = inner at same
      cases inner with
      | next pc'' =>
        obtain rfl := Control.next.inj same
        exact h.step (pc.step_counters sh.frames ok) id (fun _ _ => rfl) (by simp [StartPc.rebased])
      | ret u =>
        obtain rfl := Control.next.inj same
        exact h.step (pc.step_counters sh.frames ok) id (fun _ _ => rfl) (by simp [StartPc.rebased])

/-- The points of a start() from the clear() on. -/
def StartPc.late : StartPc w → Bool
  | .clear _ | .setBusId | .recordReset | .resetLastCounters | .request | .markTask
  | .createTask => true
  | _ => false

theorem StartPc.Blank.of_not_late {pc : StartPc w} {sh : Shared w} (early : pc.late = false) :
    pc.Blank sh := by
  refine .early ?_ ?_
  · intro counter
    cases pc with
    | clear pc => cases early
    | setBusId => cases early
    | recordReset => cases early
    | resetLastCounters => cases early
    | request => cases early
    | markTask => cases early
    | createTask => cases early
    | _ => rfl
  · cases pc with
    | request => cases early
    | markTask => cases early
    | createTask => cases early
    | _ => rfl

/-- Only markStarted leads to the late points. -/
theorem StartPc.step_late {configuration : Configuration} {sh sh' : Shared w} {ok : Bool}
    {pc pc' : StartPc w} (step : pc.step configuration sh ok = some (sh', .next pc'))
    (early : pc.late = false) : pc'.late = false ∨ pc' = .clear .loadHead := by
  cases pc with
  | markStarted =>
    obtain rfl := Control.next.inj (Prod.mk.inj (Option.some.inj step)).2
    exact .inr rfl
  | clear pc => cases early
  | setBusId => cases early
  | recordReset => cases early
  | resetLastCounters => cases early
  | request => cases early
  | markTask => cases early
  | createTask => cases early
  | beginStart =>
    left
    simp only [StartPc.step] at step
    split at step
    · cases (Prod.mk.inj (Option.some.inj step)).2
    · obtain rfl := Control.next.inj (Prod.mk.inj (Option.some.inj step)).2
      cases sh.lifecycle.beginStart.2 <;> rfl
  | createTaskStopped =>
    left
    obtain rfl := Control.next.inj (Prod.mk.inj (Option.some.inj step)).2
    rcases Shared.afterCreation_cases
      { sh with taskStopped := sh.taskStopped.or (if ok then some .empty else none) } with
      aborting | ⟨goesOn, -⟩
    · rw [aborting]
      rfl
    · rw [goesOn]
      rfl
  | drainAvailable =>
    left
    rcases takeNow_eq_some step with ⟨s, s', -, -, same⟩ | ⟨s, -, -, same⟩
    · obtain rfl := Control.next.inj (Prod.mk.inj same).2
      rfl
    · obtain rfl := Control.next.inj (Prod.mk.inj same).2
      rfl
  | drainTaskStopped =>
    left
    rcases takeNow_eq_some step with ⟨s, s', -, -, same⟩ | ⟨s, -, -, same⟩
    · obtain rfl := Control.next.inj (Prod.mk.inj same).2
      rfl
    · obtain rfl := Control.next.inj (Prod.mk.inj same).2
      rfl
  | driverInstall =>
    left
    cases ok <;> obtain rfl := Control.next.inj (Prod.mk.inj (Option.some.inj step)).2 <;> rfl
  | driverStart =>
    left
    cases ok <;> obtain rfl := Control.next.inj (Prod.mk.inj (Option.some.inj step)).2 <;> rfl
  | driverStop =>
    left
    cases ok <;> obtain rfl := Control.next.inj (Prod.mk.inj (Option.some.inj step)).2 <;> rfl
  | driverUninstall result =>
    left
    cases ok <;> obtain rfl := Control.next.inj (Prod.mk.inj (Option.some.inj step)).2 <;> rfl
  | abort pc result =>
    left
    have same := (Prod.mk.inj (Option.some.inj step)).2
    generalize (pc.step sh.lifecycle).2 = control at same
    cases control with
    | next pc =>
      obtain rfl := Control.next.inj same
      rfl
    | ret value => cases same
  | beginStop pc =>
    left
    have same := (Prod.mk.inj (Option.some.inj step)).2
    generalize (pc.step sh.lifecycle ok).2 = control at same
    cases control <;> obtain rfl := Control.next.inj same <;> rfl
  | reconcile pc result =>
    left
    have same := (Prod.mk.inj (Option.some.inj step)).2
    generalize (pc.step sh.lifecycle).2 = control at same
    cases control with
    | next pc =>
      obtain rfl := Control.next.inj same
      rfl
    | ret value => cases same
  | refused => cases (Prod.mk.inj (Option.some.inj step)).2
  | setStartedBefore => cases (Prod.mk.inj (Option.some.inj step)).2
  | _ =>
    left
    obtain rfl := Control.next.inj (Prod.mk.inj (Option.some.inj step)).2
    rfl

theorem StartPc.step_blank {configuration : Configuration} {sh sh' : Shared w} {ok : Bool}
    {pc pc' : StartPc w} (h : pc.Blank sh)
    (step : pc.step configuration sh ok = some (sh', .next pc')) : pc'.Blank sh' := by
  cases late : pc.late with
  | false =>
    rcases step_late step late with early | rfl
    · exact .of_not_late early
    · exact .early (fun _ => rfl) rfl
  | true =>
    cases pc with
    | clear pc => exact h.clear step
    | recordReset =>
      obtain ⟨rfl, same⟩ := Prod.mk.inj (Option.some.inj step)
      obtain rfl := Control.next.inj same
      refine ⟨?_, by simp [StartPc.rebased]⟩
      intro counter other _
      show (if sh.hasStartedBefore then _ else _ : FrameRing w _ _).counters counter = 0
      rw [← h.counters counter other rfl]
      split
      · refine Function.update_of_ne ?_ _ _
        rintro rfl
        cases other
      · rfl
    | resetLastCounters =>
      obtain ⟨rfl, same⟩ := Prod.mk.inj (Option.some.inj step)
      obtain rfl := Control.next.inj same
      exact ⟨fun counter other _ => h.counters counter other rfl, fun _ => ⟨rfl, rfl, rfl⟩⟩
    | createTask =>
      obtain ⟨rfl, same⟩ := Prod.mk.inj (Option.some.inj step)
      obtain rfl := Control.next.inj same
      cases ok
      · exact .of_not_late rfl
      · exact .of_not_late rfl
    | setBusId =>
      obtain ⟨rfl, same⟩ := Prod.mk.inj (Option.some.inj step)
      obtain rfl := Control.next.inj same
      exact h.step rfl id (fun _ _ => rfl) (by simp [StartPc.rebased])
    | request =>
      obtain ⟨rfl, same⟩ := Prod.mk.inj (Option.some.inj step)
      obtain rfl := Control.next.inj same
      exact h.step rfl id (fun _ _ => rfl) (fun _ => rfl)
    | markTask =>
      obtain ⟨rfl, same⟩ := Prod.mk.inj (Option.some.inj step)
      obtain rfl := Control.next.inj same
      exact h.step rfl id (fun _ _ => rfl) (fun _ => rfl)
    | _ => cases late

/-! ### What the other threads do -/

/-- A reset takes the whole counter or leaves it alone. -/
theorem SnapshotPc.step_taken {capacity : ℕ} {F : Type*} (ring : FrameRing w capacity F)
    (cas : Bool) (pc : SnapshotPc w) (counter : Counter) :
    pc.takes ring counter = 0 ∧
        (pc.step .snapshotAndReset ring cas).1.counters counter = ring.counters counter ∨
      pc.takes ring counter = ring.counters counter ∧
        (pc.step .snapshotAndReset ring cas).1.counters counter = 0 := by
  have balance := pc.step_counters ring cas counter
  cases pc with
  | counters remaining result =>
    cases remaining with
    | nil => exact .inl ⟨rfl, rfl⟩
    | cons first remaining =>
      by_cases own : first = counter
      · subst own
        exact .inr ⟨if_pos rfl, Function.update_self _ _ _⟩
      · exact .inl ⟨if_neg own, Function.update_of_ne (Ne.symm own) _ _⟩
  | depth pc => exact .inl ⟨rfl, rfl⟩
  | depthAfterReset pc result => exact .inl ⟨rfl, rfl⟩
  | ensureWatermark pc result =>
    left
    refine ⟨rfl, ?_⟩
    rw [balance]
    exact (zero_add _).symm

/-- receive() touches neither the driver counters nor the baselines. -/
theorem ReceivePc.step_counters {sh sh' : Shared w} {granted : Bool} {pc : ReceivePc w}
    {control : Control (ReceivePc w) (Result × Option RawCanFrame)} {counter : Counter}
    (step : pc.step sh granted = some (sh', control)) (own : counter.ofDriver = true) :
    sh'.frames.counters counter = sh.frames.counters counter ∧
      sh'.lastDriverBusErrors = sh.lastDriverBusErrors ∧
      sh'.lastDriverRxMissed = sh.lastDriverRxMissed ∧
      sh'.lastDriverRxOverrun = sh.lastDriverRxOverrun := by
  cases pc with
  | pop pc =>
    obtain ⟨rfl, -⟩ := Prod.mk.inj (Option.some.inj step)
    refine ⟨?_, rfl, rfl, rfl⟩
    show (pc.step sh.frames).1.counters counter = _
    rw [pc.step_counters]
    have apart : counter.once pc.counted = 0 := by
      cases pc with
      | countDelivered frame =>
        cases counter with
        | framesDelivered => cases own
        | _ => rfl
      | _ => rfl
    rw [apart]
    exact add_zero _
  | take timeoutMs =>
    simp only [ReceivePc.step] at step
    split at step
    · rcases takeNow_eq_some step with ⟨s, s', -, -, same⟩ | ⟨s, -, -, same⟩
      · obtain ⟨rfl, -⟩ := Prod.mk.inj same
        exact ⟨rfl, rfl, rfl, rfl⟩
      · obtain ⟨rfl, -⟩ := Prod.mk.inj same
        exact ⟨rfl, rfl, rfl, rfl⟩
    · rcases takeWithin_eq_some step with ⟨s, s', -, -, -, same⟩ | ⟨-, same⟩
      · obtain ⟨rfl, -⟩ := Prod.mk.inj same
        exact ⟨rfl, rfl, rfl, rfl⟩
      · obtain ⟨rfl, -⟩ := Prod.mk.inj same
        exact ⟨rfl, rfl, rfl, rfl⟩
  | checkState timeoutMs =>
    obtain ⟨rfl, -⟩ := Prod.mk.inj (Option.some.inj step)
    exact ⟨rfl, rfl, rfl, rfl⟩
  | checkAfterTimeout =>
    obtain ⟨rfl, -⟩ := Prod.mk.inj (Option.some.inj step)
    exact ⟨rfl, rfl, rfl, rfl⟩
  | checkAfterTake =>
    obtain ⟨rfl, -⟩ := Prod.mk.inj (Option.some.inj step)
    exact ⟨rfl, rfl, rfl, rfl⟩

theorem TaskPc.step_dead_baselines {pc : TaskPc w} {env : TaskEnv} {sh sh' : Shared w}
    {control : Control (TaskPc w) Unit} (dead : pc.live = false)
    (step : pc.step env sh = some (sh', control)) :
    sh'.lastDriverBusErrors = sh.lastDriverBusErrors ∧
      sh'.lastDriverRxMissed = sh.lastDriverRxMissed ∧
      sh'.lastDriverRxOverrun = sh.lastDriverRxOverrun := by
  cases pc with
  | giveStopped =>
    obtain ⟨token, -, same⟩ := Option.map_eq_some_iff.mp step
    obtain ⟨rfl, -⟩ := Prod.mk.inj same
    exact ⟨rfl, rfl, rfl⟩
  | delete =>
    obtain ⟨rfl, -⟩ := Prod.mk.inj (Option.some.inj step)
    exact ⟨rfl, rfl, rfl⟩
  | _ => cases dead

namespace System

variable {s t : System w} {k : Choice} {ks ls : List Choice}

/-- While a start() prepares a run, what it has emptied stays empty. -/
structure Emptied (s : System w) : Prop where
  reserved : s.Reserved
  blank : ∀ c pc, .start c pc ∈ s.calls → pc.Blank s.shared

/-- The value that a reset takes from a counter with this step. -/
def taken (counter : Counter) (s : System w) : Choice → BitVec 64
  | .observer i _ => match s.observers[i]? with
    | some (.snapshotAndReset, pc) => pc.takes s.shared.frames counter
    | _ => 0
  | _ => 0

/-- The value that the resets in progress have taken and not returned yet. -/
def held (counter : Counter) (s : System w) : BitVec 64 :=
  (s.observers.map (Clearing.heldBy counter)).sum

/-- No reset reads a counter twice. -/
def Unread (s : System w) : Prop := ∀ o ∈ s.observers, o.2.Unread

theorem next_observers (step : s.next k = some t)
    (noBegin : ∀ operation, k ≠ .beginStatistics operation)
    (noObserver : ∀ i cas, k ≠ .observer i cas) : t.observers = s.observers := by
  cases k with
  | beginStart c | beginStop =>
    obtain rfl := Option.some.inj step
    rfl
  | beginReceive timeoutMs =>
    obtain ⟨-, step⟩ := Option.ite_none_right_eq_some.mp step
    obtain rfl := Option.some.inj step
    rfl
  | call i ok =>
    obtain ⟨pc, shared, control, -, -, rfl⟩ := next_call step
    rfl
  | task i env =>
    obtain ⟨pc, shared, control, -, -, rfl⟩ := next_task step
    rfl
  | consumer granted =>
    obtain ⟨pc, shared, control, -, -, rfl⟩ := next_consumer step
    rfl
  | busOff =>
    obtain ⟨-, rfl⟩ := next_busOff step
    rfl
  | beginStatistics operation => exact absurd rfl (noBegin operation)
  | observer i cas => exact absurd rfl (noObserver i cas)

theorem Unread.next (h : s.Unread) (step : s.next k = some t) : t.Unread := by
  cases k with
  | beginStatistics operation =>
    obtain rfl := Option.some.inj step
    intro o mem
    rcases List.mem_append.mp mem with old | new
    · exact h o old
    · obtain rfl := List.mem_singleton.mp new
      trivial
  | observer i cas =>
    obtain ⟨operation, pc, found, rfl⟩ := next_observer step
    have own := SnapshotPc.step_unread s.shared.frames (h _ (List.mem_of_getElem? found))
      operation cas
    intro o mem
    rcases mem_of_mem_resume found mem with old | live
    · exact h o old
    · cases control : (pc.step operation s.shared.frames cas).2 with
      | next pc' =>
        rw [control] at live own
        obtain rfl := List.mem_singleton.mp live
        exact own pc' (by simp)
      | ret value =>
        rw [control] at live
        cases live
  | _ =>
    intro o mem
    rw [next_observers step (by simp) (by simp)] at mem
    exact h o mem

/-- What a reset takes stays with it until it returns it. -/
theorem next_reported (counter : Counter) (h : s.Unread) (step : s.next k = some t) :
    held counter s + taken counter s k = reported counter s k + held counter t := by
  cases k with
  | beginStatistics operation =>
    obtain rfl := Option.some.inj step
    cases operation <;> simp [held, taken, reported, Clearing.heldBy, SnapshotPc.holds]
  | observer i cas =>
    obtain ⟨operation, pc, found, rfl⟩ := next_observer step
    have moves := Clearing.sum_heldBy s.shared.frames counter found
      (h _ (List.mem_of_getElem? found)) cas
    simp only [held, taken, reported, found]
    cases operation <;> exact moves
  | _ =>
    simp only [held, next_observers step (by simp) (by simp), taken, reported]
    rw [add_zero, zero_add]

def SameBaselines (s t : System w) : Prop :=
  t.shared.lastDriverBusErrors = s.shared.lastDriverBusErrors ∧
    t.shared.lastDriverRxMissed = s.shared.lastDriverRxMissed ∧
    t.shared.lastDriverRxOverrun = s.shared.lastDriverRxOverrun

/-- Threads other than the task and the calls leave the baselines alone, and a driver counter
too unless they reset it. -/
theorem next_others (counter : Counter) (own : counter.ofDriver = true)
    (step : s.next k = some t) (noCall : ∀ i ok, k ≠ .call i ok)
    (noTask : ∀ i env, k ≠ .task i env) :
    SameBaselines s t ∧
      (taken counter s k = 0 ∧
          t.shared.frames.counters counter = s.shared.frames.counters counter ∨
        taken counter s k = s.shared.frames.counters counter ∧
          t.shared.frames.counters counter = 0) := by
  cases k with
  | beginStart c =>
    obtain rfl := Option.some.inj step
    exact ⟨⟨rfl, rfl, rfl⟩, .inl ⟨rfl, rfl⟩⟩
  | beginStop =>
    obtain rfl := Option.some.inj step
    exact ⟨⟨rfl, rfl, rfl⟩, .inl ⟨rfl, rfl⟩⟩
  | call i ok => exact absurd rfl (noCall i ok)
  | task i env => exact absurd rfl (noTask i env)
  | beginReceive timeoutMs =>
    obtain ⟨-, step⟩ := Option.ite_none_right_eq_some.mp step
    obtain rfl := Option.some.inj step
    exact ⟨⟨rfl, rfl, rfl⟩, .inl ⟨rfl, rfl⟩⟩
  | consumer granted =>
    obtain ⟨pc, shared, control, -, hstep, rfl⟩ := next_consumer step
    obtain ⟨counters, baselines⟩ := ReceivePc.step_counters hstep own
    exact ⟨baselines, .inl ⟨rfl, counters⟩⟩
  | beginStatistics operation =>
    obtain rfl := Option.some.inj step
    exact ⟨⟨rfl, rfl, rfl⟩, .inl ⟨rfl, rfl⟩⟩
  | observer i cas =>
    obtain ⟨operation, pc, found, rfl⟩ := next_observer step
    refine ⟨⟨rfl, rfl, rfl⟩, ?_⟩
    simp only [taken, found]
    cases operation with
    | snapshot =>
      left
      exact ⟨rfl, congrFun (pc.step_counters_snapshot s.shared.frames cas) counter⟩
    | snapshotAndReset => exact pc.step_taken s.shared.frames cas counter
  | busOff =>
    obtain ⟨-, rfl⟩ := next_busOff step
    exact ⟨⟨rfl, rfl, rfl⟩, .inl ⟨rfl, rfl⟩⟩

theorem Emptied.call (h : s.Emptied) {i : ℕ} {ok : Bool} (allowed : s.oneTask (.call i ok) = true)
    (step : s.next (.call i ok) = some t) : t.Emptied := by
  have reserved := h.reserved.call allowed step
  obtain ⟨pc, -, -, hpc, -, -⟩ := next_call step
  have member := List.mem_of_getElem? hpc
  obtain ⟨single, -⟩ := h.reserved.outlined.outline member
  obtain ⟨shared, control, hstep, rfl⟩ := next_call_single single step
  refine ⟨reserved, ?_⟩
  intro c pc' hpc'
  cases control with
  | ret result => cases hpc'
  | next after =>
    obtain rfl := List.mem_singleton.mp hpc'
    cases pc with
    | stop pc =>
      obtain ⟨inner, -, same⟩ := CallPc.step_stop hstep
      cases inner <;> cases same
    | start configuration pc =>
      obtain ⟨inner, inside, same⟩ := CallPc.step_start hstep
      cases inner with
      | ret result => cases same
      | next inner =>
        obtain ⟨rfl, rfl⟩ := CallPc.start.inj (Control.next.inj same)
        exact StartPc.step_blank (h.blank c pc member) inside

/-- While a task is live no start() is at its late points. -/
theorem Reserved.blank_of_live (h : s.Reserved) {pc : TaskPc w} (task : pc ∈ s.tasks)
    (live : pc.live = true) {c : Configuration} {call : StartPc w} (mem : .start c call ∈ s.calls)
    (sh : Shared w) : call.Blank sh := by
  refine .of_not_late ?_
  by_contra late
  have prepares : call.preparing = true := by
    cases call <;> first | rfl | exact absurd rfl late
  have none := (h.alone c call mem prepares).1
  exact absurd live (List.countP_eq_zero.mp none pc task)

theorem Emptied.next (h : s.Emptied) (allowed : s.oneTask k = true) (step : s.next k = some t) :
    t.Emptied := by
  have reserved := h.reserved.next allowed step
  have others (noCall : ∀ i ok, k ≠ .call i ok) (noTask : ∀ i env, k ≠ .task i env)
      (c : Configuration) (pc : StartPc w) (mem : .start c pc ∈ s.calls) : pc.Blank t.shared := by
    refine (h.blank c pc mem).of_same ?_ ?_
    · intro counter own zero
      rcases (next_others counter own step noCall noTask).2 with ⟨-, same⟩ | ⟨-, emptied⟩
      · exact same.trans zero
      · exact emptied
    · intro rebased
      obtain ⟨errors, missed, overrun⟩ :=
        (next_others .busErrors rfl step noCall noTask).1
      exact ⟨errors.trans rebased.1, missed.trans rebased.2.1, overrun.trans rebased.2.2⟩
  cases k with
  | call i ok => exact h.call allowed step
  | task i env =>
    obtain ⟨pc, shared, control, hpc, hstep, rfl⟩ := next_task step
    refine ⟨reserved, ?_⟩
    intro c call mem
    cases live : pc.live with
    | true => exact h.reserved.blank_of_live (List.mem_of_getElem? hpc) live mem _
    | false =>
      obtain ⟨frames, -, -, -, -, -⟩ := TaskPc.step_dead live hstep
      have baselines := TaskPc.step_dead_baselines live hstep
      refine (h.blank c call mem).of_same ?_ ?_
      · intro counter _ zero
        rw [frames]
        exact zero
      · intro rebased
        exact ⟨baselines.1.trans rebased.1, baselines.2.1.trans rebased.2.1,
          baselines.2.2.trans rebased.2.2⟩
  | beginStart configuration =>
    refine ⟨reserved, ?_⟩
    have same := others (by simp) (by simp)
    obtain rfl := Option.some.inj step
    intro c pc mem
    rcases List.mem_append.mp mem with old | new
    · exact same c pc old
    · obtain ⟨rfl, rfl⟩ := CallPc.start.inj (List.mem_singleton.mp new)
      exact .of_not_late rfl
  | beginStop =>
    refine ⟨reserved, ?_⟩
    have same := others (by simp) (by simp)
    obtain rfl := Option.some.inj step
    intro c pc mem
    rcases List.mem_append.mp mem with old | new
    · exact same c pc old
    · cases List.mem_singleton.mp new
  | _ =>
    refine ⟨reserved, ?_⟩
    have calls := (next_interference step (by simp) (by simp) (by simp)).1
    intro c pc mem
    rw [calls] at mem
    exact others (by simp) (by simp) c pc mem

theorem exec_emptied (run : exec (guarded oneTask next) ({} : System w) ks = some s) :
    s.Emptied := by
  refine exec_invariant (P := Emptied) ?_ run ?_
  · intro s k t h step
    obtain ⟨allowed, step⟩ := guarded_eq_some.mp step
    exact h.next allowed step
  · exact ⟨⟨⟨by simp, by simp, fun _ => ⟨rfl, rfl, rfl⟩⟩, by simp⟩, by simp⟩

end System

/-! ### The driver's own counters -/

/-- The cumulative counters of the driver since start(). -/
structure DriverCounts where
  busErrors : ℕ := 0
  rxMissed : ℕ := 0
  rxOverrun : ℕ := 0

namespace DriverCounts

/-- What the driver reports of them. -/
def status (counts : DriverCounts) : TwaiStatus where
  rxMissedCount := BitVec.ofNat 32 counts.rxMissed
  rxOverrunCount := BitVec.ofNat 32 counts.rxOverrun
  busErrorCount := BitVec.ofNat 32 counts.busErrors

/-- The messages that the driver has lost. -/
def lost (counts : DriverCounts) : ℕ := counts.rxMissed + counts.rxOverrun

/-- Between two polls every counter grows by less than `2 ^ 32`. -/
structure Grows (earlier later : DriverCounts) : Prop where
  busErrors : earlier.busErrors ≤ later.busErrors ∧ later.busErrors < earlier.busErrors + 2 ^ 32
  rxMissed : earlier.rxMissed ≤ later.rxMissed ∧ later.rxMissed < earlier.rxMissed + 2 ^ 32
  rxOverrun : earlier.rxOverrun ≤ later.rxOverrun ∧ later.rxOverrun < earlier.rxOverrun + 2 ^ 32

/-- The counts at successive polls, from zero at start(). -/
def Steady (polls : List DriverCounts) : Prop := ({} :: polls).IsChain Grows

/-- The counts at the last poll. -/
def latest (polls : List DriverCounts) : DriverCounts := polls.getLastD {}

theorem Steady.concat {polls : List DriverCounts} {counts : DriverCounts}
    (h : Steady (polls ++ [counts])) : Steady polls ∧ (latest polls).Grows counts := by
  rw [Steady, ← List.cons_append, List.isChain_append] at h
  refine ⟨h.1, h.2.2 _ ?_ _ (by simp)⟩
  rw [List.getLast?_cons, latest, List.getLastD_eq_getLast?]
  exact Option.mem_some_self _

end DriverCounts

/-- The difference of two reports is the growth, past the wrap of the driver's counter too. -/
theorem counterDelta_exact {earlier later : ℕ} (ordered : earlier ≤ later)
    (window : later < earlier + 2 ^ 32) :
    BitVec.ofNat 64 earlier +
        counterDelta (BitVec.ofNat 32 later) (BitVec.ofNat 32 earlier) = BitVec.ofNat 64 later := by
  have growth : counterDelta (BitVec.ofNat 32 later) (BitVec.ofNat 32 earlier) =
      BitVec.ofNat 64 (later - earlier) := by
    have exact_distance : distance (BitVec.ofNat 32 later) (BitVec.ofNat 32 earlier) =
        later - earlier := distance_index ordered (by omega)
    apply BitVec.eq_of_toNat_eq
    rw [counterDelta, BitVec.toNat_setWidth, BitVec.toNat_ofNat]
    exact congrArg (· % 2 ^ 64) exact_distance
  rw [growth, ← BitVec.ofNat_add]
  congr 1
  omega

/-! ### What the task adds to the counters -/

/-- The status that the step of a task reads. -/
def TaskPc.polls (env : TaskEnv) : TaskPc w → List TwaiStatus
  | .readStatus => env.status.toList
  | _ => []

/-- The received message that the step of a task finds invalid. -/
def TaskPc.rejects (env : TaskEnv) (sh : Shared w) : TaskPc w → ℕ
  | .stamp message => if (message.frame env.time sh.busId).isValid then 0 else 1
  | _ => 0

/-- The baselines are those of one poll, and what was taken from the driver counters and
what they show makes up these numbers. -/
structure Shared.Credited (sh : Shared w) (taken : Counter → BitVec 64) (baseline : DriverCounts)
    (errors missed : ℕ) : Prop where
  busErrors : sh.lastDriverBusErrors = baseline.status.busErrorCount
  rxMissed : sh.lastDriverRxMissed = baseline.status.rxMissedCount
  rxOverrun : sh.lastDriverRxOverrun = baseline.status.rxOverrunCount
  errors : taken .busErrors + sh.frames.counters .busErrors = BitVec.ofNat 64 errors
  missed : taken .driverRxMissed + sh.frames.counters .driverRxMissed = BitVec.ofNat 64 missed

/-- The account while the task is at one of its points, or has left its loop. Between the
poll and the store of the new baselines it is still that of the poll before. -/
def TaskPc.Tally (sh : Shared w) (taken : Counter → BitVec 64) (current : DriverCounts)
    (invalid : ℕ) : Option (TaskPc w) → Prop
  | some .recordInvalid => ∃ missed, sh.Credited taken current current.busErrors missed ∧
    missed + 1 = current.lost + invalid
  | some (.recordBusErrors status) => status = current.status ∧ ∃ earlier, earlier.Grows current ∧
    sh.Credited taken earlier earlier.busErrors (earlier.lost + invalid)
  | some (.recordMissed status) => status = current.status ∧ ∃ earlier, earlier.Grows current ∧
    sh.Credited taken earlier current.busErrors (earlier.lost + invalid)
  | some (.storeLast status) => status = current.status ∧ ∃ earlier,
    sh.Credited taken earlier current.busErrors (current.lost + invalid)
  | _ => sh.Credited taken current current.busErrors (current.lost + invalid)

theorem Shared.Credited.of_same {sh sh' : Shared w} {taken taken' : Counter → BitVec 64}
    {baseline : DriverCounts} {errors missed : ℕ} (h : sh.Credited taken baseline errors missed)
    (baselines : sh'.lastDriverBusErrors = sh.lastDriverBusErrors ∧
      sh'.lastDriverRxMissed = sh.lastDriverRxMissed ∧
      sh'.lastDriverRxOverrun = sh.lastDriverRxOverrun)
    (counters : ∀ counter, counter.ofDriver = true →
      taken' counter + sh'.frames.counters counter =
        taken counter + sh.frames.counters counter) :
    sh'.Credited taken' baseline errors missed :=
  ⟨baselines.1.trans h.busErrors, baselines.2.1.trans h.rxMissed, baselines.2.2.trans h.rxOverrun,
    (counters .busErrors rfl).trans h.errors, (counters .driverRxMissed rfl).trans h.missed⟩

section Task

variable {sh sh' : Shared w} {taken taken' : Counter → BitVec 64} {current : DriverCounts}
  {invalid : ℕ} {task : Option (TaskPc w)}

/-- What the other threads do leaves the account as it is. -/
theorem TaskPc.Tally.of_same (h : TaskPc.Tally sh taken current invalid task)
    (baselines : sh'.lastDriverBusErrors = sh.lastDriverBusErrors ∧
      sh'.lastDriverRxMissed = sh.lastDriverRxMissed ∧
      sh'.lastDriverRxOverrun = sh.lastDriverRxOverrun)
    (counters : ∀ counter, counter.ofDriver = true →
      taken' counter + sh'.frames.counters counter =
        taken counter + sh.frames.counters counter) :
    TaskPc.Tally sh' taken' current invalid task := by
  unfold TaskPc.Tally at h ⊢
  split at h
  · obtain ⟨missed, credited, balance⟩ := h
    exact ⟨missed, credited.of_same baselines counters, balance⟩
  · obtain ⟨status, earlier, grows, credited⟩ := h
    exact ⟨status, earlier, grows, credited.of_same baselines counters⟩
  · obtain ⟨status, earlier, grows, credited⟩ := h
    exact ⟨status, earlier, grows, credited.of_same baselines counters⟩
  · obtain ⟨status, earlier, credited⟩ := h
    exact ⟨status, earlier, credited.of_same baselines counters⟩
  · exact h.of_same baselines counters

/-- Where the task owes nothing to the counters. -/
def TaskPc.settled : TaskPc w → Bool
  | .recordInvalid | .recordBusErrors _ | .recordMissed _ | .storeLast _ => false
  | _ => true

theorem TaskPc.tally_of_settled {pc : TaskPc w} (settled : pc.settled = true) :
    TaskPc.Tally sh taken current invalid (some pc) =
      sh.Credited taken current current.busErrors (current.lost + invalid) := by
  cases pc <;> first | rfl | cases settled

/-- A step between two points at which nothing is owed. -/
theorem TaskPc.Tally.quiet {pc pc' : TaskPc w} (settled : pc.settled = true)
    (settled' : pc'.settled = true) (h : TaskPc.Tally sh taken current invalid (some pc))
    (baselines : sh'.lastDriverBusErrors = sh.lastDriverBusErrors ∧
      sh'.lastDriverRxMissed = sh.lastDriverRxMissed ∧
      sh'.lastDriverRxOverrun = sh.lastDriverRxOverrun)
    (counters : ∀ counter, counter.ofDriver = true →
      sh'.frames.counters counter = sh.frames.counters counter) :
    TaskPc.Tally sh' taken current invalid (some pc') := by
  rw [tally_of_settled settled] at h
  rw [tally_of_settled settled']
  refine h.of_same baselines ?_
  intro counter own
  rw [counters counter own]

/-- A push counts nothing that the driver counts. -/
theorem PushPc.counted_apart (pc : PushPc w RawCanFrame) {counter : Counter}
    (own : counter.ofDriver = true) : counter.once pc.counted = 0 := by
  cases counter with
  | busErrors => cases pc <;> rfl
  | driverRxMissed => cases pc <;> rfl
  | _ => cases own

/-- What the three stores of one poll do to the account. -/
theorem Shared.Credited.busErrors_recorded {earlier : DriverCounts} {missed : ℕ}
    (h : sh.Credited taken earlier earlier.busErrors missed) (grows : earlier.Grows current) :
    Shared.Credited
      { sh with
        frames := sh.frames.recordBusError
          (counterDelta current.status.busErrorCount sh.lastDriverBusErrors) }
      taken earlier current.busErrors missed := by
  refine ⟨h.busErrors, h.rxMissed, h.rxOverrun, ?_, ?_⟩
  · show taken .busErrors + (sh.frames.recordBusError _).counters .busErrors = _
    rw [FrameRing.recordBusError, FrameRing.count_counters, if_pos rfl, ← add_assoc, h.errors,
      h.busErrors]
    exact counterDelta_exact grows.busErrors.1 grows.busErrors.2
  · show taken .driverRxMissed + (sh.frames.recordBusError _).counters .driverRxMissed = _
    rw [FrameRing.recordBusError, FrameRing.count_counters, if_neg (by decide), add_zero]
    exact h.missed

theorem Shared.Credited.missed_recorded {earlier : DriverCounts} {errors : ℕ}
    (h : sh.Credited taken earlier errors (earlier.lost + invalid)) (grows : earlier.Grows current) :
    Shared.Credited
      { sh with
        frames := sh.frames.recordDriverRxMissed
          (counterDelta current.status.rxMissedCount sh.lastDriverRxMissed +
            counterDelta current.status.rxOverrunCount sh.lastDriverRxOverrun) }
      taken earlier errors (current.lost + invalid) := by
  refine ⟨h.busErrors, h.rxMissed, h.rxOverrun, ?_, ?_⟩
  · show taken .busErrors + (sh.frames.recordDriverRxMissed _).counters .busErrors = _
    rw [FrameRing.recordDriverRxMissed, FrameRing.count_counters, if_neg (by decide), add_zero]
    exact h.errors
  · have missed := counterDelta_exact grows.rxMissed.1 grows.rxMissed.2
    have overrun := counterDelta_exact grows.rxOverrun.1 grows.rxOverrun.2
    show taken .driverRxMissed + (sh.frames.recordDriverRxMissed _).counters .driverRxMissed = _
    rw [FrameRing.recordDriverRxMissed, FrameRing.count_counters, if_pos rfl, ← add_assoc,
      h.missed, h.rxMissed, h.rxOverrun]
    simp only [DriverCounts.lost, BitVec.ofNat_add, ← missed, ← overrun, DriverCounts.status]
    ac_rfl

theorem Shared.Credited.invalid_recorded {errors missed : ℕ}
    (h : sh.Credited taken current errors missed) :
    Shared.Credited { sh with frames := sh.frames.recordDriverRxMissed }
      taken current errors (missed + 1) := by
  refine ⟨h.busErrors, h.rxMissed, h.rxOverrun, ?_, ?_⟩
  · show taken .busErrors + (sh.frames.recordDriverRxMissed 1).counters .busErrors = _
    rw [FrameRing.recordDriverRxMissed, FrameRing.count_counters, if_neg (by decide), add_zero]
    exact h.errors
  · show taken .driverRxMissed + (sh.frames.recordDriverRxMissed 1).counters .driverRxMissed = _
    rw [FrameRing.recordDriverRxMissed, FrameRing.count_counters, if_pos rfl, ← add_assoc,
      h.missed, BitVec.ofNat_add]
    rfl

/-- One step of the task: a poll shows the counts that it reports, and every other step keeps
the account of the last poll. -/
theorem TaskPc.step_tally {pc : TaskPc w} {env : TaskEnv} {control : Control (TaskPc w) Unit}
    {seen : DriverCounts} (h : TaskPc.Tally sh taken current invalid (some pc))
    (polled : pc.polls env = [] ∧ seen = current ∨
      pc.polls env = [seen.status] ∧ current.Grows seen)
    (step : pc.step env sh = some (sh', control)) :
    TaskPc.Tally sh' taken seen (invalid + pc.rejects env sh) control.pc? := by
  by_cases reads : pc = .readStatus
  · subst reads
    obtain ⟨rfl, rfl⟩ := Prod.mk.inj (Option.some.inj step)
    cases reported : env.status with
    | none =>
      rcases polled with ⟨-, rfl⟩ | ⟨absurd, -⟩
      · exact h
      · simp [polls, reported] at absurd
    | some status =>
      rcases polled with ⟨absurd, -⟩ | ⟨same, grows⟩
      · simp [polls, reported] at absurd
      · obtain rfl : status = seen.status := by simpa [polls, reported] using same
        exact ⟨rfl, current, grows, h⟩
  · obtain rfl : seen = current := by
      rcases polled with ⟨-, same⟩ | ⟨absurd, -⟩
      · exact same
      · cases pc <;> first | exact (reads rfl).elim | cases absurd
    cases pc with
    | readStatus => exact (reads rfl).elim
    | loopTest =>
      obtain ⟨rfl, rfl⟩ := Prod.mk.inj (Option.some.inj step)
      cases sh.receiveRequested <;> exact h
    | receive =>
      obtain ⟨rfl, rfl⟩ := Prod.mk.inj (Option.some.inj step)
      cases env.received <;> exact h
    | stamp message =>
      obtain ⟨rfl, rfl⟩ := Prod.mk.inj (Option.some.inj step)
      by_cases valid : (message.frame env.time sh.busId).isValid = true
      · simp only [rejects, if_pos valid]
        exact h
      · simp only [rejects, if_neg valid]
        exact ⟨_, h, add_assoc _ _ _⟩
    | recordInvalid =>
      obtain ⟨rfl, rfl⟩ := Prod.mk.inj (Option.some.inj step)
      obtain ⟨missed, credited, balance⟩ := h
      show Shared.Credited _ taken seen _ _
      rw [rejects, add_zero, ← balance]
      · exact credited.invalid_recorded
      · rintro message ⟨⟩
    | push pc =>
      obtain ⟨rfl, rfl⟩ := Prod.mk.inj (Option.some.inj step)
      have same (pc' : TaskPc w) (settled : pc'.settled = true) :
          TaskPc.Tally { sh with frames := (pc.step sh.frames env.cas).1 } taken seen invalid
            (some pc') := by
        refine h.quiet rfl settled ⟨rfl, rfl, rfl⟩ ?_
        intro counter own
        show (pc.step sh.frames env.cas).1.counters counter = _
        rw [pc.step_counters, pc.counted_apart own]
        exact add_zero _
      cases (pc.step sh.frames env.cas).2 with
      | next pc' => exact same (.push pc') rfl
      | ret accepted => cases accepted <;> exact same _ rfl
    | giveAvailable =>
      obtain ⟨token, -, same⟩ := Option.map_eq_some_iff.mp step
      obtain ⟨rfl, rfl⟩ := Prod.mk.inj same
      exact h.quiet rfl rfl ⟨rfl, rfl, rfl⟩ fun _ _ => rfl
    | recordBusErrors status =>
      obtain ⟨rfl, rfl⟩ := Prod.mk.inj (Option.some.inj step)
      obtain ⟨rfl, earlier, grows, credited⟩ := h
      exact ⟨rfl, earlier, grows, credited.busErrors_recorded grows⟩
    | recordMissed status =>
      obtain ⟨rfl, rfl⟩ := Prod.mk.inj (Option.some.inj step)
      obtain ⟨rfl, earlier, grows, credited⟩ := h
      exact ⟨rfl, earlier, credited.missed_recorded grows⟩
    | storeLast status =>
      obtain ⟨rfl, rfl⟩ := Prod.mk.inj (Option.some.inj step)
      obtain ⟨rfl, earlier, credited⟩ := h
      exact ⟨rfl, rfl, rfl, credited.errors, credited.missed⟩
    | readAlerts =>
      obtain ⟨rfl, rfl⟩ := Prod.mk.inj (Option.some.inj step)
      cases env.alerts with
      | alerts busOff => cases busOff <;> exact h
      | timeout => exact h
      | failed => exact h
    | recordBusOff =>
      obtain ⟨rfl, rfl⟩ := Prod.mk.inj (Option.some.inj step)
      refine h.quiet rfl rfl ⟨rfl, rfl, rfl⟩ ?_
      intro counter own
      refine (sh.frames.count_counters _ _ _).trans ?_
      rw [if_neg, add_zero]
      rintro rfl
      cases own
    | latch pc =>
      obtain ⟨⟨shared, inner⟩, inside, same⟩ := Option.map_eq_some_iff.mp step
      obtain ⟨rfl, rfl⟩ := Prod.mk.inj same
      have goesOn (pc' : TaskPc w) (settled : pc'.settled = true) :
          TaskPc.Tally shared taken seen invalid (some pc') := by
        cases pc with
        | unrequest =>
          obtain ⟨rfl, -⟩ := Prod.mk.inj (Option.some.inj inside)
          exact h.quiet rfl settled ⟨rfl, rfl, rfl⟩ fun _ _ => rfl
        | latch pc =>
          obtain ⟨rfl, -⟩ := Prod.mk.inj (Option.some.inj inside)
          exact h.quiet rfl settled ⟨rfl, rfl, rfl⟩ fun _ _ => rfl
        | wake =>
          obtain ⟨token, -, same⟩ := Option.map_eq_some_iff.mp inside
          obtain ⟨rfl, -⟩ := Prod.mk.inj same
          exact h.quiet rfl settled ⟨rfl, rfl, rfl⟩ fun _ _ => rfl
      cases inner with
      | next pc' => exact goesOn (.latch pc') rfl
      | ret u => exact goesOn .acknowledge rfl
    | acknowledge =>
      obtain ⟨rfl, rfl⟩ := Prod.mk.inj (Option.some.inj step)
      exact h.quiet rfl rfl ⟨rfl, rfl, rfl⟩ fun _ _ => rfl
    | giveStopped =>
      obtain ⟨token, -, same⟩ := Option.map_eq_some_iff.mp step
      obtain ⟨rfl, rfl⟩ := Prod.mk.inj same
      exact h.quiet rfl rfl ⟨rfl, rfl, rfl⟩ fun _ _ => rfl
    | delete =>
      obtain ⟨rfl, rfl⟩ := Prod.mk.inj (Option.some.inj step)
      exact h

end Task

/-! ### Runs of the task -/

/-- The call does not prepare a run. -/
def CallPc.idle : CallPc w → Bool
  | .start _ pc => !pc.preparing
  | .stop _ => true

theorem StartPc.step_idle {configuration : Configuration} {sh sh' : Shared w} {ok : Bool}
    {pc : StartPc w} {control : Control (StartPc w) Result} (idle : pc.preparing = false)
    (step : pc.step configuration sh ok = some (sh', control)) :
    sh'.frames = sh.frames ∧ sh'.lastDriverBusErrors = sh.lastDriverBusErrors ∧
      sh'.lastDriverRxMissed = sh.lastDriverRxMissed ∧
      sh'.lastDriverRxOverrun = sh.lastDriverRxOverrun := by
  cases pc with
  | beginStart =>
    simp only [StartPc.step] at step
    split at step
    · obtain ⟨rfl, -⟩ := Prod.mk.inj (Option.some.inj step)
      exact ⟨rfl, rfl, rfl, rfl⟩
    · obtain ⟨rfl, -⟩ := Prod.mk.inj (Option.some.inj step)
      exact ⟨rfl, rfl, rfl, rfl⟩
  | driverStop =>
    cases ok <;> obtain ⟨rfl, -⟩ := Prod.mk.inj (Option.some.inj step) <;>
      exact ⟨rfl, rfl, rfl, rfl⟩
  | driverUninstall result =>
    cases ok <;> obtain ⟨rfl, -⟩ := Prod.mk.inj (Option.some.inj step) <;>
      exact ⟨rfl, rfl, rfl, rfl⟩
  | refused | setStartedBefore | unrequest | disown | beginStop | markStopped | markUninstalled
  | reconcile | abort =>
    obtain ⟨rfl, -⟩ := Prod.mk.inj (Option.some.inj step)
    exact ⟨rfl, rfl, rfl, rfl⟩
  | _ => cases idle

theorem StopPc.step_idle {sh sh' : Shared w} {ok : Bool} {pc : StopPc}
    {control : Control StopPc Result} (step : pc.step sh ok = some (sh', control)) :
    sh'.frames = sh.frames ∧ sh'.lastDriverBusErrors = sh.lastDriverBusErrors ∧
      sh'.lastDriverRxMissed = sh.lastDriverRxMissed ∧
      sh'.lastDriverRxOverrun = sh.lastDriverRxOverrun := by
  cases pc with
  | driverStop =>
    cases ok <;> obtain ⟨rfl, -⟩ := Prod.mk.inj (Option.some.inj step) <;>
      exact ⟨rfl, rfl, rfl, rfl⟩
  | driverUninstall =>
    cases ok <;> obtain ⟨rfl, -⟩ := Prod.mk.inj (Option.some.inj step) <;>
      exact ⟨rfl, rfl, rfl, rfl⟩
  | awaitTask driverStopped =>
    rcases takeWithin_eq_some step with ⟨s, s', -, -, -, same⟩ | ⟨-, same⟩ <;>
      obtain ⟨rfl, -⟩ := Prod.mk.inj same <;> exact ⟨rfl, rfl, rfl, rfl⟩
  | dropToken driverStopped =>
    rcases takeNow_eq_some step with ⟨s, s', -, -, same⟩ | ⟨s, -, -, same⟩ <;>
      obtain ⟨rfl, -⟩ := Prod.mk.inj same <;> exact ⟨rfl, rfl, rfl, rfl⟩
  | drainAvailable =>
    simp only [StopPc.step] at step
    split at step
    · obtain ⟨rfl, -⟩ := Prod.mk.inj (Option.some.inj step)
      exact ⟨rfl, rfl, rfl, rfl⟩
    · rcases takeNow_eq_some step with ⟨s, s', -, -, same⟩ | ⟨s, -, -, same⟩ <;>
        obtain ⟨rfl, -⟩ := Prod.mk.inj same <;> exact ⟨rfl, rfl, rfl, rfl⟩
  | _ =>
    obtain ⟨rfl, -⟩ := Prod.mk.inj (Option.some.inj step)
    exact ⟨rfl, rfl, rfl, rfl⟩

/-- A call that neither prepares a run nor reserves one leaves the account alone. -/
theorem CallPc.step_idle {sh sh' : Shared w} {ok : Bool} {pc : CallPc w}
    {control : Control (CallPc w) Result} (idle : pc.idle = true)
    (kept : pc.reserves sh.lifecycle = false) (step : pc.step sh ok = some (sh', control)) :
    (sh'.frames = sh.frames ∧ sh'.lastDriverBusErrors = sh.lastDriverBusErrors ∧
        sh'.lastDriverRxMissed = sh.lastDriverRxMissed ∧
        sh'.lastDriverRxOverrun = sh.lastDriverRxOverrun) ∧
      pc.created ok = [] ∧ ∀ pc' ∈ control.live, pc'.idle = true := by
  cases pc with
  | stop pc =>
    obtain ⟨inner, inside, rfl⟩ := CallPc.step_stop step
    refine ⟨StopPc.step_idle inside, rfl, ?_⟩
    cases inner <;> simp [CallPc.idle]
  | start configuration pc =>
    obtain ⟨inner, inside, rfl⟩ := CallPc.step_start step
    have apart : pc.preparing = false := by simpa [CallPc.idle] using idle
    refine ⟨StartPc.step_idle apart inside, ?_, ?_⟩
    · cases pc <;> first | rfl | cases apart
    · cases inner with
      | ret result => simp
      | next pc' =>
        intro after mem
        obtain rfl := List.mem_singleton.mp mem
        by_contra prepares
        have prepares : pc'.preparing = true := by simpa [CallPc.idle] using prepares
        rcases (StartPc.step_ready (by simp [apart]) inside prepares).2 with before | reserves
        · cases apart.symm.trans before
        · cases kept.symm.trans reserves

namespace System

variable {s t u : System w} {k : Choice} {ks ls : List Choice}

/-- The report of a poll of the driver's status that succeeds with this step. -/
def polled (s : System w) : Choice → List TwaiStatus
  | .task i env => (s.tasks[i]?.map fun pc => pc.polls env).getD []
  | _ => []

theorem polled_cases (s : System w) (k : Choice) :
    s.polled k = [] ∨ ∃ status, s.polled k = [status] := by
  cases k with
  | task i env =>
    cases found : s.tasks[i]? with
    | none =>
      left
      simp [polled, found]
    | some pc =>
      simp only [polled, found, Option.map_some, Option.getD_some]
      cases pc with
      | readStatus => cases reported : env.status <;> simp [TaskPc.polls, reported]
      | _ => exact .inl rfl
  | _ => exact .inl rfl

/-- A received message that fails its check with this step. -/
def rejected (s : System w) : Choice → ℕ
  | .task i env => (s.tasks[i]?.map fun pc => pc.rejects env s.shared).getD 0
  | _ => 0

/-- The account of a run: of its one task, with no other run in preparation. -/
structure Counting (s : System w) (sums : Counter → BitVec 64) (seen : DriverCounts)
    (invalid : ℕ) : Prop where
  account : ∃ task : Option (TaskPc w), s.tasks.filter TaskPc.live = task.toList ∧
    TaskPc.Tally s.shared sums seen invalid task
  calls : ∀ pc ∈ s.calls, pc.idle = true

namespace Counting

variable {sums : Counter → BitVec 64} {seen seen' : DriverCounts} {invalid : ℕ}

theorem task (h : s.Counting sums seen invalid) {i : ℕ} {env : TaskEnv}
    (poll : s.polled (.task i env) = [] ∧ seen' = seen ∨
      s.polled (.task i env) = [seen'.status] ∧ seen.Grows seen')
    (step : s.next (.task i env) = some t) :
    t.Counting sums seen' (invalid + s.rejected (.task i env)) := by
  obtain ⟨pc, shared, control, hpc, hstep, rfl⟩ := next_task step
  obtain ⟨task, one, tally⟩ := h.account
  simp only [polled, rejected, hpc, Option.map_some, Option.getD_some] at poll ⊢
  cases live : pc.live with
  | true =>
    obtain ⟨rfl, left⟩ := filter_resume_alone hpc one live control
    have stepped := TaskPc.step_tally tally poll hstep
    refine ⟨⟨_, left, ?_⟩, h.calls⟩
    cases control with
    | ret value => exact stepped
    | next pc' =>
      cases alive : pc'.live with
      | true =>
        show TaskPc.Tally _ _ _ _ (if pc'.live then some pc' else none)
        rw [if_pos alive]
        exact stepped
      | false =>
        show TaskPc.Tally _ _ _ _ (if pc'.live then some pc' else none)
        rw [if_neg (by simp [alive])]
        cases pc' with
        | giveStopped => exact stepped
        | delete => exact stepped
        | _ => cases alive
  | false =>
    obtain ⟨frames, -, -, -, -, dead⟩ := TaskPc.step_dead live hstep
    have baselines := TaskPc.step_dead_baselines live hstep
    have quiet : pc.polls env = [] ∧ pc.rejects env s.shared = 0 := by
      cases pc with
      | giveStopped => exact ⟨rfl, rfl⟩
      | delete => exact ⟨rfl, rfl⟩
      | _ => cases live
    obtain rfl : seen' = seen := by
      rcases poll with ⟨-, same⟩ | ⟨absurd, -⟩
      · exact same
      · cases quiet.1.symm.trans absurd
    rw [quiet.2, add_zero]
    refine ⟨⟨task, (filter_resume_other hpc live dead).trans one, ?_⟩, h.calls⟩
    refine tally.of_same baselines ?_
    intro counter _
    rw [frames]

theorem call (h : s.Counting sums seen invalid) {i : ℕ} {ok : Bool}
    (kept : s.unreserved (.call i ok) = true) (step : s.next (.call i ok) = some t) :
    t.Counting sums seen invalid := by
  obtain ⟨pc, shared, control, hpc, hstep, rfl⟩ := next_call step
  obtain ⟨task, one, tally⟩ := h.account
  have unreserved : pc.reserves s.shared.lifecycle = false := by
    simpa [System.unreserved, hpc] using kept
  obtain ⟨⟨frames, baselines⟩, created, idle⟩ :=
    CallPc.step_idle (h.calls pc (List.mem_of_getElem? hpc)) unreserved hstep
  refine ⟨⟨task, ?_, ?_⟩, ?_⟩
  · rw [created, List.append_nil]
    exact one
  · refine tally.of_same baselines ?_
    intro counter _
    rw [frames]
  · intro pc' mem
    rcases mem_of_mem_resume hpc mem with old | own
    · exact h.calls pc' old
    · exact idle pc' own

/-- The other threads take what they take from the counters. -/
theorem other (h : s.Counting sums seen invalid) (step : s.next k = some t)
    (noCall : ∀ i ok, k ≠ .call i ok) (noTask : ∀ i env, k ≠ .task i env)
    (calls : ∀ pc ∈ t.calls, pc.idle = true) :
    t.Counting (fun counter => sums counter + s.taken counter k) seen invalid := by
  obtain ⟨task, one, tally⟩ := h.account
  have tasks : t.tasks = s.tasks := by
    cases k with
    | call i ok => exact absurd rfl (noCall i ok)
    | task i env => exact absurd rfl (noTask i env)
    | beginReceive timeoutMs =>
      obtain ⟨-, step⟩ := Option.ite_none_right_eq_some.mp step
      obtain rfl := Option.some.inj step
      rfl
    | consumer granted =>
      obtain ⟨pc, shared, control, -, -, rfl⟩ := next_consumer step
      rfl
    | observer i cas =>
      obtain ⟨operation, pc, -, rfl⟩ := next_observer step
      rfl
    | busOff =>
      obtain ⟨-, rfl⟩ := next_busOff step
      rfl
    | _ =>
      obtain rfl := Option.some.inj step
      rfl
  refine ⟨⟨task, by rw [tasks]; exact one, tally.of_same ?_ ?_⟩, calls⟩
  · exact (next_others .busErrors rfl step noCall noTask).1
  · intro counter own
    rcases (next_others counter own step noCall noTask).2 with ⟨none, same⟩ | ⟨all, emptied⟩
    · rw [none, same, add_zero]
    · rw [all, emptied, add_zero]

theorem next (h : s.Counting sums seen invalid) (kept : s.unreserved k = true)
    (poll : s.polled k = [] ∧ seen' = seen ∨ s.polled k = [seen'.status] ∧ seen.Grows seen')
    (step : s.next k = some t) :
    t.Counting (fun counter => sums counter + s.taken counter k) seen'
      (invalid + s.rejected k) := by
  cases k with
  | task i env =>
    have stepped := h.task poll step
    simpa [taken] using stepped
  | call i ok =>
    obtain rfl : seen' = seen := poll.elim And.right fun absurd => by cases absurd.1
    have stepped := h.call kept step
    simpa [taken, rejected] using stepped
  | beginStart configuration =>
    obtain rfl : seen' = seen := poll.elim And.right fun absurd => by cases absurd.1
    refine h.other step (by simp) (by simp) ?_
    obtain rfl := Option.some.inj step
    intro pc mem
    rcases List.mem_append.mp mem with old | new
    · exact h.calls pc old
    · obtain rfl := List.mem_singleton.mp new
      rfl
  | beginStop =>
    obtain rfl : seen' = seen := poll.elim And.right fun absurd => by cases absurd.1
    refine h.other step (by simp) (by simp) ?_
    obtain rfl := Option.some.inj step
    intro pc mem
    rcases List.mem_append.mp mem with old | new
    · exact h.calls pc old
    · obtain rfl := List.mem_singleton.mp new
      rfl
  | _ =>
    obtain rfl : seen' = seen := poll.elim And.right fun absurd => by cases absurd.1
    have calls := (next_interference step (by simp) (by simp) (by simp)).1
    refine h.other step (by simp) (by simp) ?_
    rw [calls]
    exact h.calls

end Counting

/-- The task that start() creates finds counters and baselines at zero. -/
theorem Emptied.counting (h : s.Emptied) {c : Configuration}
    (creating : s.calls = [.start c .createTask]) (creates : s.next (.call 0 true) = some t) :
    t.Counting 0 {} 0 := by
  have member : .start c .createTask ∈ s.calls := by simp [creating]
  have none := (h.reserved.alone c .createTask member rfl).1
  have blank := h.blank c .createTask member
  obtain ⟨shared, control, hstep, rfl⟩ := next_call_single creating creates
  obtain ⟨inner, inside, rfl⟩ := CallPc.step_start hstep
  obtain ⟨rfl, rfl⟩ := Prod.mk.inj (Option.some.inj inside)
  have dead : s.tasks.filter TaskPc.live = [] := by
    rw [← List.length_eq_zero_iff, ← List.countP_eq_length_filter]
    exact none
  obtain ⟨errors, missed, overrun⟩ := blank.baselines rfl
  refine ⟨⟨some .loopTest, ?_, errors, missed, overrun, ?_, ?_⟩, ?_⟩
  · show (s.tasks ++ [TaskPc.loopTest]).filter TaskPc.live = _
    rw [List.filter_append, dead]
    rfl
  · rw [blank.counters .busErrors rfl rfl]
    rfl
  · rw [blank.counters .driverRxMissed rfl rfl]
    rfl
  · intro pc mem
    obtain rfl := List.mem_singleton.mp mem
    rfl

/-- What the account says of a run whose polls report these counts. -/
theorem exec_counting (start : s.Counting 0 {} 0)
    (run : exec (guarded unreserved next) s ks = some t) {truth : List DriverCounts}
    (reported : truth.map DriverCounts.status = trace (guarded unreserved next) polled s ks)
    (steady : DriverCounts.Steady truth) :
    t.Counting (fun counter => total (guarded unreserved next) (taken counter) s ks)
      (DriverCounts.latest truth) (total (guarded unreserved next) rejected s ks) := by
  refine exec_history (P := fun ks t => ∀ truth : List DriverCounts,
    truth.map DriverCounts.status = trace (guarded unreserved next) polled s ks →
    DriverCounts.Steady truth →
    t.Counting (fun counter => total (guarded unreserved next) (taken counter) s ks)
      (DriverCounts.latest truth) (total (guarded unreserved next) rejected s ks))
    ?_ ?_ run truth reported steady
  · intro truth reported _
    obtain rfl := List.map_eq_nil_iff.mp reported
    exact start
  · intro ks t k u run ih step truth reported steady
    obtain ⟨kept, step⟩ := guarded_eq_some.mp step
    obtain ⟨earlier, last, rfl, old, new⟩ :=
      List.map_eq_append_iff.mp (reported.trans (trace_concat run k))
    simp only [total_concat run k]
    rcases polled_cases t k with none | ⟨status, one⟩
    · obtain rfl := List.map_eq_nil_iff.mp (new.trans none)
      rw [List.append_nil] at steady ⊢
      exact (ih earlier old steady).next kept (.inl ⟨none, rfl⟩) step
    · obtain ⟨counts, rfl, rfl⟩ := List.map_eq_singleton_iff.mp (new.trans one)
      obtain ⟨before, grows⟩ := steady.concat
      have latest : DriverCounts.latest (earlier ++ [counts]) = counts := by
        simp [DriverCounts.latest]
      rw [latest]
      exact (ih earlier old before).next kept (.inr ⟨one, grows⟩) step

/-- From the creation of its task by start(), with one task at a time, until a start()
reserves the controller again: if the driver's counters start at zero and grow by less than
`2 ^ 32` between polls, then whenever the task owes nothing to the counters, what the resets
took and what the ring shows is the driver's own count at the last poll. The resets have
returned what they took, but for those in progress. -/
theorem driver_counters_exact {c : Configuration} {first : System w}
    (before : exec (guarded oneTask next) ({} : System w) ks = some s)
    (creating : s.calls = [.start c .createTask]) (creates : s.next (.call 0 true) = some first)
    (run : exec (guarded unreserved next) first ls = some t) {truth : List DriverCounts}
    (reported : truth.map DriverCounts.status = trace (guarded unreserved next) polled first ls)
    (steady : DriverCounts.Steady truth) (settled : ∀ pc ∈ t.tasks, pc.settled = true) :
    total (guarded unreserved next) (taken .busErrors) first ls +
          t.shared.frames.counters .busErrors =
        BitVec.ofNat 64 (DriverCounts.latest truth).busErrors ∧
      total (guarded unreserved next) (taken .driverRxMissed) first ls +
          t.shared.frames.counters .driverRxMissed =
        BitVec.ofNat 64 ((DriverCounts.latest truth).rxMissed +
          (DriverCounts.latest truth).rxOverrun +
          total (guarded unreserved next) rejected first ls) ∧
      ∀ counter, held counter first + total (guarded unreserved next) (taken counter) first ls =
        total (guarded unreserved next) (System.reported counter) first ls + held counter t := by
  have unread : first.Unread := by
    have fresh : ({} : System w).Unread := by
      intro o mem
      cases mem
    refine Unread.next (exec_invariant (P := Unread) ?_ before fresh) creates
    exact fun _ _ _ h step => h.next (guarded_eq_some.mp step).2
  have start := (exec_emptied before).counting creating creates
  obtain ⟨task, one, tally⟩ := (exec_counting start run reported steady).account
  have credited : t.shared.Credited
      (fun counter => total (guarded unreserved next) (taken counter) first ls)
      (DriverCounts.latest truth) (DriverCounts.latest truth).busErrors
      ((DriverCounts.latest truth).lost + total (guarded unreserved next) rejected first ls) := by
    cases task with
    | none => exact tally
    | some pc =>
      have member : pc ∈ t.tasks.filter TaskPc.live := by simp [one]
      rw [← TaskPc.tally_of_settled (settled pc (List.mem_filter.mp member).1)]
      exact tally
  refine ⟨credited.errors, credited.missed, fun counter => ?_⟩
  refine total_balance (P := Unread) ?_ unread run
  intro s k t h step
  have moved := (guarded_eq_some.mp step).2
  exact ⟨h.next moved, next_reported counter h moved⟩

/-- One round of the task in which the driver reports this status. -/
def pollRun (status : TwaiStatus) : List Choice :=
  .task 0 {} :: .task 0 {} :: .task 0 { status := some status } :: List.replicate 4 (.task 0 {})

/-- A poll just below the wrap, a reset, an invalid message, and a poll behind the wrap. -/
def wrappingPollsRun : List Choice :=
  .call 0 true :: pollRun { busErrorCount := 4294967295 } ++
    .beginStatistics .snapshotAndReset :: List.replicate 9 (.observer 0 true) ++
    [.task 0 {}, .task 0 { received := .message { dataLengthCode := 9 } }, .task 0 {}, .task 0 {},
      .task 0 { status := some { busErrorCount := 5, rxMissedCount := 2, rxOverrunCount := 1 } }] ++
    List.replicate 4 (.task 0 {})

def wrappingPolls : List DriverCounts :=
  [{ busErrors := 4294967295 }, { busErrors := 4294967301, rxMissed := 2, rxOverrun := 1 }]

theorem driver_counters_exact_wrapping :
    let first := final next creating [.call 0 true]
    let last := final (guarded unreserved next) first wrappingPollsRun
    last.shared.frames.counters .busErrors = 6 ∧
      total (guarded unreserved next) (System.reported .busErrors) first wrappingPollsRun +
          held .busErrors last = 4294967295 ∧
      total (guarded unreserved next) (taken .busErrors) first wrappingPollsRun +
          last.shared.frames.counters .busErrors = BitVec.ofNat 64 4294967301 ∧
        total (guarded unreserved next) (taken .driverRxMissed) first wrappingPollsRun +
          last.shared.frames.counters .driverRxMissed =
            BitVec.ofNat 64 (2 + 1 +
              total (guarded unreserved next) rejected first wrappingPollsRun) := by
  have before := exec_eq_final (guarded oneTask next) ({} : System 32) creatingRun (by decide)
  have atCreation : ∃ c, creating.calls = [.start c .createTask] := ⟨_, rfl⟩
  obtain ⟨c, atCreation⟩ := atCreation
  have creates := next_eq_final next creating (.call 0 true) (by decide)
  have run := exec_eq_final (guarded unreserved next) (final next creating [.call 0 true])
    wrappingPollsRun (by decide)
  have steady : DriverCounts.Steady wrappingPolls := by
    refine .cons_cons ⟨?_, ?_, ?_⟩ (.cons_cons ⟨?_, ?_, ?_⟩ (.singleton _)) <;> decide
  have reported : wrappingPolls.map DriverCounts.status = trace (guarded unreserved next) polled
      (final next creating [.call 0 true]) wrappingPollsRun := by decide
  obtain ⟨errors, missed, returned⟩ :=
    driver_counters_exact before atCreation creates run reported steady (by decide)
  have books := returned .busErrors
  have noReset : held .busErrors (final next creating [.call 0 true]) = 0 := by decide
  have taken : total (guarded unreserved next) (taken .busErrors)
      (final next creating [.call 0 true]) wrappingPollsRun = 4294967295 := by decide
  rw [noReset, taken, zero_add] at books
  exact ⟨by decide, books.symm, errors, missed⟩

end System

end CanTelemetry.CanBus
