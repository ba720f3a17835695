import CanTelemetry.CanBus.Ownership

/-! The serialized system keeps the outline of the call in progress, whatever the tasks do
and whatever the driver and the RTOS return. From it follow the ownership invariant, the
conditions under which the driver is called, and what a stop() can return. -/

namespace CanTelemetry.CanBus

open Execution Threads

variable {w : ℕ}

namespace System

variable {s t u : System w} {k : Choice} {ks : List Choice}

/-- At most one call is in progress, and its outline holds. -/
def Outlined (s : System w) : Prop :=
  match s.calls with
  | [] => s.shared.lifecycle.Sound
  | [pc] => pc.Outline s.shared.lifecycle
  | _ => False

theorem Outlined.sound (h : s.Outlined) : s.shared.lifecycle.Sound := by
  unfold Outlined at h
  split at h
  · exact h
  · exact h.sound
  · exact h.elim

theorem Outlined.outline (h : s.Outlined) {pc : CallPc w} (hpc : pc ∈ s.calls) :
    s.calls = [pc] ∧ pc.Outline s.shared.lifecycle := by
  unfold Outlined at h
  split at h
  case h_1 empty => rw [empty] at hpc; cases hpc
  case h_2 pc' single =>
    rw [single, List.mem_singleton] at hpc
    obtain rfl := hpc
    exact ⟨single, h⟩
  case h_3 => exact h.elim

theorem outlined_nil (empty : s.calls = []) : s.Outlined ↔ s.shared.lifecycle.Sound := by
  unfold Outlined
  rw [empty]

theorem outlined_single {pc : CallPc w} (single : s.calls = [pc]) :
    s.Outlined ↔ pc.Outline s.shared.lifecycle := by
  unfold Outlined
  rw [single]

/-- Steps of the other threads keep the outline. -/
theorem Outlined.stable (h : s.Outlined) (calls : t.calls = s.calls)
    (other : Interference s.shared.lifecycle t.shared.lifecycle) : t.Outlined := by
  unfold Outlined at h ⊢
  rw [calls]
  split at h
  · exact other.sound h
  · exact h.stable other
  · exact h

/-- What the threads other than the calls do, seen from the calls. -/
theorem next_interference (step : s.next k = some t)
    (other : ∀ i ok, k ≠ .call i ok) (begins : ∀ c, k ≠ .beginStart c) (stops : k ≠ .beginStop) :
    t.calls = s.calls ∧ Interference s.shared.lifecycle t.shared.lifecycle := by
  cases k with
  | beginStart c => exact absurd rfl (begins c)
  | beginStop => exact absurd rfl stops
  | call i ok => exact absurd rfl (other i ok)
  | task i env =>
    obtain ⟨pc, shared, control, -, hstep, rfl⟩ := next_task step
    exact ⟨rfl, TaskPc.step_interference hstep⟩
  | beginReceive timeoutMs =>
    obtain ⟨-, step⟩ := Option.ite_none_right_eq_some.mp step
    obtain rfl := Option.some.inj step
    exact ⟨rfl, .refl _⟩
  | consumer granted =>
    obtain ⟨pc, shared, control, -, hstep, rfl⟩ := next_consumer step
    refine ⟨rfl, ?_⟩
    show Interference _ shared.lifecycle
    rw [ReceivePc.step_lifecycle hstep]
    exact .refl _
  | beginStatistics | observer | busOff =>
    obtain ⟨frames, driver, observers, -, rfl⟩ := next_beside rfl step
    exact ⟨rfl, .refl _⟩

theorem next_outlined (h : s.Outlined) (serial : s.serialized k = true)
    (step : s.next k = some t) : t.Outlined := by
  cases k with
  | beginStart configuration =>
    obtain rfl := Option.some.inj step
    have empty : s.calls = [] := List.isEmpty_iff.mp serial
    rw [outlined_nil empty] at h
    rw [outlined_single (by rw [empty]; rfl)]
    exact ⟨h, .nothing _, trivial⟩
  | beginStop =>
    obtain rfl := Option.some.inj step
    have empty : s.calls = [] := List.isEmpty_iff.mp serial
    rw [outlined_nil empty] at h
    rw [outlined_single (by rw [empty]; rfl)]
    exact ⟨h, .nothing _, trivial⟩
  | call i ok =>
    obtain ⟨pc, -, -, hpc, -, -⟩ := next_call step
    obtain ⟨single, outline⟩ := h.outline (List.mem_of_getElem? hpc)
    obtain ⟨shared, control, hstep, rfl⟩ := next_call_single single step
    have after := CallPc.step_outline outline hstep
    cases control with
    | next pc' =>
      rw [outlined_single (rfl : _ = [pc'])]
      exact after
    | ret result =>
      rw [outlined_nil rfl]
      exact after
  | _ =>
    obtain ⟨calls, other⟩ := next_interference step (by simp) (by simp) (by simp)
    exact h.stable calls other

/-- Every serialized run from a fresh component keeps the outline. -/
theorem exec_outlined (run : exec (guarded serialized next) ({} : System w) ks = some s) :
    s.Outlined := by
  refine exec_invariant (P := Outlined) ?_ run ?_
  · intro s k t h step
    obtain ⟨serial, step⟩ := guarded_eq_some.mp step
    exact next_outlined h serial step
  · exact ⟨by simp, by simp, fun _ => ⟨rfl, rfl, rfl⟩⟩

end System

/-! ### What a stop() returns -/

theorem StopPc.step_returns {sh sh' : Shared w} {ok : Bool} {pc : StopPc} {result : Result}
    (h : (CallPc.stop (w := w) pc).Outline sh.lifecycle)
    (step : pc.step sh ok = some (sh', .ret result)) :
    (∃ p, pc = .begin p) ∧ result = .notStarted ∧ sh.lifecycle.state = .stopped ∧ sh' = sh ∨
      (∀ p, pc ≠ .begin p) ∧ result ≠ .notStarted ∧
        (result = .ok ↔ sh'.lifecycle.state = .stopped) := by
  cases pc with
  | begin pc =>
    obtain ⟨rfl, same⟩ := Prod.mk.inj (Option.some.inj step)
    left
    rcases pc.step_cases sh.lifecycle ok with looked | ⟨live, marked⟩
    · rw [looked] at same ⊢
      cases state : sh.lifecycle.state with
      | stopped =>
        rw [state] at same
        obtain rfl := Control.ret.inj same
        exact ⟨⟨pc, rfl⟩, rfl, rfl, rfl⟩
      | _ => rw [state] at same; cases same
    · rw [marked] at same
      cases same
  | reconcile pc driverStopped taskStopped driverUninstalled =>
    obtain ⟨rfl, same⟩ := Prod.mk.inj (Option.some.inj step)
    cases pc with
    | store target =>
      simp only [ReconcilePc.step, Control.call_ret] at same
      split at same
      case isTrue => cases same
      case isFalse unfinished =>
        obtain rfl := Control.ret.inj same
        have live : target ≠ .stopped := mt h.consistent.mp unfinished
        refine .inr ⟨by simp, ?_, ?_⟩
        · split <;> simp
        · show _ ↔ target = .stopped
          simp only [live, iff_false]
          split <;> simp
    | _ => cases same
  | drainAvailable =>
    have stopped : sh.lifecycle.state = .stopped := by
      by_contra live
      exact absurd ((h.knows.active false rfl).mp live) (by simp)
    simp only [StopPc.step] at step
    split at step
    · obtain ⟨rfl, same⟩ := Prod.mk.inj (Option.some.inj step)
      obtain rfl := Control.ret.inj same
      exact .inr ⟨by simp, by simp, fun _ => stopped, fun _ => rfl⟩
    · rcases takeNow_eq_some step with ⟨s, s', -, -, same⟩ | ⟨s, -, -, same⟩
      · cases (Prod.mk.inj same).2
      · obtain ⟨rfl, ended⟩ := Prod.mk.inj same
        obtain rfl := Control.ret.inj ended
        exact .inr ⟨by simp, by simp, fun _ => stopped, fun _ => rfl⟩
  | driverStop => cases ok <;> cases (Prod.mk.inj (Option.some.inj step)).2
  | driverUninstall => cases ok <;> cases (Prod.mk.inj (Option.some.inj step)).2
  | awaitTask driverStopped =>
    rcases takeWithin_eq_some step with ⟨s, s', -, -, -, same⟩ | ⟨-, same⟩ <;>
      cases (Prod.mk.inj same).2
  | dropToken driverStopped =>
    rcases takeNow_eq_some step with ⟨s, s', -, -, same⟩ | ⟨s, -, -, same⟩ <;>
      cases (Prod.mk.inj same).2
  | _ => cases (Prod.mk.inj (Option.some.inj step)).2

/-- Only looking at the state leads to another turn of `begin_stop`. -/
theorem StopPc.step_to_begin {sh sh' : Shared w} {ok : Bool} {pc : StopPc} {p : BeginStopPc}
    (step : pc.step sh ok = some (sh', .next (.begin p))) :
    ∃ q, pc = .begin q ∧ sh'.lifecycle = sh.lifecycle := by
  cases pc with
  | begin pc =>
    obtain ⟨rfl, same⟩ := Prod.mk.inj (Option.some.inj step)
    refine ⟨pc, rfl, ?_⟩
    rcases pc.step_cases sh.lifecycle ok with looked | ⟨live, marked⟩
    · show (pc.step sh.lifecycle ok).1 = _
      rw [looked]
    · rw [marked] at same
      cases same
  | loadStarted =>
    have same := (Prod.mk.inj (Option.some.inj step)).2
    cases started : sh.lifecycle.driverStarted <;> simp [started] at same
  | loadOwned driverStopped =>
    have same := (Prod.mk.inj (Option.some.inj step)).2
    cases owned : sh.lifecycle.taskOwned <;> simp [owned] at same
  | loadInstalled driverStopped taskStopped =>
    have same := (Prod.mk.inj (Option.some.inj step)).2
    split at same <;> cases same
  | reconcile pc driverStopped taskStopped driverUninstalled =>
    have same := (Prod.mk.inj (Option.some.inj step)).2
    cases pc with
    | store target =>
      simp only [ReconcilePc.step, Control.call_ret] at same
      split at same <;> cases same
    | _ => cases same
  | drainAvailable =>
    simp only [StopPc.step] at step
    split at step
    · cases (Prod.mk.inj (Option.some.inj step)).2
    · rcases takeNow_eq_some step with ⟨s, s', -, -, same⟩ | ⟨s, -, -, same⟩ <;>
        cases (Prod.mk.inj same).2
  | driverStop => cases ok <;> cases (Prod.mk.inj (Option.some.inj step)).2
  | driverUninstall => cases ok <;> cases (Prod.mk.inj (Option.some.inj step)).2
  | awaitTask driverStopped =>
    rcases takeWithin_eq_some step with ⟨s, s', -, -, -, same⟩ | ⟨-, same⟩ <;>
      cases (Prod.mk.inj same).2
  | dropToken driverStopped =>
    rcases takeNow_eq_some step with ⟨s, s', -, -, same⟩ | ⟨s, -, -, same⟩ <;>
      cases (Prod.mk.inj same).2
  | _ => cases (Prod.mk.inj (Option.some.inj step)).2

/-- The points of a stop() in which everything has gone well so far. -/
def StopPc.onTrack : StopPc → Bool
  | .loadOwned driverStopped | .awaitTask driverStopped | .acknowledge driverStopped
  | .dropToken driverStopped => driverStopped
  | .loadInstalled driverStopped taskStopped => driverStopped && taskStopped
  | .reconcile _ driverStopped taskStopped driverUninstalled =>
    driverStopped && taskStopped && driverUninstalled
  | _ => true

def StopPc.StaysOnTrack : Control StopPc Result → Prop
  | .next pc => pc.onTrack = true
  | .ret result => result = .notStarted ∨ result = .ok

/-- A stop() whose driver calls succeed and whose task acknowledges stays on track to Ok. -/
theorem StopPc.step_onTrack {sh sh' : Shared w} {ok : Bool} {pc : StopPc}
    {control : Control StopPc Result} (track : pc.onTrack = true)
    (well : ((CallPc.stop (w := w) pc).driverCall.isNone && !(CallPc.stop (w := w) pc).awaits
      || ok) = true)
    (step : pc.step sh ok = some (sh', control)) : StaysOnTrack control := by
  cases pc with
  | begin pc =>
    obtain ⟨rfl, rfl⟩ := Prod.mk.inj (Option.some.inj step)
    rcases pc.step_cases sh.lifecycle ok with looked | ⟨live, marked⟩
    · rw [looked]
      cases sh.lifecycle.state with
      | stopped => exact .inl rfl
      | _ => rfl
    · rw [marked]
      rfl
  | loadStarted =>
    obtain ⟨rfl, rfl⟩ := Prod.mk.inj (Option.some.inj step)
    cases sh.lifecycle.driverStarted <;> rfl
  | driverStop =>
    obtain rfl : ok = true := well
    obtain ⟨rfl, rfl⟩ := Prod.mk.inj (Option.some.inj step)
    rfl
  | loadOwned driverStopped =>
    obtain ⟨rfl, rfl⟩ := Prod.mk.inj (Option.some.inj step)
    cases sh.lifecycle.taskOwned <;> exact track
  | awaitTask driverStopped =>
    obtain rfl : ok = true := well
    rcases takeWithin_eq_some step with ⟨s, s', -, -, -, same⟩ | ⟨absurd, -⟩
    · obtain ⟨rfl, rfl⟩ := Prod.mk.inj same
      exact track
    · cases absurd
  | acknowledge driverStopped =>
    obtain ⟨rfl, rfl⟩ := Prod.mk.inj (Option.some.inj step)
    obtain rfl : driverStopped = true := track
    rfl
  | dropToken driverStopped =>
    obtain rfl : driverStopped = true := track
    rcases takeNow_eq_some step with ⟨s, s', -, -, same⟩ | ⟨s, -, -, same⟩ <;>
      obtain ⟨rfl, rfl⟩ := Prod.mk.inj same <;>
      rfl
  | loadInstalled driverStopped taskStopped =>
    obtain ⟨rfl, rfl⟩ := Prod.mk.inj (Option.some.inj step)
    obtain ⟨rfl, rfl⟩ : driverStopped = true ∧ taskStopped = true := by
      simpa [onTrack] using track
    cases installed : sh.lifecycle.driverInstalled <;>
      simp [StaysOnTrack, onTrack]
  | driverUninstall =>
    obtain rfl : ok = true := well
    obtain ⟨rfl, rfl⟩ := Prod.mk.inj (Option.some.inj step)
    rfl
  | reconcile pc driverStopped taskStopped driverUninstalled =>
    obtain ⟨rfl, rfl⟩ := Prod.mk.inj (Option.some.inj step)
    obtain ⟨⟨rfl, rfl⟩, rfl⟩ :
      (driverStopped = true ∧ taskStopped = true) ∧ driverUninstalled = true := by
      simpa [onTrack] using track
    cases pc <;> rfl
  | drainAvailable =>
    simp only [StopPc.step] at step
    split at step
    · obtain ⟨rfl, rfl⟩ := Prod.mk.inj (Option.some.inj step)
      exact .inr rfl
    · rcases takeNow_eq_some step with ⟨s, s', -, -, same⟩ | ⟨s, -, -, same⟩ <;>
        obtain ⟨rfl, rfl⟩ := Prod.mk.inj same
      · rfl
      · exact .inr rfl
  | _ =>
    obtain ⟨rfl, rfl⟩ := Prod.mk.inj (Option.some.inj step)
    rfl

namespace System

variable {s t u : System w} {k : Choice} {ks : List Choice} {result : Result}

/-- From `s`, with no call in progress, a stop() runs through `ks`, which holds the other
threads' steps as well, and its step `k` returns in `t`; every choice meets `cond`. -/
structure StopCall (cond : System w → Choice → Bool) (s : System w) (ks : List Choice)
    (k : Choice) (result : Result) (t : System w) : Prop where
  quiescent : s.calls = []
  returns : ∃ u, exec (guarded (fun s k => withinCall s k && cond s k) next)
      { s with calls := [.stop (.begin .load)] } ks = some u ∧
    cond u k = true ∧ u.returned k = some result ∧ u.next k = some t

/-- The stop() that began the run is in progress or has returned. -/
def Within (s : System w) : Prop := s.calls = [] ∨ ∃ pc, s.calls = [.stop pc]

/-- During a stop(), a step is one of another thread or its own. -/
theorem Within.cases (h : s.Within) (within : s.withinCall k = true) (step : s.next k = some t) :
    ((∀ i ok, k ≠ .call i ok) ∧ t.calls = s.calls ∧
        Interference s.shared.lifecycle t.shared.lifecycle) ∨
      ∃ i ok pc shared inner, k = .call i ok ∧ s.calls = [.stop pc] ∧
        s.calls[i]? = some (.stop pc) ∧ pc.step s.shared ok = some (shared, inner) ∧
        t = { s with
          shared := shared
          calls := (inner.call .stop .ret : Control (CallPc w) Result).live
          tasks := s.tasks ++ (CallPc.stop (w := w) pc).created ok } := by
  by_cases called : ∃ i ok, k = .call i ok
  · right
    obtain ⟨i, ok, rfl⟩ := called
    obtain ⟨pc', -, -, found, -, -⟩ := next_call step
    rcases h with none | ⟨pc, calls⟩
    · simp [none] at found
    · obtain ⟨rfl, -⟩ := resume_singleton (ρ := Result) (calls ▸ found)
      obtain ⟨shared, control, hstep, rfl⟩ := next_call_single calls step
      obtain ⟨inner, inside, rfl⟩ := CallPc.step_stop hstep
      exact ⟨i, ok, pc, shared, inner, rfl, calls, found, inside, rfl⟩
  · left
    have other : ∀ i ok, k ≠ .call i ok := fun i ok same => called ⟨i, ok, same⟩
    exact ⟨other, next_interference step other (by rintro c rfl; cases within)
      (by rintro rfl; cases within)⟩

theorem Within.next (h : s.Within) (within : s.withinCall k = true) (step : s.next k = some t) :
    t.Within := by
  rcases h.cases within step with ⟨-, calls, -⟩ | ⟨i, ok, pc, shared, inner, rfl, -, -, -, rfl⟩
  · unfold Within
    rw [calls]
    exact h
  · cases inner with
    | next pc' => exact .inr ⟨pc', rfl⟩
    | ret result => exact .inl rfl

/-- Steps of the other threads do not depend on the calls in progress. -/
theorem next_withCalls (h : s.next k = some t) (other : ∀ i ok, k ≠ .call i ok)
    (begins : ∀ c, k ≠ .beginStart c) (stops : k ≠ .beginStop) (calls : List (CallPc w)) :
    next { s with calls := calls } k = some { t with calls := calls } := by
  cases k with
  | beginStart c => exact absurd rfl (begins c)
  | beginStop => exact absurd rfl stops
  | call i ok => exact absurd rfl (other i ok)
  | task i env =>
    obtain ⟨pc, shared, control, hpc, hstep, rfl⟩ := next_task h
    simp [next, hpc, hstep]
  | beginReceive timeoutMs =>
    obtain ⟨free, h⟩ := Option.ite_none_right_eq_some.mp h
    obtain rfl := Option.some.inj h
    simp [next, free]
  | consumer granted =>
    obtain ⟨pc, shared, control, hpc, hstep, rfl⟩ := next_consumer h
    simp [next, hpc, hstep]
  | beginStatistics operation =>
    obtain rfl := Option.some.inj h
    rfl
  | observer i cas =>
    obtain ⟨operation, pc, hpc, rfl⟩ := next_observer h
    simp [next, hpc]
  | busOff =>
    obtain ⟨running, rfl⟩ := next_busOff h
    simp [next, running]

/-- How far a stop() has come: it has not looked at the state yet, and then the run so far
is one of the other threads alone; or it has found the component not stopped; or it is over. -/
inductive StopStage (s : System w) (ks : List Choice) (u : System w) : Prop
  | waiting (calls : u.calls = [.stop (.begin .load)])
      (untouched : exec next s ks = some { u with calls := [] })
      (state : u.shared.lifecycle.state = .stopped ↔ s.shared.lifecycle.state = .stopped)
  | begun (pc : StopPc) (calls : u.calls = [.stop pc]) (live : s.shared.lifecycle.state ≠ .stopped)
      (state : ∀ p, pc = .begin p → u.shared.lifecycle.state ≠ .stopped)
  | ended (calls : u.calls = [])

theorem StopStage.within (h : StopStage s ks u) : u.Within := by
  cases h with
  | waiting calls => exact .inr ⟨_, calls⟩
  | begun pc calls => exact .inr ⟨pc, calls⟩
  | ended calls => exact .inl calls

theorem StopStage.next {s u t : System w} (h : StopStage s ks u)
    (within : withinCall u k = true) (step : u.next k = some t) : StopStage s (ks ++ [k]) t := by
  rcases h.within.cases within step with ⟨other, calls', interference⟩ |
    ⟨i, ok, pc', shared, inner, rfl, single, -, inside, rfl⟩
  · cases h with
    | waiting calls untouched state =>
      have begins : ∀ c, k ≠ .beginStart c := by rintro c rfl; cases within
      have stops : k ≠ .beginStop := by rintro rfl; cases within
      refine .waiting (calls'.trans calls) ?_ (interference.stopped_iff.trans state)
      exact exec_concat_eq_some.mpr ⟨_, untouched, next_withCalls step other begins stops []⟩
    | begun pc calls live state =>
      exact .begun pc (calls'.trans calls) live fun p hp => mt interference.stopped_iff.mp (state p hp)
    | ended calls => exact .ended (calls'.trans calls)
  · cases h with
    | waiting calls untouched state =>
      obtain rfl : pc' = .begin .load := by simpa [calls] using single.symm
      obtain ⟨rfl, rfl⟩ := Prod.mk.inj (Option.some.inj inside)
      have found_live (found : u.shared.lifecycle.state ≠ .stopped) :
          s.shared.lifecycle.state ≠ .stopped := mt state.mpr found
      simp only [BeginStopPc.step]
      cases found : u.shared.lifecycle.state with
      | stopped => exact .ended rfl
      | stopping => exact .begun .unrequest rfl (found_live (by simp [found])) (by simp)
      | running => exact .begun _ rfl (found_live (by simp [found])) fun _ _ => by simp [found]
      | faulted => exact .begun _ rfl (found_live (by simp [found])) fun _ _ => by simp [found]
    | begun pc calls live state =>
      obtain rfl : pc' = pc := by simpa [calls] using single.symm
      cases inner with
      | ret result => exact .ended rfl
      | next pc' =>
        refine .begun pc' rfl live ?_
        rintro p rfl
        obtain ⟨q, rfl, same⟩ := StopPc.step_to_begin inside
        show shared.lifecycle.state ≠ .stopped
        rw [same]
        exact state q rfl
    | ended calls => simp [calls] at single

theorem serialized_of_within (within : withinCall s k = true) : s.serialized k = true := by
  cases k with
  | beginStart c => cases within
  | beginStop => cases within
  | _ => rfl

/-- The call that returns is the one in progress. -/
theorem returned_call (h : u.Outlined) (returned : u.returned k = some result)
    (step : u.next k = some t) :
    ∃ ok pc shared, u.calls = [pc] ∧ pc.Outline u.shared.lifecycle ∧
      pc.step u.shared ok = some (shared, .ret result) ∧
      t = { u with shared := shared, calls := [], tasks := u.tasks ++ pc.created ok } := by
  cases k with
  | call i ok =>
    obtain ⟨pc, -, -, hpc, -, -⟩ := next_call step
    obtain ⟨single, outline⟩ := h.outline (List.mem_of_getElem? hpc)
    obtain ⟨shared, control, hstep, rfl⟩ := next_call_single single step
    simp only [System.returned, hpc, hstep, Option.bind_some] at returned
    cases control with
    | next pc' => cases returned
    | ret value =>
      obtain rfl := Option.some.inj returned
      exact ⟨ok, pc, shared, single, outline, hstep, rfl⟩
  | _ => cases returned

namespace StopCall

variable {cond : System w → Choice → Bool}

/-- The state in which a stop() makes its last step. -/
theorem reaches (h : s.Outlined) (call : StopCall cond s ks k result t) :
    ∃ u, u.Outlined ∧ StopStage s ks u ∧ u.returned k = some result ∧ u.next k = some t := by
  obtain ⟨quiescent, u, run, -, returned, step⟩ := call
  refine ⟨u, ?_, ?_, returned, step⟩
  · refine exec_invariant (P := Outlined) ?_ run ?_
    · intro s k t h step
      obtain ⟨within, step⟩ := guarded_eq_some.mp step
      rw [Bool.and_eq_true] at within
      exact next_outlined h (serialized_of_within within.1) step
    · rw [outlined_single rfl]
      exact ⟨h.sound, .nothing _, trivial⟩
  · refine exec_history ?_ ?_ run
    · refine .waiting rfl ?_ Iff.rfl
      rw [exec_nil, ← quiescent]
    · intro ks t k u _ stage step
      obtain ⟨within, step⟩ := guarded_eq_some.mp step
      rw [Bool.and_eq_true] at within
      exact stage.next within.1 step

theorem sound (h : s.Outlined) (call : StopCall cond s ks k result t) :
    t.shared.lifecycle.Sound := by
  obtain ⟨u, outlined, -, returned, step⟩ := call.reaches h
  obtain ⟨ok, pc, shared, -, outline, hstep, rfl⟩ := returned_call outlined returned step
  exact CallPc.step_outline outline hstep

/-- At its last step a stop() either has not touched anything or had work to do. -/
theorem last (h : s.Outlined) (call : StopCall cond s ks k result t) :
    (result = .notStarted ∧ s.shared.lifecycle.state = .stopped ∧ exec next s ks = some t) ∨
      (result ≠ .notStarted ∧ s.shared.lifecycle.state ≠ .stopped ∧
        (result = .ok ↔ t.shared.lifecycle.state = .stopped)) := by
  obtain ⟨u, outlined, stage, returned, step⟩ := call.reaches h
  obtain ⟨ok, pc, shared, single, outline, hstep, rfl⟩ := returned_call outlined returned step
  cases stage with
  | ended calls =>
    rw [single] at calls
    cases calls
  | waiting calls untouched state =>
    rw [single] at calls
    obtain rfl := List.singleton_inj.mp calls
    obtain ⟨inner, inside, same⟩ := CallPc.step_stop hstep
    cases inner with
    | next pc => cases same
    | ret value =>
      obtain rfl := Control.ret.inj same
      rcases StopPc.step_returns outline inside with ⟨-, rfl, stopped, rfl⟩ | ⟨working, -⟩
      · refine .inl ⟨rfl, state.mp stopped, ?_⟩
        rw [untouched]
        simp [CallPc.created]
      · exact absurd rfl (working _)
  | begun pc' calls live state =>
    rw [single] at calls
    obtain rfl := List.singleton_inj.mp calls
    obtain ⟨inner, inside, same⟩ := CallPc.step_stop hstep
    cases inner with
    | next pc => cases same
    | ret value =>
      obtain rfl := Control.ret.inj same
      rcases StopPc.step_returns outline inside with ⟨⟨p, rfl⟩, -, stopped, -⟩ | ⟨-, worked, finished⟩
      · exact absurd stopped (state p rfl)
      · exact .inr ⟨worked, live, finished⟩

/-- The stop() in progress is on track, or is over. -/
def OnTrack (u : System w) : Prop :=
  u.calls = [] ∨ ∃ pc, u.calls = [.stop pc] ∧ pc.onTrack = true

theorem OnTrack.next {u t : System w} (h : OnTrack u) (within : withinCall u k = true)
    (well : succeeding u k = true) (step : u.next k = some t) : OnTrack t := by
  have inside : u.Within := h.imp_right fun ⟨pc, calls, _⟩ => ⟨pc, calls⟩
  rcases inside.cases within step with ⟨-, calls, -⟩ |
    ⟨i, ok, pc', shared, inner, rfl, single, found, inside, rfl⟩
  · unfold OnTrack
    rw [calls]
    exact h
  · rcases h with calls | ⟨pc, calls, track⟩
    · simp [calls] at single
    · obtain rfl : pc' = pc := by simpa [calls] using single.symm
      simp only [succeeding, found, Option.map_some, Option.getD_some] at well
      have stays := StopPc.step_onTrack track well inside
      cases inner with
      | next pc => exact .inr ⟨pc, rfl, stays⟩
      | ret result => exact .inl rfl

/-- When everything that a stop() asks for succeeds, it ends with Ok or had nothing to do. -/
theorem succeeds (call : StopCall succeeding s ks k result t) :
    result = .notStarted ∨ result = .ok := by
  obtain ⟨quiescent, u, run, well, returned, step⟩ := call
  have track : OnTrack u := by
    refine exec_invariant (P := OnTrack) ?_ run (.inr ⟨_, rfl, rfl⟩)
    intro s k t h step
    obtain ⟨within, step⟩ := guarded_eq_some.mp step
    rw [Bool.and_eq_true] at within
    exact h.next within.1 within.2 step
  cases k with
  | call i ok =>
    obtain ⟨pc, -, -, hpc, -, -⟩ := next_call step
    rcases track with calls | ⟨pc', calls, track⟩
    · simp [calls] at hpc
    · obtain ⟨rfl, -⟩ := resume_singleton (ρ := Result) (calls ▸ hpc)
      obtain ⟨shared, control, hstep, -⟩ := next_call_single calls step
      obtain ⟨inner, inside, rfl⟩ := CallPc.step_stop hstep
      simp only [succeeding, hpc, Option.map_some, Option.getD_some] at well
      have stays := StopPc.step_onTrack track well inside
      simp only [System.returned, hpc, Option.bind_some, hstep] at returned
      cases inner with
      | next pc => cases returned
      | ret value =>
        obtain rfl := Option.some.inj returned
        exact stays
  | _ => cases returned

end StopCall

/-- The driver is called only in the state of ownership that the call is made for. -/
theorem Outlined.driverCall (h : s.Outlined) {pc : CallPc w} (hpc : pc ∈ s.calls) :
    (pc.driverCall = some .install → s.shared.lifecycle.driverInstalled = false) ∧
      (pc.driverCall = some .stop → s.shared.lifecycle.driverStarted = true) ∧
      (pc.driverCall = some .uninstall → s.shared.lifecycle.driverInstalled = true ∧
        s.shared.lifecycle.driverStarted = false ∧ s.shared.lifecycle.taskOwned = false) := by
  obtain ⟨-, -, known, -⟩ := h.outline hpc
  cases pc with
  | start configuration pc =>
    cases pc with
    | driverInstall => exact ⟨fun _ => known.installed false rfl, by rintro ⟨⟩, by rintro ⟨⟩⟩
    | driverStop => exact ⟨by rintro ⟨⟩, fun _ => known.started true rfl, by rintro ⟨⟩⟩
    | driverUninstall result =>
      exact ⟨by rintro ⟨⟩, by rintro ⟨⟩,
        fun _ => ⟨known.installed true rfl, known.started false rfl, known.disowned rfl⟩⟩
    | _ => exact ⟨by rintro ⟨⟩, by rintro ⟨⟩, by rintro ⟨⟩⟩
  | stop pc =>
    cases pc with
    | driverStop => exact ⟨by rintro ⟨⟩, fun _ => known.started true rfl, by rintro ⟨⟩⟩
    | driverUninstall =>
      exact ⟨by rintro ⟨⟩, by rintro ⟨⟩,
        fun _ => ⟨known.installed true rfl, known.started false rfl, known.disowned rfl⟩⟩
    | _ => exact ⟨by intros; contradiction, by intros; contradiction, by intros; contradiction⟩

/-- One undisturbed successful start(). -/
def startRun : List Choice := .beginStart {} :: List.replicate 36 (.call 0 true)

/-- A stop() during which the receive task leaves its loop, up to its last step. -/
def stopRun : List Choice :=
  List.replicate 6 (.call 0 true) ++ List.replicate 4 (.task 0 {}) ++
    List.replicate 8 (.call 0 true)

end System

end CanTelemetry.CanBus
