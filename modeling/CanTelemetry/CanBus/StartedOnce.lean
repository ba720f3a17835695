import CanTelemetry.CanBus.RingUse

/-! A bus that is started once. Its stop() can only be granted the token of the one task there
is, and that task gives it when it has left its loop. So a caller that serializes its calls
and never starts again keeps the whole contract of the component. -/

namespace CanTelemetry.CanBus

open Execution Threads

variable {w : ℕ}

def Shared.stoppedTokens (sh : Shared w) : ℕ := (sh.taskStopped.map Semaphore.tokens).getD 0

theorem StartPc.step_stoppedTokens {configuration : Configuration} {sh sh' : Shared w} {ok : Bool}
    {pc : StartPc w} {control : Control (StartPc w) Result}
    (step : pc.step configuration sh ok = some (sh', control)) :
    sh'.stoppedTokens ≤ sh.stoppedTokens := by
  cases pc with
  | beginStart =>
    simp only [StartPc.step] at step
    split at step <;> obtain ⟨rfl, -⟩ := Prod.mk.inj (Option.some.inj step) <;> exact le_rfl
  | createTaskStopped =>
    obtain ⟨rfl, -⟩ := Prod.mk.inj (Option.some.inj step)
    simp only [Shared.stoppedTokens]
    cases sh.taskStopped with
    | some s => exact le_rfl
    | none => cases ok <;> exact le_rfl
  | drainAvailable =>
    rcases takeNow_eq_some step with ⟨s, s', -, -, same⟩ | ⟨s, -, -, same⟩ <;>
      obtain ⟨rfl, -⟩ := Prod.mk.inj same <;>
      exact le_rfl
  | drainTaskStopped =>
    rcases takeNow_eq_some step with ⟨s, s', present, taken, same⟩ | ⟨s, -, -, same⟩
    · obtain ⟨rfl, -⟩ := Prod.mk.inj same
      have fewer := Semaphore.take?_eq_some.mp taken
      simp only [Shared.stoppedTokens, present, Option.map_some, Option.getD_some]
      omega
    · obtain ⟨rfl, -⟩ := Prod.mk.inj same
      exact le_rfl
  | driverInstall | driverStart | driverStop | driverUninstall =>
    cases ok <;> obtain ⟨rfl, -⟩ := Prod.mk.inj (Option.some.inj step) <;> exact le_rfl
  | _ =>
    obtain ⟨rfl, -⟩ := Prod.mk.inj (Option.some.inj step)
    exact le_rfl

/-- No step leads back to the beginning. -/
theorem StartPc.step_entered {configuration : Configuration} {sh sh' : Shared w} {ok : Bool}
    {pc pc' : StartPc w} (step : pc.step configuration sh ok = some (sh', .next pc')) :
    pc' ≠ .beginStart := by
  rintro rfl
  cases pc with
  | beginStart =>
    simp only [StartPc.step] at step
    split at step
    · cases (Prod.mk.inj (Option.some.inj step)).2
    · have same := (Prod.mk.inj (Option.some.inj step)).2
      split at same <;> cases same
  | createTaskStopped =>
    have same : Shared.afterCreation _ = .beginStart :=
      Control.next.inj (Prod.mk.inj (Option.some.inj step)).2
    rcases Shared.afterCreation_cases
      { sh with taskStopped := sh.taskStopped.or (if ok then some .empty else none) } with
      other | ⟨other, -⟩ <;> cases other.symm.trans same
  | abort pc result | reconcile pc result =>
    have same := (Prod.mk.inj (Option.some.inj step)).2
    generalize (pc.step sh.lifecycle).2 = control at same
    cases control <;> cases same
  | clear pc =>
    have same := (Prod.mk.inj (Option.some.inj step)).2
    generalize (pc.step sh.frames ok).2 = control at same
    cases control <;> cases same
  | beginStop pc =>
    have same := (Prod.mk.inj (Option.some.inj step)).2
    generalize (pc.step sh.lifecycle ok).2 = control at same
    cases control <;> cases same
  | drainAvailable | drainTaskStopped =>
    rcases takeNow_eq_some step with ⟨s, s', -, -, same⟩ | ⟨s, -, -, same⟩ <;>
      cases (Prod.mk.inj same).2
  | driverInstall | driverStart | driverStop | driverUninstall | createTask =>
    cases ok <;> cases (Prod.mk.inj (Option.some.inj step)).2
  | _ => cases (Prod.mk.inj (Option.some.inj step)).2

/-- A stop() goes on after its wait only with a token. -/
theorem StopPc.step_stoppedTokens {sh sh' : Shared w} {ok : Bool} {pc : StopPc}
    {control : Control StopPc Result} (step : pc.step sh ok = some (sh', control)) :
    sh'.stoppedTokens ≤ sh.stoppedTokens ∧
      ∀ driverStopped, pc = .awaitTask driverStopped → ok = true → 0 < sh.stoppedTokens := by
  cases pc with
  | awaitTask driverStopped =>
    rcases takeWithin_eq_some step with ⟨s, s', granted, present, taken, same⟩ | ⟨expired, same⟩
    · obtain ⟨rfl, -⟩ := Prod.mk.inj same
      have fewer := Semaphore.take?_eq_some.mp taken
      simp only [Shared.stoppedTokens, present, Option.map_some, Option.getD_some]
      exact ⟨by omega, fun _ _ _ => by omega⟩
    · obtain ⟨rfl, -⟩ := Prod.mk.inj same
      refine ⟨le_rfl, ?_⟩
      rintro - - rfl
      cases expired
  | dropToken driverStopped =>
    rcases takeNow_eq_some step with ⟨s, s', present, taken, same⟩ | ⟨s, -, -, same⟩
    · obtain ⟨rfl, -⟩ := Prod.mk.inj same
      have fewer := Semaphore.take?_eq_some.mp taken
      simp only [Shared.stoppedTokens, present, Option.map_some, Option.getD_some]
      exact ⟨by omega, by simp⟩
    · obtain ⟨rfl, -⟩ := Prod.mk.inj same
      exact ⟨le_rfl, by simp⟩
  | driverStop | driverUninstall =>
    cases ok <;> obtain ⟨rfl, -⟩ := Prod.mk.inj (Option.some.inj step) <;> exact ⟨le_rfl, by simp⟩
  | drainAvailable =>
    simp only [StopPc.step] at step
    split at step
    · obtain ⟨rfl, -⟩ := Prod.mk.inj (Option.some.inj step)
      exact ⟨le_rfl, by simp⟩
    · rcases takeNow_eq_some step with ⟨s, s', -, -, same⟩ | ⟨s, -, -, same⟩ <;>
        obtain ⟨rfl, -⟩ := Prod.mk.inj same <;>
        exact ⟨le_rfl, by simp⟩
  | _ =>
    obtain ⟨rfl, -⟩ := Prod.mk.inj (Option.some.inj step)
    exact ⟨le_rfl, by simp⟩

/-- The token comes with the last step but one of a task. -/
theorem TaskPc.step_stoppedTokens {sh sh' : Shared w} {env : TaskEnv} {pc : TaskPc w}
    {control : Control (TaskPc w) Unit} (step : pc.step env sh = some (sh', control)) :
    pc = .giveStopped ∧ control = .next .delete ∨ sh'.stoppedTokens = sh.stoppedTokens := by
  cases pc with
  | giveStopped =>
    obtain ⟨s, -, same⟩ := Option.map_eq_some_iff.mp step
    obtain ⟨rfl, rfl⟩ := Prod.mk.inj same
    exact .inl ⟨rfl, rfl⟩
  | giveAvailable =>
    obtain ⟨s, -, same⟩ := Option.map_eq_some_iff.mp step
    obtain ⟨rfl, -⟩ := Prod.mk.inj same
    exact .inr rfl
  | latch pc =>
    obtain ⟨⟨sh'', inner⟩, inside, same⟩ := Option.map_eq_some_iff.mp step
    obtain ⟨rfl, rfl⟩ := Prod.mk.inj same
    right
    cases pc with
    | wake =>
      obtain ⟨s, -, same⟩ := Option.map_eq_some_iff.mp inside
      obtain ⟨rfl, -⟩ := Prod.mk.inj same
      rfl
    | _ =>
      obtain ⟨rfl, -⟩ := Prod.mk.inj (Option.some.inj inside)
      rfl
  | _ =>
    obtain ⟨rfl, -⟩ := Prod.mk.inj (Option.some.inj step)
    exact .inr rfl

theorem ReceivePc.step_stoppedTokens {sh sh' : Shared w} {granted : Bool} {pc : ReceivePc w}
    {control : Control (ReceivePc w) (Result × Option VehicleCore.RawCanFrame)}
    (step : pc.step sh granted = some (sh', control)) : sh'.stoppedTokens = sh.stoppedTokens := by
  cases pc with
  | take timeoutMs =>
    simp only [ReceivePc.step] at step
    split at step
    · rcases takeNow_eq_some step with ⟨s, s', -, -, same⟩ | ⟨s, -, -, same⟩ <;>
        obtain ⟨rfl, -⟩ := Prod.mk.inj same <;> rfl
    · rcases takeWithin_eq_some step with ⟨s, s', -, -, -, same⟩ | ⟨-, same⟩ <;>
        obtain ⟨rfl, -⟩ := Prod.mk.inj same <;> rfl
  | _ =>
    obtain ⟨rfl, -⟩ := Prod.mk.inj (Option.some.inj step)
    rfl

namespace System

variable {s t : System w} {k : Choice} {ks : List Choice}

/-- There is one task at most, and none before a start() has come to its creation; a token for
stop() is around only when that task has left its loop. -/
structure Lone (s : System w) : Prop where
  one : s.tasks.length ≤ 1
  fresh : ∀ c pc, .start c pc ∈ s.calls → pc = .beginStart ∨ pc.preparing = true →
    s.tasks = [] ∧ s.shared.stoppedTokens = 0
  own : 0 < s.shared.stoppedTokens → s.liveTasks = 0

/-- The bus has had no task yet. -/
def untouched (s : System w) : Bool := s.tasks.isEmpty && s.shared.stoppedTokens = 0

/-- start() is called once. -/
def once (s : System w) : Choice → Bool
  | .beginStart _ => s.untouched
  | _ => true

theorem Lone.next (h : s.Lone) (preparing : s.Preparing) (serial : s.serialized k = true)
    (once : s.once k = true) (step : s.next k = some t) : t.Lone := by
  cases k with
  | beginStart c =>
    obtain rfl := Option.some.inj step
    have empty : s.calls = [] := List.isEmpty_iff.mp serial
    simp only [System.once, untouched, Bool.and_eq_true, List.isEmpty_iff, decide_eq_true_eq]
      at once
    exact ⟨h.one, fun _ _ _ _ => once, h.own⟩
  | beginStop =>
    obtain rfl := Option.some.inj step
    have empty : s.calls = [] := List.isEmpty_iff.mp serial
    refine ⟨h.one, ?_, h.own⟩
    intro c pc mem
    simp [empty] at mem
  | call i ok =>
    obtain ⟨pc, -, -, found, -, -⟩ := next_call step
    have member := List.mem_of_getElem? found
    obtain ⟨single, -⟩ := preparing.outlined.outline member
    obtain ⟨shared, control, hstep, rfl⟩ := next_call_single single step
    have fewer : shared.stoppedTokens ≤ s.shared.stoppedTokens := by
      cases pc with
      | start c pc =>
        obtain ⟨inner, inside, -⟩ := CallPc.step_start hstep
        exact StartPc.step_stoppedTokens inside
      | stop pc =>
        obtain ⟨inner, inside, -⟩ := CallPc.step_stop hstep
        exact (StopPc.step_stoppedTokens inside).1
    rcases pc.created_cases ok with none | ⟨c, rfl, -, one⟩
    · rw [none, List.append_nil]
      refine ⟨h.one, ?_, fun some => h.own (lt_of_lt_of_le some fewer)⟩
      intro c pc' mem early
      cases control with
      | ret result => cases mem
      | next after =>
        obtain rfl := List.mem_singleton.mp mem
        cases pc with
        | stop pc =>
          obtain ⟨inner, -, same⟩ := CallPc.step_stop hstep
          cases inner <;> cases same
        | start c' pc =>
          obtain ⟨inner, inside, same⟩ := CallPc.step_start hstep
          cases inner with
          | ret result => cases same
          | next inner =>
            obtain ⟨rfl, rfl⟩ := CallPc.start.inj (Control.next.inj same)
            have prepares := early.resolve_left (StartPc.step_entered inside)
            have before : pc = .beginStart ∨ pc.preparing = true := by
              rcases (StartPc.step_ready (fun prepares => (preparing.alone c pc member prepares).2.2)
                inside prepares).2 with prepared | reserves
              · exact .inr prepared
              · cases pc <;> first | exact .inl rfl | cases reserves
            obtain ⟨absent, empty⟩ := h.fresh c pc member before
            exact ⟨absent, Nat.le_zero.mp (empty ▸ fewer)⟩
    · obtain ⟨absent, empty⟩ := h.fresh c .createTask member (.inr rfl)
      have still : shared.stoppedTokens = 0 := Nat.le_zero.mp (empty ▸ fewer)
      rw [one, absent]
      refine ⟨le_rfl, ?_, ?_⟩
      · intro c' pc' mem early
        obtain ⟨inner, inside, rfl⟩ := CallPc.step_start hstep
        obtain ⟨rfl, rfl⟩ := Prod.mk.inj (Option.some.inj inside)
        obtain ⟨-, rfl⟩ := CallPc.start.inj (List.mem_singleton.mp mem)
        rcases early with first | prepares
        · split at first <;> cases first
        · split at prepares <;> cases prepares
      · intro some
        exact absurd still some.ne'
  | task i env =>
    obtain ⟨pc, shared, control, found, hstep, rfl⟩ := next_task step
    have only : s.tasks = [pc] := by
      obtain ⟨before, after, split, -, -⟩ := resume_split (ρ := Unit) found
      have one := h.one
      rw [split] at one ⊢
      simp only [List.length_append, List.length_cons] at one
      rw [List.length_eq_zero_iff.mp (show before.length = 0 by omega),
        List.length_eq_zero_iff.mp (show after.length = 0 by omega)]
      rfl
    have left : resume s.tasks i control = control.live := by
      rw [only] at found ⊢
      exact (resume_singleton found).2 control
    have fewer : (resume s.tasks i control).countP TaskPc.live ≤ s.liveTasks := by
      rw [left, liveTasks, only]
      rcases TaskPc.step_live hstep with ⟨rfl, rfl, -⟩ | ⟨-, equal⟩
      · exact Nat.zero_le _
      · exact equal.le
    refine ⟨?_, ?_, ?_⟩
    · show (resume s.tasks i control).length ≤ 1
      rw [left]
      cases control <;> simp
    · intro c pc' mem early
      have absent := (h.fresh c pc' mem early).1
      rw [only] at absent
      cases absent
    · intro some
      rcases TaskPc.step_stoppedTokens hstep with ⟨rfl, rfl⟩ | same
      · simp only [liveTasks, left]
        rfl
      · have none := h.own (same ▸ some)
        exact Nat.le_zero.mp (none ▸ fewer)
  | beginReceive timeoutMs =>
    obtain ⟨-, step⟩ := Option.ite_none_right_eq_some.mp step
    obtain rfl := Option.some.inj step
    exact ⟨h.one, h.fresh, h.own⟩
  | consumer granted =>
    obtain ⟨pc, shared, control, -, hstep, rfl⟩ := next_consumer step
    have same := ReceivePc.step_stoppedTokens hstep
    exact ⟨h.one, fun c pc mem early => same ▸ h.fresh c pc mem early,
      fun some => h.own (same ▸ some)⟩
  | beginStatistics | observer | busOff =>
    obtain ⟨frames, driver, observers, -, rfl⟩ := next_beside rfl step
    exact ⟨h.one, h.fresh, h.own⟩

theorem Lone.ownToken (h : s.Lone) {i : ℕ} {ok : Bool} (step : s.next (.call i ok) = some t) :
    s.ownToken (.call i ok) = true := by
  obtain ⟨pc, shared, control, found, hstep, -⟩ := next_call step
  cases ok with
  | false => rfl
  | true =>
    cases pc with
    | start c pc => simp [System.ownToken, found]
    | stop pc =>
      obtain ⟨inner, inside, -⟩ := CallPc.step_stop hstep
      cases pc with
      | awaitTask driverStopped =>
        have none := h.own ((StopPc.step_stoppedTokens inside).2 driverStopped rfl rfl)
        simp [System.ownToken, found, none]
      | _ => simp [System.ownToken, found]

theorem Lone.initial : ({} : System w).Lone := ⟨Nat.zero_le 1, by simp, by simp [liveTasks]⟩

end System

end CanTelemetry.CanBus
