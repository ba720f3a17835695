import CanTelemetry.CanBus.CallEffort

/-! A stop() returns. Its own steps are bounded in every interleaving, and while the driver
calls it makes succeed and the acknowledgement it waits for arrives, it can go on to its end
from wherever it stands: a task that it waits for has given its token or is on its way to it. -/

namespace CanTelemetry.CanBus

open Execution Threads

variable {w : ℕ}

/-! ### The task that is waited for -/

/-- A task that has not given its token yet. -/
def TaskPc.owing : TaskPc w → Bool
  | .delete => false
  | _ => true

theorem TaskPc.owing_of_live {pc : TaskPc w} (live : pc.live = true) : pc.owing = true := by
  cases pc with
  | delete => cases live
  | _ => rfl

theorem TaskPc.variant_pos {sh : Shared w} {pc : TaskPc w} (live : pc.live = true) :
    0 < pc.variant sh := by
  cases pc with
  | giveStopped | delete => cases live
  | _ =>
    simp only [variant]
    omega

theorem TaskPc.giveStopped_token {sh sh' : Shared w} {env : TaskEnv}
    {control : Control (TaskPc w) Unit} (step : giveStopped.step env sh = some (sh', control)) :
    0 < sh'.stoppedTokens := by
  obtain ⟨s, -, same⟩ := Option.map_eq_some_iff.mp step
  obtain ⟨rfl, -⟩ := Prod.mk.inj same
  simp only [Shared.stoppedTokens, Option.map_some, Option.getD_some, Semaphore.give_tokens]
  split <;> omega

/-- A task that is not requested any more comes step by step to its token. -/
theorem TaskPc.step_owing {sh : Shared w} {pc : TaskPc w} (equipped : sh.equipped)
    (released : sh.receiveRequested = false) (owing : pc.owing = true) :
    ∃ sh' control, pc.step {} sh = some (sh', control) ∧
      (0 < sh'.stoppedTokens ∨
        ∃ pc', control = .next pc' ∧ pc'.owing = true ∧ pc'.variant sh' < pc.variant sh) := by
  by_cases live : pc.live = true
  · obtain ⟨sh', control, step, goesOn⟩ := TaskPc.step_variant equipped released live
    refine ⟨sh', control, step, .inr ?_⟩
    rcases goesOn with ⟨rfl, -⟩ | ⟨pc', rfl, live', falls⟩
    · exact ⟨.giveStopped, rfl, rfl, TaskPc.variant_pos live⟩
    · exact ⟨pc', rfl, TaskPc.owing_of_live live', falls⟩
  · cases pc with
    | giveStopped =>
      obtain ⟨s, present⟩ := Option.isSome_iff_exists.mp equipped.2
      have given : giveStopped.step {} sh =
          some ({ sh with taskStopped := some s.give }, .next .delete) := by
        simp only [step, present, Option.map_some]
      exact ⟨_, _, given, .inl (TaskPc.giveStopped_token given)⟩
    | delete => cases owing
    | _ => exact absurd rfl live

/-- Whatever its calls return, a task that has not given its token still will, or does so now. -/
theorem TaskPc.step_token {sh sh' : Shared w} {env : TaskEnv} {pc : TaskPc w}
    {control : Control (TaskPc w) Unit} (owing : pc.owing = true)
    (step : pc.step env sh = some (sh', control)) :
    0 < sh'.stoppedTokens ∨ ∃ pc' ∈ control.live, pc'.owing = true := by
  by_cases live : pc.live = true
  · right
    rcases TaskPc.step_live step with ⟨-, rfl, -⟩ | ⟨-, count⟩
    · exact ⟨.giveStopped, List.mem_singleton_self _, rfl⟩
    · rw [List.countP_singleton, if_pos live] at count
      obtain ⟨pc', member, live'⟩ := List.countP_pos_iff.mp (by rw [count]; exact Nat.one_pos)
      exact ⟨pc', member, TaskPc.owing_of_live live'⟩
  · cases pc with
    | giveStopped => exact .inl (TaskPc.giveStopped_token step)
    | delete => cases owing
    | _ => exact absurd rfl live

/-! ### The points of a stop() -/

/-- The points of a stop() after it has taken back the request. -/
def StopPc.released : StopPc → Bool
  | .begin _ | .unrequest => false
  | _ => true

theorem StopPc.step_requested {sh sh' : Shared w} {ok : Bool} {pc : StopPc}
    {control : Control StopPc Result} (step : pc.step sh ok = some (sh', control)) :
    sh'.receiveRequested = true → sh.receiveRequested = true ∧ pc ≠ .unrequest := by
  cases pc with
  | unrequest =>
    obtain ⟨rfl, -⟩ := Prod.mk.inj (Option.some.inj step)
    rintro ⟨⟩
  | driverStop | driverUninstall =>
    cases ok <;> obtain ⟨rfl, -⟩ := Prod.mk.inj (Option.some.inj step) <;>
      exact fun set => ⟨set, by simp⟩
  | awaitTask driverStopped =>
    rcases takeWithin_eq_some step with ⟨s, s', -, -, -, same⟩ | ⟨-, same⟩ <;>
      obtain ⟨rfl, -⟩ := Prod.mk.inj same <;> exact fun set => ⟨set, by simp⟩
  | dropToken driverStopped =>
    rcases takeNow_eq_some step with ⟨s, s', -, -, same⟩ | ⟨s, -, -, same⟩ <;>
      obtain ⟨rfl, -⟩ := Prod.mk.inj same <;> exact fun set => ⟨set, by simp⟩
  | drainAvailable =>
    simp only [StopPc.step] at step
    split at step
    · obtain ⟨rfl, -⟩ := Prod.mk.inj (Option.some.inj step)
      exact fun set => ⟨set, by simp⟩
    · rcases takeNow_eq_some step with ⟨s, s', -, -, same⟩ | ⟨s, -, -, same⟩ <;>
        obtain ⟨rfl, -⟩ := Prod.mk.inj same <;> exact fun set => ⟨set, by simp⟩
  | _ =>
    obtain ⟨rfl, -⟩ := Prod.mk.inj (Option.some.inj step)
    exact fun set => ⟨set, by simp⟩

theorem StopPc.step_released {sh sh' : Shared w} {ok : Bool} {pc pc' : StopPc}
    (step : pc.step sh ok = some (sh', .next pc')) (later : pc'.released = true) :
    pc.released = true ∨ pc = .unrequest := by
  cases pc with
  | begin pc =>
    obtain ⟨-, same⟩ := Prod.mk.inj (Option.some.inj step)
    rcases pc.step_cases sh.lifecycle ok with looked | ⟨-, marked⟩
    · rw [looked] at same
      cases state : sh.lifecycle.state <;> rw [state] at same <;> cases same <;> cases later
    · rw [marked] at same
      cases same
      cases later
  | unrequest => exact .inr rfl
  | _ => exact .inl rfl

/-- A stop() begins to wait only for a task that is owned. -/
theorem StopPc.step_to_await {sh sh' : Shared w} {ok driverStopped : Bool} {pc : StopPc}
    (step : pc.step sh ok = some (sh', .next (.awaitTask driverStopped))) :
    sh.lifecycle.taskOwned = true := by
  cases pc with
  | begin pc =>
    obtain ⟨-, same⟩ := Prod.mk.inj (Option.some.inj step)
    rcases pc.step_cases sh.lifecycle ok with looked | ⟨-, marked⟩
    · rw [looked] at same
      cases state : sh.lifecycle.state <;> rw [state] at same <;> cases same
    · rw [marked] at same
      cases same
  | loadStarted =>
    have same := (Prod.mk.inj (Option.some.inj step)).2
    cases started : sh.lifecycle.driverStarted <;> simp [started] at same
  | loadOwned driverStopped =>
    have same := (Prod.mk.inj (Option.some.inj step)).2
    cases owned : sh.lifecycle.taskOwned with
    | true => rfl
    | false => simp [owned] at same
  | loadInstalled driverStopped taskStopped =>
    have same := (Prod.mk.inj (Option.some.inj step)).2
    split at same <;> cases same
  | reconcile pc driverStopped taskStopped driverUninstalled =>
    have same := (Prod.mk.inj (Option.some.inj step)).2
    cases pc with
    | store target =>
      simp only [ReconcilePc.step, Control.call_ret] at same
      split at same <;> cases same
    | _ => cases same
  | drainAvailable =>
    simp only [StopPc.step] at step
    split at step
    · cases (Prod.mk.inj (Option.some.inj step)).2
    · rcases takeNow_eq_some step with ⟨s, s', -, -, same⟩ | ⟨s, -, -, same⟩ <;>
        cases (Prod.mk.inj same).2
  | driverStop | driverUninstall => cases ok <;> cases (Prod.mk.inj (Option.some.inj step)).2
  | awaitTask driverStopped =>
    rcases takeWithin_eq_some step with ⟨s, s', -, -, -, same⟩ | ⟨-, same⟩ <;>
      cases (Prod.mk.inj same).2
  | dropToken driverStopped =>
    rcases takeNow_eq_some step with ⟨s, s', -, -, same⟩ | ⟨s, -, -, same⟩ <;>
      cases (Prod.mk.inj same).2
  | _ => cases (Prod.mk.inj (Option.some.inj step)).2

namespace System

variable {s t u : System w} {k : Choice} {ks ls : List Choice} {result : Result} {pc : StopPc}

/-- The token that a stop() waits for is there, or a task has still to give it. -/
def Awaited (s : System w) : Prop :=
  0 < s.shared.stoppedTokens ∨ ∃ pc ∈ s.tasks, pc.owing = true

/-- No step but that of a call takes the token away. -/
theorem Awaited.next (h : s.Awaited) (step : s.next k = some t)
    (other : ∀ i ok, k ≠ .call i ok) : t.Awaited := by
  cases k with
  | call i ok => exact absurd rfl (other i ok)
  | task i env =>
    obtain ⟨pc, shared, control, found, hstep, rfl⟩ := next_task step
    rcases h with there | ⟨pc', member, owing⟩
    · left
      rcases TaskPc.step_stoppedTokens hstep with ⟨rfl, -⟩ | same
      · exact TaskPc.giveStopped_token hstep
      · show 0 < shared.stoppedTokens
        rw [same]
        exact there
    · by_cases own : pc' = pc
      · subst own
        rcases TaskPc.step_token owing hstep with given | ⟨pc'', live, owing'⟩
        · exact .inl given
        · exact .inr ⟨pc'', mem_resume_live found live, owing'⟩
      · exact .inr ⟨pc', mem_resume_of_ne control found member own, owing⟩
  | beginStart c =>
    obtain rfl := Option.some.inj step
    exact h
  | beginStop =>
    obtain rfl := Option.some.inj step
    exact h
  | beginReceive timeoutMs =>
    obtain ⟨-, step⟩ := Option.ite_none_right_eq_some.mp step
    obtain rfl := Option.some.inj step
    exact h
  | consumer granted =>
    obtain ⟨pc, shared, control, -, hstep, rfl⟩ := next_consumer step
    have same := ReceivePc.step_stoppedTokens hstep
    refine h.imp_left ?_
    intro there
    show 0 < shared.stoppedTokens
    rw [same]
    exact there
  | beginStatistics | observer | busOff =>
    obtain ⟨frames, driver, observers, -, rfl⟩ := next_beside rfl step
    exact h

/-- The steps during one stop() for which everything succeeds. -/
def wellStopping (s : System w) (k : Choice) : Bool := withinCall s k && succeeding s k

/-- Where a stop() for which everything succeeds stands, and that what it waits for will come. -/
structure Stopping (s : System w) (pc : StopPc) : Prop where
  provided : s.Provided
  calls : s.calls = [.stop pc]
  track : pc.onTrack = true
  released : pc.released = true → s.shared.receiveRequested = false
  awaited : ∀ driverStopped, pc = .awaitTask driverStopped → s.Awaited

theorem Stopping.of_begin (h : s.Provided) (quiescent : s.calls = []) :
    ({ s with calls := [.stop (.begin .load)] } : System w).Stopping (.begin .load) := by
  have serial : s.serialized .beginStop = true := List.isEmpty_iff.mpr quiescent
  have begun : s.next .beginStop = some { s with calls := [.stop (.begin .load)] } := by
    rw [next, quiescent]
    rfl
  exact ⟨h.next serial begun, rfl, rfl, by rintro ⟨⟩, by simp⟩

theorem Stopping.next (h : s.Stopping pc) (well : s.wellStopping k = true)
    (step : s.next k = some t) : t.calls = [] ∨ ∃ pc', t.Stopping pc' := by
  obtain ⟨within, well⟩ := Bool.and_eq_true_iff.mp well
  have provided := h.provided.next (serialized_of_within within) step
  have inside : s.Within := .inr ⟨pc, h.calls⟩
  rcases inside.cases within step with ⟨other, calls, -⟩ |
    ⟨i, ok, pc', shared, inner, rfl, single, found, inside, rfl⟩
  · have moves := next_driverMoves step other
    exact .inr ⟨pc, provided, calls.trans h.calls, h.track,
      fun later => stays_cleared moves.requested (h.released later),
      fun driverStopped waits => (h.awaited driverStopped waits).next step other⟩
  · obtain rfl : pc' = pc := by simpa [h.calls] using single.symm
    simp only [succeeding, found, Option.map_some, Option.getD_some] at well
    have stays := StopPc.step_onTrack h.track well inside
    cases inner with
    | ret result => exact .inl rfl
    | next pc' =>
      refine .inr ⟨pc', provided, rfl, stays, ?_, ?_⟩
      · intro later
        cases requested : shared.receiveRequested with
        | false => rfl
        | true =>
          obtain ⟨before, working⟩ := StopPc.step_requested inside requested
          have done := (StopPc.step_released inside later).resolve_right working
          exact absurd (before.symm.trans (h.released done)) (by simp)
      · rintro driverStopped rfl
        have owned := StopPc.step_to_await inside
        have some : 0 < s.liveTasks :=
          (h.provided.owner owned).resolve_right (by simp [h.calls, CallPc.owesTask])
        obtain ⟨task, member, live⟩ := List.countP_pos_iff.mp some
        exact .inr ⟨task, List.mem_append_left _ member, TaskPc.owing_of_live live⟩

/-- The stop() in progress returns with the next step. -/
def Returns (s : System w) : Prop :=
  ∃ k result t, s.succeeding k = true ∧ s.returned k = some result ∧ s.next k = some t

/-- The step of a stop() that does not wait in vain. -/
theorem Stopping.own_step (h : s.Stopping pc)
    (ready : ∀ driverStopped, pc = .awaitTask driverStopped → 0 < s.shared.stoppedTokens) :
    ∃ shared control, pc.step s.shared true = some (shared, control) := by
  have supplied := h.provided.calls (.stop pc) (by rw [h.calls]; exact List.mem_singleton_self _)
  cases waits : (CallPc.stop (w := w) pc).awaits with
  | false =>
    have steps : ((CallPc.stop pc).step s.shared true).isSome = true :=
      CallPc.goes_on supplied (by rw [waits]; rfl)
    obtain ⟨⟨shared, control⟩, step⟩ := Option.isSome_iff_exists.mp steps
    obtain ⟨inner, inside, -⟩ := CallPc.step_stop step
    exact ⟨shared, inner, inside⟩
  | true =>
    cases pc with
    | awaitTask driverStopped =>
      have there := ready driverStopped rfl
      obtain ⟨token, present⟩ := Option.isSome_iff_exists.mp (supplied.used rfl).2
      rw [Shared.stoppedTokens, present, Option.map_some, Option.getD_some] at there
      cases taken : token.take? with
      | none =>
        have empty := Semaphore.take?_eq_none.mp taken
        omega
      | some token' =>
        refine ⟨{ s.shared with taskStopped := some token' }, .next (.acknowledge driverStopped), ?_⟩
        simp [StopPc.step, takeWithin, present, taken]
    | _ => cases waits

/-- How far task `i` is from the token that the stop() waits for. -/
def tokenVariant (i : ℕ) (s : System w) : ℕ :=
  if 0 < s.shared.stoppedTokens then 0
  else (s.tasks[i]?.map fun task => task.variant s.shared).getD 0 + 1

/-- A task that is waited for gives its token while the stop() stands aside. -/
theorem Stopping.arrives {driverStopped : Bool} (h : s.Stopping (.awaitTask driverStopped)) :
    Reaches (guarded wellStopping System.next) s fun t =>
      t.Stopping (.awaitTask driverStopped) ∧ 0 < t.shared.stoppedTokens := by
  rcases h.awaited driverStopped rfl with there | ⟨task, member, owing⟩
  · exact .here ⟨h, there⟩
  · obtain ⟨i, found⟩ := List.mem_iff_getElem?.mp member
    refine Reaches.of_variant (tokenVariant i)
      (P := fun s => s.Stopping (.awaitTask driverStopped) ∧
        (0 < s.shared.stoppedTokens ∨ ∃ task, s.tasks[i]? = some task ∧ task.owing = true))
      ?_ ⟨h, .inr ⟨task, found, owing⟩⟩
    rintro s ⟨h, coming⟩
    by_cases there : 0 < s.shared.stoppedTokens
    · exact .inl ⟨h, there⟩
    · right
      obtain ⟨task, found, owing⟩ := coming.resolve_left there
      have equipped := h.provided.tasks (by rintro none; simp [none] at found)
      obtain ⟨shared, control, hstep, goesOn⟩ :=
        TaskPc.step_owing equipped (h.released rfl) owing
      have step : s.next (.task i {}) =
          some { s with shared := shared, tasks := resume s.tasks i control } := by
        simp only [System.next, found, hstep, Option.bind_some, Option.map_some]
      have inside : i < s.tasks.length := (List.getElem?_eq_some_iff.mp found).1
      have stopping : ({ s with shared := shared, tasks := resume s.tasks i control } :
          System w).Stopping (.awaitTask driverStopped) := by
        have moves := next_driverMoves step (by simp)
        exact ⟨h.provided.next rfl step, h.calls, h.track,
          fun later => stays_cleared moves.requested (h.released later),
          fun _ waits => (h.awaited _ waits).next step (by simp)⟩
      refine ⟨.task i {}, _, guarded_eq_some.mpr ⟨rfl, step⟩, ?_⟩
      rcases goesOn with given | ⟨task', rfl, owing', falls⟩
      · refine ⟨⟨stopping, .inl given⟩, ?_⟩
        simp only [tokenVariant, if_pos given, if_neg there]
        exact Nat.succ_pos _
      · have at_i : (resume s.tasks i (.next task' : Control (TaskPc w) Unit))[i]? = some task' :=
          List.getElem?_set_self inside
        refine ⟨⟨stopping, .inr ⟨task', at_i, owing'⟩⟩, ?_⟩
        simp only [tokenVariant, if_neg there, found, at_i, Option.map_some, Option.getD_some]
        split
        · exact Nat.succ_pos _
        · exact Nat.succ_lt_succ falls

/-- From wherever a stop() stands for which everything succeeds, it may still return. -/
theorem Stopping.returns (h : s.Stopping pc) : Reaches (guarded wellStopping System.next) s Returns := by
  induction bound : pc.left s.shared using Nat.strongRecOn generalizing s pc with
  | ind n ih =>
    have onward {s : System w} {pc : StopPc} (h : s.Stopping pc) (same : pc.left s.shared = n)
        (ready : ∀ driverStopped, pc = .awaitTask driverStopped → 0 < s.shared.stoppedTokens) :
        Reaches (guarded wellStopping System.next) s Returns := by
      obtain ⟨shared, control, inside⟩ := h.own_step ready
      have outer : (CallPc.stop pc).step s.shared true =
          some (shared, control.call .stop .ret) := by
        simp only [CallPc.step, inside, Option.map_some]
      have found : s.calls[0]? = some (.stop pc) := by rw [h.calls]; rfl
      have well : s.succeeding (.call 0 true) = true := by
        simp [succeeding, found]
      obtain ⟨t, step⟩ : ∃ t, s.next (.call 0 true) = some t := by
        simp [System.next, found, outer]
      cases control with
      | ret result =>
        refine .here ⟨.call 0 true, result, t, well, ?_, step⟩
        simp [System.returned, found, outer]
      | next pc' =>
        have allowed : s.wellStopping (.call 0 true) = true := well
        refine .step (guarded_eq_some.mpr ⟨allowed, step⟩) ?_
        obtain ⟨shared', control', hstep, rfl⟩ := next_call_single h.calls step
        obtain ⟨rfl, rfl⟩ := Prod.mk.inj (Option.some.inj (outer.symm.trans hstep))
        have spent := StopPc.spends inside
        rcases h.next allowed step with ended | ⟨pc'', later⟩
        · cases ended
        · obtain rfl : pc' = pc'' := by simpa using later.calls
          refine ih _ ?_ later rfl
          simp [missed] at spent
          show pc'.left shared < n
          omega
    by_cases waits : ∃ driverStopped, pc = .awaitTask driverStopped
    · obtain ⟨driverStopped, rfl⟩ := waits
      refine h.arrives.trans ?_
      rintro t ⟨later, there⟩
      exact onward later bound fun _ _ => there
    · exact onward h bound fun driverStopped same => absurd ⟨driverStopped, same⟩ waits

/-! ### The steps of a stop() -/

/-- The tokens that somebody gives while the stop() in progress drains them. -/
def refilled (s : System w) : Choice → ℕ
  | .call _ _ => 0
  | k => if s.calls.any CallPc.draining then
      ((s.next k).map fun t => t.shared.tokens - s.shared.tokens).getD 0 else 0

theorem Within.spends (h : s.Within) (within : s.withinCall k = true) (step : s.next k = some t) :
    s.callSteps k + t.callsLeft ≤ s.callsLeft + (s.callMissed k + s.refilled k) := by
  rcases h.cases within step with ⟨other, calls, interference⟩ |
    ⟨i, ok, pc, shared, inner, rfl, calls, found, inside, rfl⟩
  · have latched := interference.state.imp_right And.right
    have nothing : s.callSteps k = 0 := by
      cases k with
      | call i ok => exact absurd rfl (other i ok)
      | _ => rfl
    rw [nothing]
    rcases h with none | ⟨pc, single⟩
    · simp [callsLeft, calls, none]
    · have most := StopPc.disturbed latched pc
      have refills : pc.refill s.shared t.shared ≤ s.refilled k := by
        cases pc with
        | drainAvailable =>
          have given : s.refilled k = t.shared.tokens - s.shared.tokens := by
            cases k with
            | call i ok => exact absurd rfl (other i ok)
            | _ => simp only [refilled, single, step]; rfl
          rw [given]
          exact le_rfl
        | _ => exact Nat.zero_le _
      simp only [callsLeft, calls, single, List.map_cons, List.map_nil, List.sum_singleton,
        CallPc.left]
      omega
  · have outer : (CallPc.stop pc).step s.shared ok = some (shared, inner.call .stop .ret) := by
      simp only [CallPc.step, inside, Option.map_some]
    have spent := CallPc.spends (by simp) outer
    have failed : s.callMissed (.call i ok) = missed (CallPc.stop (w := w) pc).exchanges ok := by
      simp [callMissed, found]
    simp only [callSteps, callsLeft, failed, calls, List.map_cons, List.map_nil,
      List.sum_singleton]
    omega

/-- What a stop() has to go at its beginning, whatever its calls return. -/
theorem stop_bounded (calls : s.calls = [.stop (.begin .load)])
    (run : exec (guarded withinCall next) s ls = some t) :
    total (guarded withinCall next) callSteps s ls ≤ queueCapacity + 17 +
      total (guarded withinCall next) callMissed s ls +
      total (guarded withinCall next) refilled s ls := by
  have spent : total (guarded withinCall System.next) callSteps s ls + t.callsLeft ≤ s.callsLeft +
      total (guarded withinCall System.next) (fun s k => s.callMissed k + s.refilled k) s ls := by
    refine total_le (P := Within) ?_ (.inr ⟨_, calls⟩) run
    intro s k t h step
    obtain ⟨within, step⟩ := guarded_eq_some.mp step
    exact ⟨h.next within step, h.spends within step⟩
  have most := BeginStopPc.load.left_le s.shared.lifecycle.state
  rw [total_add] at spent
  simp only [callsLeft, calls, List.map_cons, List.map_nil, List.sum_singleton, CallPc.left,
    StopPc.left] at spent
  omega

/-- A stop() for which everything has succeeded so far, and which has not returned, goes on to
return Ok. -/
theorem stop_goes_on (h : s.Provided) (quiescent : s.calls = [])
    (live : s.shared.lifecycle.state ≠ .stopped)
    (run : exec (guarded wellStopping next) { s with calls := [.stop (.begin .load)] } ls = some u) :
    u.calls = [] ∨ ∃ ls' k t, StopCall succeeding s (ls ++ ls') k .ok t := by
  have stands : u.calls = [] ∨ ∃ pc, u.Stopping pc := by
    refine exec_invariant (P := fun u => u.calls = [] ∨ ∃ pc, u.Stopping pc) ?_ run
      (.inr ⟨_, .of_begin h quiescent⟩)
    rintro u k t (ended | ⟨pc, stopping⟩) step
    · obtain ⟨well, step⟩ := guarded_eq_some.mp step
      obtain ⟨within, -⟩ := Bool.and_eq_true_iff.mp well
      have other : ∀ i ok, k ≠ .call i ok := by
        rintro i ok rfl
        obtain ⟨pc, -, -, found, -, -⟩ := next_call step
        simp [ended] at found
      obtain ⟨calls, -⟩ := next_interference step other (by rintro c rfl; cases within)
        (by rintro rfl; cases within)
      exact .inl (calls.trans ended)
    · obtain ⟨well, step⟩ := guarded_eq_some.mp step
      exact stopping.next well step
  refine stands.imp_right ?_
  rintro ⟨pc, stopping⟩
  obtain ⟨ls', v, rest, k, result, t, well, returned, step⟩ := stopping.returns
  have call : StopCall succeeding s (ls ++ ls') k result t :=
    ⟨quiescent, v, exec_trans run rest, well, returned, step⟩
  rcases call.last h.coupled.outlined with ⟨-, stopped, -⟩ | ⟨worked, -, -⟩
  · exact absurd stopped live
  · obtain rfl : result = .ok := call.succeeds.resolve_left worked
    exact ⟨ls', k, t, call⟩

/-- Ownership and retryable cleanup, in every state of every serialized run. A stop()
returns NotStarted exactly from Stopped, and then the run without its one step ends in the
same state; otherwise it returns Ok exactly when it leaves Stopped behind; and from any
state that is not Stopped, one stop() for which everything succeeds releases everything. It
does return: a stop() has 81 steps to go at most, one more for every weak exchange that fails
and for every token that is given while it drains these; and while everything succeeds it can
go on to return Ok from wherever it stands. -/
theorem ownership_and_retryable_cleanup
    (run : exec (guarded serialized next) ({} : System w) ks = some s) :
    s.shared.lifecycle.Sound ∧
      (∀ pc ∈ s.calls,
        (pc.driverCall = some .install → s.shared.lifecycle.driverInstalled = false) ∧
        (pc.driverCall = some .stop → s.shared.lifecycle.driverStarted = true) ∧
        (pc.driverCall = some .uninstall → s.shared.lifecycle.driverInstalled = true ∧
          s.shared.lifecycle.driverStarted = false ∧ s.shared.lifecycle.taskOwned = false)) ∧
      (∀ ls k result t, StopCall (fun _ _ => true) s ls k result t →
        (result = .notStarted ↔ s.shared.lifecycle.state = .stopped) ∧
        (result = .notStarted → exec next s ls = some t) ∧
        (result ≠ .notStarted → (result = .ok ↔ t.shared.lifecycle.state = .stopped))) ∧
      (∀ ls k result t, s.shared.lifecycle.state ≠ .stopped →
        StopCall succeeding s ls k result t →
        result = .ok ∧ t.shared.lifecycle.state = .stopped ∧
          t.shared.lifecycle.driverInstalled = false ∧
          t.shared.lifecycle.driverStarted = false ∧ t.shared.lifecycle.taskOwned = false) ∧
      (s.calls = [] → ∀ ls u,
        exec (guarded withinCall next) { s with calls := [.stop (.begin .load)] } ls = some u →
        let component := guarded withinCall (next (w := w))
        total component callSteps { s with calls := [.stop (.begin .load)] } ls ≤
          queueCapacity + 17 +
            total component callMissed { s with calls := [.stop (.begin .load)] } ls +
            total component refilled { s with calls := [.stop (.begin .load)] } ls) ∧
      (s.calls = [] → s.shared.lifecycle.state ≠ .stopped → ∀ ls u,
        exec (guarded wellStopping next) { s with calls := [.stop (.begin .load)] } ls = some u →
        u.calls = [] ∨ ∃ ls' k t, StopCall succeeding s (ls ++ ls') k .ok t) := by
  have outlined := exec_outlined run
  refine ⟨outlined.sound, fun pc => outlined.driverCall, ?_, ?_, ?_, ?_⟩
  · intro ls k result t call
    rcases call.last outlined with ⟨rfl, stopped, untouched⟩ | ⟨worked, live, finished⟩
    · exact ⟨by simp [stopped], fun _ => untouched, fun absurd => absurd.elim rfl⟩
    · exact ⟨by simp [worked, live], fun absurd => (worked absurd).elim, fun _ => finished⟩
  · intro ls k result t live call
    rcases call.last outlined with ⟨-, stopped, -⟩ | ⟨worked, -, finished⟩
    · exact absurd stopped live
    · have ok : result = .ok := call.succeeds.resolve_left worked
      have stopped := finished.mp ok
      exact ⟨ok, stopped, (call.sound outlined).stopped stopped⟩
  · exact fun _ ls u steps => stop_bounded rfl steps
  · exact fun quiescent live ls u steps => stop_goes_on (exec_provided run) quiescent live steps

/-- A start(), and a stop() whose driver call fails and which waits for the task in vain. -/
def failedStopRun : List Choice :=
  startRun ++ .beginStop :: List.replicate 4 (.call 0 true) ++
    [.call 0 false, .call 0 true, .call 0 false] ++ List.replicate 3 (.call 0 true)

/-- After the failed stop() everything is still owned, and a retried one releases it. -/
theorem ownership_and_retryable_cleanup_retried :
    let s := final (guarded serialized next) ({} : System 32) failedStopRun
    exec (guarded serialized next) ({} : System 32) failedStopRun = some s ∧
      s.shared.lifecycle = ⟨.stopping, true, true, true⟩ ∧
      ∃ ls k t, StopCall succeeding s ls k .ok t ∧ t.shared.lifecycle.driverInstalled = false := by
  intro s
  have run : exec (guarded serialized next) ({} : System 32) failedStopRun = some s :=
    exec_eq_final _ _ _ (by decide)
  have kept : s.shared.lifecycle = ⟨.stopping, true, true, true⟩ := by decide
  have quiescent : s.calls = [] := List.isEmpty_iff.mp (by decide)
  have live : s.shared.lifecycle.state ≠ .stopped := by simp [kept]
  obtain ⟨-, -, -, released, -, goesOn⟩ := ownership_and_retryable_cleanup run
  obtain ⟨ls, k, t, call⟩ :=
    (goesOn quiescent live [] _ (exec_nil _)).resolve_left (by simp)
  exact ⟨run, kept, ls, k, t, call, (released ls k .ok t live call).2.2.1⟩

end System

end CanTelemetry.CanBus
