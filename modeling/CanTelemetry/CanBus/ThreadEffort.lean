import CanTelemetry.CanBus.CallEffort

/-! No thread of the component spins. The task, receive() and statistics() take a bounded number
of steps for each message they ask the driver for and each call, unless another thread has
moved the tail, raised or reset the watermark or changed the state in the meantime, or a weak
exchange has failed. So one of two threads that get in each other's way always goes on. -/

namespace CanTelemetry.CanBus

open Execution RingIndex Threads VehicleCore

variable {w : ℕ}

/-! ### The receive task -/

def LatchFaultPc.exchanges : LatchFaultPc → Bool
  | .load => false
  | .exchange _ _ => true

theorem LatchFaultPc.spends (c : LifecycleController) (cas : Bool) (pc : LatchFaultPc) :
    1 + ((pc.step c cas).2.live.map (variant (pc.step c cas).1.state)).sum ≤
      pc.variant c.state + missed pc.exchanges cas := by
  have tested : ((test c.state).live.map (variant c.state)).sum ≤ 1 := by
    cases state : c.state <;> simp [test, variant]
  cases pc with
  | load =>
    simp only [step, variant]
    omega
  | exchange current live =>
    by_cases won : cas = true ∧ c.state = current
    · simp [step, won, variant]
    · simp only [step, if_neg won, variant, missed, exchanges, Bool.true_and]
      by_cases same : c.state = current
      · have lost : cas = false := by simpa [same] using won
        simp only [same, lost, if_true, Bool.not_false] at tested ⊢
        omega
      · rw [if_neg same]
        omega

theorem LatchFaultPc.disturbed (before after : LifecycleState) (pc : LatchFaultPc) :
    pc.variant after ≤ pc.variant before + changed before after 1 := by
  unfold changed
  split
  case isTrue same => rw [same, Nat.add_zero]
  case isFalse other =>
    cases pc with
    | load => exact Nat.le_succ 2
    | exchange current live =>
      simp only [variant]
      split <;> split <;> omega

def LatchPc.exchanges : LatchPc → Bool
  | .latch pc => pc.exchanges
  | _ => false

theorem LatchPc.spends {sh sh' : Shared w} {cas : Bool} {pc : LatchPc}
    {control : Control LatchPc Unit} (step : pc.step sh cas = some (sh', control)) :
    1 + (control.live.map (variant sh'.lifecycle.state)).sum ≤
      pc.variant sh.lifecycle.state + missed pc.exchanges cas := by
  cases pc with
  | unrequest =>
    obtain ⟨rfl, rfl⟩ := Prod.mk.inj (Option.some.inj step)
    simp [variant, LatchFaultPc.variant]
  | latch pc =>
    obtain ⟨rfl, rfl⟩ := Prod.mk.inj (Option.some.inj step)
    refine (spends_call (n := 1) (pc.spends sh.lifecycle cas) ?_ ?_).trans ?_
    · intro pc
      simp only [variant]
      omega
    · intro new _
      split <;> simp [variant]
    · simp only [variant, exchanges]
      omega
  | wake =>
    obtain ⟨s, -, same⟩ := Option.map_eq_some_iff.mp step
    obtain ⟨rfl, rfl⟩ := Prod.mk.inj same
    simp [variant]

theorem LatchPc.disturbed (before after : LifecycleState) (pc : LatchPc) :
    pc.variant after ≤ pc.variant before + changed before after 1 := by
  cases pc with
  | latch pc =>
    have inner := pc.disturbed before after
    simp only [variant]
    omega
  | _ => exact Nat.le_add_right _ _

namespace TaskPc

/-- How many steps are left up to the next message that the task asks the driver for. -/
def left (sh : Shared w) : TaskPc w → ℕ
  | .receive => 0
  | .delete => 1
  | .giveStopped => 2
  | .acknowledge => 3
  | .loopTest => 4
  | .latch pc => pc.variant sh.lifecycle.state + 3
  | .recordBusOff => 8
  | .readAlerts => 9
  | .storeLast _ => 10
  | .recordMissed _ => 11
  | .recordBusErrors _ => 12
  | .readStatus => 13
  | .giveAvailable | .recordInvalid => 14
  | .push pc => pc.variant sh.frames.queueHighWatermark + 14
  | .stamp _ => 23

/-- Where it asks, the task may go on. -/
def budget : TaskPc w → ℕ
  | .receive => 24
  | _ => 0

def exchanges : TaskPc w → Bool
  | .push pc => pc.exchanges
  | .latch pc => pc.exchanges
  | _ => false

theorem spends {sh sh' : Shared w} {env : TaskEnv} {pc : TaskPc w}
    {control : Control (TaskPc w) Unit} (step : pc.step env sh = some (sh', control)) :
    1 + (control.live.map (left sh')).sum ≤
      pc.left sh + (pc.budget + missed pc.exchanges env.cas) := by
  cases pc with
  | loopTest =>
    obtain ⟨rfl, rfl⟩ := Prod.mk.inj (Option.some.inj step)
    refine spends_next ?_
    split <;> simp [left]
  | receive =>
    obtain ⟨rfl, rfl⟩ := Prod.mk.inj (Option.some.inj step)
    cases env.received <;> simp only [left, budget, LatchPc.variant, Control.live_next,
      List.map_cons, List.map_nil, List.sum_singleton] <;> omega
  | stamp message =>
    obtain ⟨rfl, rfl⟩ := Prod.mk.inj (Option.some.inj step)
    refine spends_next ?_
    split <;> simp [left, PushPc.variant]
  | push pc =>
    obtain ⟨rfl, rfl⟩ := Prod.mk.inj (Option.some.inj step)
    refine (spends_call (n := 14) (pc.spends sh.frames env.cas) ?_ ?_).trans ?_
    · exact fun _ => le_rfl
    · intro accepted _
      cases accepted <;> simp [left]
    · simp only [left, budget, exchanges]
      omega
  | giveAvailable | giveStopped =>
    obtain ⟨s, -, same⟩ := Option.map_eq_some_iff.mp step
    obtain ⟨rfl, rfl⟩ := Prod.mk.inj same
    exact spends_next (by simp [left])
  | readStatus =>
    obtain ⟨rfl, rfl⟩ := Prod.mk.inj (Option.some.inj step)
    refine spends_next ?_
    cases env.status <;> simp [left, LatchPc.variant]
  | readAlerts =>
    obtain ⟨rfl, rfl⟩ := Prod.mk.inj (Option.some.inj step)
    refine spends_next ?_
    cases env.alerts with
    | alerts busOff => cases busOff <;> simp [left]
    | _ => simp [left, LatchPc.variant]
  | latch pc =>
    obtain ⟨⟨sh'', inner⟩, inside, same⟩ := Option.map_eq_some_iff.mp step
    obtain ⟨rfl, rfl⟩ := Prod.mk.inj same
    refine (spends_call (n := 3) (LatchPc.spends inside) ?_ ?_).trans ?_
    · exact fun _ => le_rfl
    · intro _ _
      simp [left]
    · simp only [left, budget, exchanges]
      omega
  | delete =>
    obtain ⟨rfl, rfl⟩ := Prod.mk.inj (Option.some.inj step)
    simp [left]
  | _ =>
    obtain ⟨rfl, rfl⟩ := Prod.mk.inj (Option.some.inj step)
    exact spends_next (by simp [left, LatchPc.variant])

/-- A task never waits for anybody. -/
theorem goes_on {sh : Shared w} (equipped : sh.equipped) (env : TaskEnv) (pc : TaskPc w) :
    (pc.step env sh).isSome = true := by
  cases pc with
  | giveAvailable =>
    rw [step, Option.isSome_map]
    exact equipped.1
  | giveStopped =>
    rw [step, Option.isSome_map]
    exact equipped.2
  | latch pc =>
    rw [step, Option.isSome_map]
    cases pc with
    | wake =>
      rw [LatchPc.step, Option.isSome_map]
      exact equipped.1
    | _ => rfl
  | _ => rfl

theorem disturbed (sh sh' : Shared w) (pc : TaskPc w) :
    pc.left sh' ≤ pc.left sh +
      (changed sh.frames.queueHighWatermark sh'.frames.queueHighWatermark 1 +
        changed sh.lifecycle.state sh'.lifecycle.state 1) := by
  cases pc with
  | push pc =>
    have inner := pc.disturbed sh.frames.queueHighWatermark sh'.frames.queueHighWatermark
    simp only [left]
    omega
  | latch pc =>
    have inner := pc.disturbed sh.lifecycle.state sh'.lifecycle.state
    simp only [left]
    omega
  | _ => exact Nat.le_add_right _ _

end TaskPc

/-! ### receive() -/

/-- receive() has no loop. -/
def ReceivePc.left : ReceivePc w → ℕ
  | .checkAfterTimeout => 1
  | .pop pc => pc.left
  | .checkAfterTake => 6
  | .take _ => 7
  | .checkState _ => 8

theorem ReceivePc.spends {sh sh' : Shared w} {granted : Bool} {pc : ReceivePc w}
    {control : Control (ReceivePc w) (Result × Option RawCanFrame)}
    (step : pc.step sh granted = some (sh', control)) :
    1 + (control.live.map left).sum ≤ pc.left := by
  cases pc with
  | checkState timeoutMs | checkAfterTimeout | checkAfterTake =>
    obtain ⟨rfl, rfl⟩ := Prod.mk.inj (Option.some.inj step)
    cases sh.lifecycle.state <;> simp [refuseOr, receiveRefusal, left, PopPc.left]
  | take timeoutMs =>
    simp only [ReceivePc.step] at step
    split at step
    · rcases takeNow_eq_some step with ⟨s, s', -, -, same⟩ | ⟨s, -, -, same⟩ <;>
        obtain ⟨rfl, rfl⟩ := Prod.mk.inj same <;> simp [left]
    · rcases takeWithin_eq_some step with ⟨s, s', -, -, -, same⟩ | ⟨-, same⟩ <;>
        obtain ⟨rfl, rfl⟩ := Prod.mk.inj same <;> simp [left]
  | pop pc =>
    obtain ⟨rfl, rfl⟩ := Prod.mk.inj (Option.some.inj step)
    exact spends_call (n := 0) (m := 0) (pc.spends sh.frames) (fun _ => le_rfl) fun _ _ => by simp

/-! ### The system -/

namespace System

variable {s t : System w} {k : Choice} {ks : List Choice}

def tasksLeft (s : System w) : ℕ := (s.tasks.map (TaskPc.left s.shared)).sum

def consumerLeft (s : System w) : ℕ := (s.consumer.map ReceivePc.left).getD 0

def observersLeft (s : System w) : ℕ := (s.observers.map fun o => o.2.left s.shared.frames).sum

/-- The steps of the task, of receive() and of statistics(). -/
def threadSteps (_ : System w) : Choice → ℕ
  | .task _ _ | .consumer _ | .observer _ _ => 1
  | _ => 0

/-- What they have to go when nobody gets in their way: for each call that begins, for each task
that is created, and for each message that a task asks the driver for. -/
def threadBudget (s : System w) : Choice → ℕ
  | .beginReceive _ => 8
  | .beginStatistics _ => 18
  | .call i ok => 4 * ((s.calls[i]?.map (CallPc.created ok)).getD []).length
  | .task i _ => (s.tasks[i]?.map TaskPc.budget).getD 0
  | _ => 0

/-- Their weak exchanges that fail. -/
def threadMissed (s : System w) : Choice → ℕ
  | .task i env => (s.tasks[i]?.map fun pc => missed pc.exchanges env.cas).getD 0
  | .observer i cas => (s.observers[i]?.map fun o => missed o.2.exchanges cas).getD 0
  | _ => 0

/-- The tasks that a step is not one of. -/
def otherTasks (s : System w) : Choice → ℕ
  | .task _ _ => s.tasks.length - 1
  | _ => s.tasks.length

def otherObservers (s : System w) : Choice → ℕ
  | .observer _ _ => s.observers.length - 1
  | _ => s.observers.length

/-- What a change of the watermark or of the state costs a task. -/
def taskCost (s : System w) (shared : Shared w) : ℕ :=
  changed s.shared.frames.queueHighWatermark shared.frames.queueHighWatermark 1 +
    changed s.shared.lifecycle.state shared.lifecycle.state 1

/-- What a change of the tail or of the watermark costs an observer. -/
def observerCost (s : System w) (shared : Shared w) : ℕ :=
  changed s.shared.frames.tail shared.frames.tail 3 +
    changed s.shared.frames.queueHighWatermark shared.frames.queueHighWatermark 1

/-- What a step costs the threads that it is not a step of. -/
def threadDisturbed (s : System w) (k : Choice) : ℕ :=
  ((s.next k).map fun t => s.otherTasks k * s.taskCost t.shared +
    s.otherObservers k * s.observerCost t.shared).getD 0

theorem tasks_disturbed (same : t.tasks = s.tasks) :
    t.tasksLeft ≤ s.tasksLeft + s.tasks.length * s.taskCost t.shared := by
  have each (pc) (_ : pc ∈ s.tasks) := TaskPc.disturbed s.shared t.shared pc
  simpa [taskCost, tasksLeft, same] using sum_map_le each

theorem observers_disturbed (same : t.observers = s.observers) :
    t.observersLeft ≤ s.observersLeft + s.observers.length * s.observerCost t.shared := by
  have each (o) (_ : o ∈ s.observers) := SnapshotPc.disturbed s.shared.frames t.shared.frames o.2
  simpa [observerCost, observersLeft, same] using sum_map_le each

/-- Only a call creates a task, which has its way to the first message to go. -/
theorem call_tasksLeft {i : ℕ} {ok : Bool} (step : s.next (.call i ok) = some t) :
    t.tasksLeft ≤ s.tasksLeft + s.tasks.length * s.taskCost t.shared +
      s.threadBudget (.call i ok) := by
  obtain ⟨pc, shared, control, found, -, rfl⟩ := next_call step
  have old := tasks_disturbed (s := s) (t := { s with shared := shared }) rfl
  simp only [tasksLeft, threadBudget, found, Option.map_some, Option.getD_some, List.map_append,
    List.sum_append] at old ⊢
  rcases pc.created_cases ok with none | ⟨-, -, -, one⟩
  · rw [none]
    exact Nat.add_le_add_right old 0
  · rw [one]
    exact Nat.add_le_add_right old 4

theorem task_spends {i : ℕ} {env : TaskEnv} (step : s.next (.task i env) = some t) :
    1 + t.tasksLeft ≤ s.tasksLeft + (s.tasks.length - 1) * s.taskCost t.shared +
      (s.threadBudget (.task i env) + s.threadMissed (.task i env)) := by
  obtain ⟨pc, shared, control, found, hstep, rfl⟩ := next_task step
  have all := sum_resume_le found (TaskPc.spends hstep) fun p _ => p.disturbed s.shared shared
  have inside := (List.getElem?_eq_some_iff.mp found).1
  simp only [List.map_const', List.sum_replicate, smul_eq_mul,
    List.length_eraseIdx_of_lt inside] at all
  simp only [threadBudget, threadMissed, found, Option.map_some, Option.getD_some, tasksLeft,
    taskCost]
  omega

theorem consumer_spends {granted : Bool} (step : s.next (.consumer granted) = some t) :
    1 + t.consumerLeft ≤ s.consumerLeft := by
  obtain ⟨pc, shared, control, found, hstep, rfl⟩ := next_consumer step
  have own := ReceivePc.spends hstep
  have after : (control.pc?.map ReceivePc.left).getD 0 =
      (control.live.map ReceivePc.left).sum := by
    cases control <;> simp
  simpa [consumerLeft, found, after] using own

theorem observer_spends (fits : distance s.shared.frames.head s.shared.frames.tail ≤ queueCapacity)
    {i : ℕ} {cas : Bool} (step : s.next (.observer i cas) = some t) :
    1 + t.observersLeft ≤ s.observersLeft + (s.observers.length - 1) * s.observerCost t.shared +
      s.threadMissed (.observer i cas) := by
  obtain ⟨operation, pc, found, rfl⟩ := next_observer step
  have own : 1 + ((((pc.step operation s.shared.frames cas).2.call (operation, ·)
      (.ret : Statistics → Control _ Statistics)).live).map fun o =>
        o.2.left (pc.step operation s.shared.frames cas).1).sum ≤
          pc.left s.shared.frames + missed pc.exchanges cas :=
    spends_call (n := 0) (pc.spends fits operation cas) (fun _ => le_rfl) fun _ _ => by simp
  have all := sum_resume_le found own fun o _ => o.2.disturbed s.shared.frames _
  have inside := (List.getElem?_eq_some_iff.mp found).1
  simp only [List.map_const', List.sum_replicate, smul_eq_mul,
    List.length_eraseIdx_of_lt inside] at all
  simp only [threadMissed, found, Option.map_some, Option.getD_some, observersLeft, observerCost]
  omega

theorem threads_spend (fits : distance s.shared.frames.head s.shared.frames.tail ≤ queueCapacity)
    (step : s.next k = some t) :
    s.threadSteps k + (t.tasksLeft + t.consumerLeft + t.observersLeft) ≤
      s.tasksLeft + s.consumerLeft + s.observersLeft +
        (s.threadBudget k + s.threadMissed k + s.threadDisturbed k) := by
  have disturbed : s.threadDisturbed k =
      s.otherTasks k * s.taskCost t.shared + s.otherObservers k * s.observerCost t.shared := by
    simp [threadDisturbed, step]
  rw [disturbed]
  cases k with
  | beginStart c | beginStop =>
    obtain rfl := Option.some.inj step
    simp only [threadSteps, Nat.zero_add]
    exact Nat.le_add_right _ _
  | call i ok =>
    have tasks := call_tasksLeft step
    obtain ⟨pc, shared, control, -, -, same⟩ := next_call step
    have observers : t.observersLeft ≤ _ := observers_disturbed (s := s) (by rw [same])
    have consumer : t.consumerLeft = s.consumerLeft := by rw [same]; rfl
    simp only [threadSteps, otherTasks, otherObservers]
    omega
  | task i env =>
    have tasks := task_spends step
    obtain ⟨pc, shared, control, -, -, same⟩ := next_task step
    have observers : t.observersLeft ≤ _ := observers_disturbed (s := s) (by rw [same])
    have consumer : t.consumerLeft = s.consumerLeft := by rw [same]; rfl
    simp only [threadSteps, otherTasks, otherObservers]
    omega
  | beginReceive timeoutMs =>
    obtain ⟨free, step⟩ := Option.ite_none_right_eq_some.mp step
    have same := (Option.some.inj step).symm
    have tasks : t.tasksLeft = s.tasksLeft := by rw [same]; rfl
    have observers : t.observersLeft = s.observersLeft := by rw [same]; rfl
    have none : s.consumerLeft = 0 := by simp [consumerLeft, Option.isNone_iff_eq_none.mp free]
    have consumer : t.consumerLeft = 8 := by rw [same]; rfl
    simp only [threadSteps, threadBudget]
    omega
  | consumer granted =>
    have consumer := consumer_spends step
    obtain ⟨pc, shared, control, -, -, same⟩ := next_consumer step
    have tasks : t.tasksLeft ≤ _ := tasks_disturbed (s := s) (by rw [same])
    have observers : t.observersLeft ≤ _ := observers_disturbed (s := s) (by rw [same])
    simp only [threadSteps, otherTasks, otherObservers]
    omega
  | beginStatistics operation =>
    have same := (Option.some.inj step).symm
    have tasks : t.tasksLeft = s.tasksLeft := by rw [same]; rfl
    have consumer : t.consumerLeft = s.consumerLeft := by rw [same]; rfl
    have observers : t.observersLeft = s.observersLeft + 18 := by
      rw [same, observersLeft, observersLeft, List.map_append, List.sum_append]
      rfl
    simp only [threadSteps, threadBudget]
    omega
  | observer i cas =>
    have observers := observer_spends fits step
    obtain ⟨operation, pc, -, same⟩ := next_observer step
    have tasks : t.tasksLeft ≤ _ := tasks_disturbed (s := s) (by rw [same])
    have consumer : t.consumerLeft = s.consumerLeft := by rw [same]; rfl
    simp only [threadSteps, otherTasks, otherObservers]
    omega
  | busOff =>
    obtain ⟨-, rfl⟩ := next_busOff step
    simp only [threadSteps, Nat.zero_add]
    exact Nat.le_add_right _ _

theorem ringUse_kept (small : queueCapacity < 2 ^ w) (h : s.Apart) (kept : s.ringUse.Kept)
    (step : guarded apart next s k = some t) : t.ringUse.Kept :=
  exec_invariant (fun _ _ _ => Clearing.next_kept small) (ring.step h step) kept

/-- In every run the steps of the tasks, of receive() and of statistics() are bounded: 24 for each
message that a task asks the driver for and 4 more for the task, 8 for each receive(), 18 for
each statistics(), one more for every weak exchange that fails, and what a step costs the other
threads by changing what they have read. Neither a task nor a statistics() is ever blocked. -/
theorem threads_end (wide : 6 < w) (run : exec (guarded apart next) ({} : System w) ks = some t) :
    let component := guarded apart (next (w := w))
    total component threadSteps {} ks ≤ total component threadBudget {} ks +
        total component threadMissed {} ks + total component threadDisturbed {} ks ∧
      (∀ i pc, t.tasks[i]? = some pc → ∀ env, (t.next (.task i env)).isSome = true) ∧
      ∀ i o, t.observers[i]? = some o → ∀ cas, (t.next (.observer i cas)).isSome = true := by
  intro component
  have small : queueCapacity < 2 ^ w := Nat.pow_lt_pow_right Nat.one_lt_two wide
  refine ⟨?_, ?_, ?_⟩
  · have spent : total component threadSteps {} ks +
        (t.tasksLeft + t.consumerLeft + t.observersLeft) ≤ 0 +
          total component (fun s k => s.threadBudget k + s.threadMissed k + s.threadDisturbed k)
            {} ks := by
      refine total_le (P := fun s => s.Apart ∧ s.ringUse.Kept)
        (f := fun s => s.tasksLeft + s.consumerLeft + s.observersLeft) ?_ ?_ run
      · rintro s k t ⟨h, kept⟩ step
        obtain ⟨allowed, moved⟩ := guarded_eq_some.mp step
        exact ⟨⟨h.next allowed moved, ringUse_kept small h kept step⟩,
          threads_spend kept.level.within moved⟩
      · exact ⟨exec_apart (exec_nil _), Clearing.idle_kept rfl⟩
    rw [total_add, total_add] at spent
    omega
  · intro i pc found env
    have provided := exec_provided (exec_guarded_mono (fun _ _ => serialized_of_apart) run)
    have steps := TaskPc.goes_on (provided.tasks (List.ne_nil_of_mem (List.mem_of_getElem? found)))
      env pc
    rw [next, found, Option.bind_some, Option.isSome_map]
    exact steps
  · intro i o found cas
    simp [next, found]

/-- A start(), one turn of the task, and a stop() meanwhile. -/
def turningRun : List Choice :=
  startRun ++ List.replicate 7 (.task 0 {}) ++ .beginStop :: stopRun

theorem threads_end_turning :
    total (guarded apart next) threadSteps ({} : System 32) turningRun ≤ 29 := by
  have bound := (threads_end (by decide)
    (exec_eq_final (guarded apart next) ({} : System 32) turningRun (by decide))).1
  exact bound.trans (by decide)

end System

end CanTelemetry.CanBus
