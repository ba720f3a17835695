import CanTelemetry.CanBus.Exclusivity
import CanTelemetry.CanBus.Overlap
import CanTelemetry.CanBus.RingQueue

/-! Receiving within one acquisition run. The counting semaphore and the ring are moved by
two threads in separate statements, so their counts agree only up to the steps that a
push or a receive() has still to make. `Feed` states that agreement for the run's task
and the consumer alone; the other threads do not disturb it. -/

namespace CanTelemetry.CanBus

open Execution RingIndex Threads VehicleCore

variable {w : ℕ}

/-! ### The two ends of the feed -/

def TaskPc.pushing : TaskPc w → Option (PushPc w RawCanFrame)
  | .push pc => some pc
  | _ => none

/-- The task has published a frame and not given its token yet. -/
def TaskPc.owesGive : TaskPc w → ℕ
  | .push (.updateWatermark _) | .push .countQueued | .giveAvailable => 1
  | _ => 0

/-- The frame that the step of a task makes visible in the ring. -/
def TaskPc.accepts : TaskPc w → List RawCanFrame
  | .push (.storeHead frame _ _) => [frame]
  | _ => []

/-- The valid frame that the step of a task makes of a driver message. -/
def TaskPc.stamps (env : TaskEnv) (sh : Shared w) : TaskPc w → List RawCanFrame
  | .stamp message =>
    if (message.frame env.time sh.busId).isValid then [message.frame env.time sh.busId] else []
  | _ => []

/-- The frame that a push has still to publish or to drop. -/
def TaskPc.offers : TaskPc w → List RawCanFrame
  | .push (.countReceived frame) | .push (.loadHead frame) | .push (.loadTail frame _)
  | .push (.writeSlot frame _ _) | .push (.storeHead frame _ _) => [frame]
  | _ => []

def ReceivePc.popping : ReceivePc w → Option (PopPc w RawCanFrame)
  | .pop pc => some pc
  | _ => none

/-- The call has taken a token and not released its frame yet. -/
def ReceivePc.holdsToken : ReceivePc w → ℕ
  | .checkAfterTake | .pop .loadTail | .pop (.loadHead _) | .pop (.readSlot _)
  | .pop (.storeTail _ _) => 1
  | _ => 0

/-- The pop has not looked whether there is a frame. -/
def ReceivePc.seeks : ReceivePc w → Bool
  | .pop .loadTail | .pop (.loadHead _) => true
  | _ => false

/-- The frame that the call has released from the ring and not returned yet. -/
def ReceivePc.inHand : ReceivePc w → List RawCanFrame
  | .pop (.countDelivered frame) => [frame]
  | _ => []

/-- The frame that a receive() returns with Ok. -/
def deliveredFrame : Result × Option RawCanFrame → List RawCanFrame
  | (.ok, frame) => frame.toList
  | _ => []

/-- A queue in the ring with the tokens for its frames, and the frames of the run so far. -/
structure Feed.Queue (sh : Shared w) (task : Option (TaskPc w)) (consumer : Option (ReceivePc w))
    (accepted returned : List RawCanFrame) (position : ℕ) (queue : List RawCanFrame) : Prop where
  agree : Agreement sh.frames (task.bind TaskPc.pushing) (consumer.bind ReceivePc.popping) position
    queue
  frames : accepted = returned ++ (consumer.map ReceivePc.inHand).getD [] ++ queue
  tokens : sh.lifecycle.state = .running → ∃ s, sh.available = some s ∧
    s.tokens + (task.map TaskPc.owesGive).getD 0 + (consumer.map ReceivePc.holdsToken).getD 0 =
      queue.length
  sought : (consumer.map ReceivePc.seeks).getD false = true → queue ≠ []

/-- The run's task, if it is still live, and the consumer agree about ring and semaphore. -/
structure Feed (sh : Shared w) (task : Option (TaskPc w)) (consumer : Option (ReceivePc w))
    (stamped accepted returned : List RawCanFrame) : Prop where
  active : sh.lifecycle.state = .running ∨ sh.lifecycle.state = .faulted
  latched : sh.lifecycle.state = .faulted →
    ∀ pc, task = some pc → pc = .latch .wake ∨ pc = .acknowledge
  wakes : task = some (.latch .wake) → sh.lifecycle.state = .faulted
  offered : (accepted ++ (task.map TaskPc.offers).getD []).Sublist stamped
  queue : ∃ position queue, Feed.Queue sh task consumer accepted returned position queue

namespace Feed

variable {sh sh' : Shared w} {task : Option (TaskPc w)} {consumer : Option (ReceivePc w)}
  {stamped accepted returned : List RawCanFrame} {position : ℕ} {queue : List RawCanFrame}

/-- Only the ring's frames and indices, the tokens and the state matter. -/
theorem Queue.of_same (h : Queue sh task consumer accepted returned position queue)
    (same : FrameRing.Same sh.frames sh'.frames) (available : sh'.available = sh.available)
    (state : sh'.lifecycle.state = sh.lifecycle.state) :
    Queue sh' task consumer accepted returned position queue := by
  refine ⟨h.agree.of_same same, h.frames, ?_, h.sought⟩
  rw [state, available]
  exact h.tokens

theorem of_same (h : Feed sh task consumer stamped accepted returned)
    (same : FrameRing.Same sh.frames sh'.frames) (available : sh'.available = sh.available)
    (state : sh'.lifecycle.state = sh.lifecycle.state) :
    Feed sh' task consumer stamped accepted returned := by
  obtain ⟨active, latched, wakes, offered, position, queue, h⟩ := h
  rw [← state] at active latched wakes
  exact ⟨active, latched, wakes, offered, position, queue, h.of_same same available state⟩

/-- In the running state the tokens are accounted for. -/
theorem account (small : queueCapacity < 2 ^ w)
    (h : Feed sh task consumer stamped accepted returned)
    (running : sh.lifecycle.state = .running) :
    ∃ s, sh.available = some s ∧
      s.tokens + (task.map TaskPc.owesGive).getD 0 + (consumer.map ReceivePc.holdsToken).getD 0 =
        distance sh.frames.head sh.frames.tail := by
  obtain ⟨position, queue, h⟩ := h.queue
  obtain ⟨s, available, balance⟩ := h.tokens running
  exact ⟨s, available, balance.trans (h.agree.holds.distance_eq small).symm⟩

theorem returned_prefix (h : Feed sh task consumer stamped accepted returned) :
    returned <+: accepted := by
  obtain ⟨position, queue, h⟩ := h.queue
  rw [h.frames, List.append_assoc]
  exact List.prefix_append _ _

/-- The state in which the task is anywhere but at the end of a latched fault. -/
theorem running (h : Feed sh task consumer stamped accepted returned) {pc : TaskPc w}
    (at_pc : task = some pc) (wake : pc ≠ .latch .wake) (acknowledge : pc ≠ .acknowledge) :
    sh.lifecycle.state = .running := by
  refine h.active.resolve_right ?_
  intro faulted
  rcases h.latched faulted pc at_pc with rfl | rfl
  · exact wake rfl
  · exact acknowledge rfl

/-- A step of the task that leaves the ring's frames and the tokens alone. -/
theorem pass {pc : TaskPc w} {task' : Option (TaskPc w)}
    (h : Feed sh (some pc) consumer stamped accepted returned)
    (same : FrameRing.Same sh.frames sh'.frames) (state : sh'.lifecycle.state = sh.lifecycle.state)
    (available : sh.lifecycle.state = .running → sh'.available = sh.available)
    (latched : sh.lifecycle.state = .faulted → ∀ pc', task' = some pc' → pc' = .acknowledge)
    (wakes : task' ≠ some (.latch .wake)) (pushing : task'.bind TaskPc.pushing = none)
    (owes : (task'.map TaskPc.owesGive).getD 0 = pc.owesGive)
    (offers : (task'.map TaskPc.offers).getD [] = []) :
    Feed sh' task' consumer stamped accepted returned := by
  obtain ⟨active, -, -, offered, position, queue, h⟩ := h
  rw [← state] at active latched
  refine ⟨active, ?_, fun waking => absurd waking wakes, ?_, position, queue, ?_⟩
  · exact fun faulted pc' at_pc => .inr (latched faulted pc' at_pc)
  · rw [offers, List.append_nil]
    exact (List.sublist_append_left accepted _).trans offered
  · refine ⟨⟨h.agree.holds.of_same same, ?_, (h.agree.of_same same).consumer⟩, h.frames, ?_, h.sought⟩
    · rw [pushing]
      trivial
    · rw [state, owes]
      intro running
      rw [available running]
      exact h.tokens running

/-- A step in the loop of the task, outside of a push. -/
theorem loop {pc pc' : TaskPc w} (h : Feed sh (some pc) consumer stamped accepted returned)
    (same : FrameRing.Same sh.frames sh'.frames) (available : sh'.available = sh.available)
    (state : sh'.lifecycle.state = sh.lifecycle.state)
    (wake : pc ≠ .latch .wake) (acknowledge : pc ≠ .acknowledge) (wakes : pc' ≠ .latch .wake)
    (pushing : pc'.pushing = none) (owes : pc'.owesGive = pc.owesGive) (offers : pc'.offers = []) :
    Feed sh' (some pc') consumer stamped accepted returned := by
  refine h.pass same state (fun _ => available) ?_ (fun waking => wakes (Option.some.inj waking))
    pushing owes offers
  intro faulted
  have running := h.running rfl wake acknowledge
  cases running.symm.trans faulted

end Feed

/-- A push appends to the queue what it accepts. -/
theorem PushPc.ops_accepts {ring : FrameRing w queueCapacity RawCanFrame}
    {queue queue' : List RawCanFrame} (pc : PushPc w RawCanFrame)
    (run : exec (BoundedFifo.next queueCapacity) queue (pc.ops ring) = some queue') :
    queue' = queue ++ (TaskPc.push pc).accepts := by
  cases pc with
  | loadTail frame head =>
    by_cases full : distance head ring.tail ≥ queueCapacity
    · simp only [PushPc.ops, if_pos full] at run
      obtain ⟨middle, refused, rest⟩ := exec_cons_eq_some.mp run
      obtain rfl := Option.some.inj rest
      obtain ⟨-, same⟩ := Option.ite_none_right_eq_some.mp refused
      obtain rfl := Option.some.inj same
      exact (List.append_nil _).symm
    · simp only [PushPc.ops, if_neg full] at run
      obtain rfl := Option.some.inj run
      exact (List.append_nil _).symm
  | storeHead frame head tail =>
    obtain ⟨middle, enqueued, rest⟩ := exec_cons_eq_some.mp run
    obtain rfl := Option.some.inj rest
    obtain ⟨-, same⟩ := Option.ite_none_right_eq_some.mp enqueued
    exact (Option.some.inj same).symm
  | _ =>
    obtain rfl := Option.some.inj run
    exact (List.append_nil _).symm

/-- Where the task stands after a step of its push. -/
def TaskPc.afterPush : Control (PushPc w RawCanFrame) Bool → TaskPc w
  | .next pc => .push pc
  | .ret true => .giveAvailable
  | .ret false => .readStatus

/-- Where the task stands after a step of the fault latch. -/
def TaskPc.afterLatch : Control LatchPc Unit → TaskPc w
  | .next pc => .latch pc
  | .ret _ => .acknowledge

theorem TaskPc.afterPush_ne_wake (control : Control (PushPc w RawCanFrame) Bool) :
    TaskPc.afterPush control ≠ .latch .wake := by
  cases control with
  | next pc => simp [afterPush]
  | ret accepted => cases accepted <;> simp [afterPush]

/-- Publishing makes the give outstanding, and a frame is offered until it is published. -/
theorem PushPc.step_feed (ring : FrameRing w queueCapacity RawCanFrame) (cas : Bool)
    (pc : PushPc w RawCanFrame) :
    (TaskPc.afterPush (pc.step ring cas).2).pushing = (pc.step ring cas).2.pc? ∧
      (TaskPc.afterPush (pc.step ring cas).2).owesGive =
        (TaskPc.push pc).owesGive + (TaskPc.push pc).accepts.length ∧
      ((TaskPc.push pc).accepts ++ (TaskPc.afterPush (pc.step ring cas).2).offers).Sublist
        (TaskPc.push pc).offers := by
  cases pc with
  | updateWatermark pc =>
    simp only [PushPc.step]
    generalize (pc.step ring cas).2 = control
    cases control <;> exact ⟨rfl, rfl, List.Sublist.refl _⟩
  | loadTail frame head =>
    by_cases full : distance head ring.tail ≥ queueCapacity
    · simp only [PushPc.step, if_pos full]
      exact ⟨rfl, rfl, List.nil_sublist _⟩
    · simp only [PushPc.step, if_neg full]
      exact ⟨rfl, rfl, List.Sublist.refl _⟩
  | _ => exact ⟨rfl, rfl, List.Sublist.refl _⟩

namespace Feed

variable {sh sh' : Shared w} {task : Option (TaskPc w)} {consumer : Option (ReceivePc w)}
  {stamped accepted returned : List RawCanFrame} {position : ℕ} {queue : List RawCanFrame}

theorem push_step (small : queueCapacity < 2 ^ w) (divides : queueCapacity ∣ 2 ^ w)
    {pc : PushPc w RawCanFrame} (cas : Bool)
    (h : Feed sh (some (.push pc)) consumer stamped accepted returned) :
    Feed { sh with frames := (pc.step sh.frames cas).1 }
      (some (.afterPush (pc.step sh.frames cas).2)) consumer stamped
      (accepted ++ (TaskPc.push pc).accepts) returned := by
  have running := h.running rfl (by simp) (by simp)
  obtain ⟨active, -, -, offered, position, queue, h⟩ := h
  obtain ⟨pushing, owes, offers⟩ := pc.step_feed sh.frames cas
  obtain ⟨queue', agree, fifo⟩ := h.agree.producer_step small divides cas
  obtain rfl := pc.ops_accepts fifo
  refine ⟨active, ?_, ?_, ?_, position, queue ++ (TaskPc.push pc).accepts, ?_, ?_, ?_, ?_⟩
  · intro faulted
    cases running.symm.trans faulted
  · exact fun waking => absurd (Option.some.inj waking) (TaskPc.afterPush_ne_wake _)
  · rw [Option.map_some, Option.getD_some, List.append_assoc]
    exact (List.Sublist.append_left offers accepted).trans offered
  · rw [Option.bind_some, pushing]
    exact agree
  · rw [h.frames, List.append_assoc]
  · intro _
    obtain ⟨s, available, balance⟩ := h.tokens running
    refine ⟨s, available, ?_⟩
    simp only [Option.map_some, Option.getD_some] at balance ⊢
    rw [owes, List.length_append]
    omega
  · intro seeking
    exact List.append_ne_nil_of_left_ne_nil (h.sought seeking) _

/-- The terminal fault: the latch changes the state once, and its wakeup comes after it. -/
theorem latch_step {pc : LatchPc} {env : TaskEnv} {control : Control LatchPc Unit}
    (h : Feed sh (some (.latch pc)) consumer stamped accepted returned)
    (step : pc.step sh env.cas = some (sh', control)) :
    Feed sh' (some (.afterLatch control)) consumer stamped accepted returned := by
  cases pc with
  | unrequest =>
    obtain ⟨rfl, rfl⟩ := Prod.mk.inj (Option.some.inj step)
    exact h.loop (.refl _) rfl rfl (by simp) (by simp) (by rintro ⟨⟩) rfl rfl rfl
  | latch pc =>
    have running := h.running rfl (by simp) (by simp)
    obtain ⟨rfl, rfl⟩ := Prod.mk.inj (Option.some.inj step)
    rcases pc.step_cases sh.lifecycle env.cas with looked | ⟨-, latched⟩
    · rw [looked, running]
      exact h.loop (.refl _) rfl rfl (by simp) (by simp) (by rintro ⟨⟩) rfl rfl rfl
    · rw [latched]
      obtain ⟨-, -, -, offered, position, queue, h⟩ := h
      have faulted (task' : TaskPc w) (at_end : task' = .latch .wake ∨ task' = .acknowledge) :
          Feed { sh with lifecycle := { sh.lifecycle with state := .faulted } } (some task') consumer
            stamped accepted returned := by
        have nothing : task'.pushing = none ∧ task'.offers = [] := by
          rcases at_end with rfl | rfl <;> exact ⟨rfl, rfl⟩
        refine ⟨.inr rfl, ?_, fun _ => rfl, ?_, position, queue, ?_, h.frames, by simp, h.sought⟩
        · intro _ pc' at_pc
          obtain rfl := Option.some.inj at_pc
          exact at_end
        · rw [Option.map_some, Option.getD_some, nothing.2]
          exact offered
        · rw [Option.bind_some, nothing.1]
          exact h.agree
      dsimp only [Control.call_ret]
      split
      case isTrue => exact faulted _ (.inl rfl)
      case isFalse => exact faulted _ (.inr rfl)
  | wake =>
    have faulted := h.wakes rfl
    obtain ⟨s, -, same⟩ := Option.map_eq_some_iff.mp step
    obtain ⟨rfl, rfl⟩ := Prod.mk.inj same
    refine h.pass (.refl _) rfl ?_ ?_ (by rintro ⟨⟩) rfl rfl rfl
    · intro running
      cases running.symm.trans faulted
    · exact fun _ pc' at_pc => (Option.some.inj at_pc).symm

theorem task_step (small : queueCapacity < 2 ^ w) (divides : queueCapacity ∣ 2 ^ w)
    {pc : TaskPc w} {env : TaskEnv} {control : Control (TaskPc w) Unit} (live : pc.live = true)
    (h : Feed sh (some pc) consumer stamped accepted returned)
    (step : pc.step env sh = some (sh', control)) :
    Feed sh' (control.pc?.filter TaskPc.live) consumer (stamped ++ pc.stamps env sh)
      (accepted ++ pc.accepts) returned := by
  cases pc with
  | push pc =>
    obtain ⟨rfl, rfl⟩ := Prod.mk.inj (Option.some.inj step)
    have pushed := h.push_step small divides env.cas
    simp only [TaskPc.stamps, List.append_nil]
    generalize (pc.step sh.frames env.cas).2 = control at pushed
    cases control with
    | next pc' => exact pushed
    | ret accepted => cases accepted <;> exact pushed
  | stamp message =>
    obtain ⟨rfl, rfl⟩ := Prod.mk.inj (Option.some.inj step)
    by_cases valid : (message.frame env.time sh.busId).isValid = true
    · simp only [TaskPc.stamps, if_pos valid, TaskPc.accepts, List.append_nil]
      have running := h.running rfl (by simp) (by simp)
      obtain ⟨active, -, -, offered, position, queue, h⟩ := h
      refine ⟨active, ?_, by simp, ?_, position, queue, h.agree.begin_push _, h.frames, h.tokens,
        h.sought⟩
      · intro faulted
        cases running.symm.trans faulted
      · exact List.Sublist.append_right ((List.sublist_append_left accepted _).trans offered) _
    · simp only [TaskPc.stamps, if_neg valid, TaskPc.accepts, List.append_nil]
      exact h.loop (.refl _) rfl rfl (by simp) (by simp) (by simp) rfl rfl rfl
  | giveAvailable =>
    obtain ⟨s, hs, same⟩ := Option.map_eq_some_iff.mp step
    obtain ⟨rfl, rfl⟩ := Prod.mk.inj same
    simp only [TaskPc.stamps, TaskPc.accepts, List.append_nil]
    have running := h.running rfl (by simp) (by simp)
    obtain ⟨active, -, -, offered, position, queue, h⟩ := h
    refine ⟨active, ?_, by simp, offered, position, queue, h.agree, h.frames, ?_, h.sought⟩
    · intro faulted
      cases running.symm.trans faulted
    · intro _
      obtain ⟨s', available, balance⟩ := h.tokens running
      obtain rfl := Option.some.inj (hs.symm.trans available)
      have fits := h.agree.holds.fits
      have owed : s.tokens + 1 + (consumer.map ReceivePc.holdsToken).getD 0 = queue.length := balance
      have given := Semaphore.give_tokens_of_lt (s := s) (by omega)
      refine ⟨s.give, rfl, ?_⟩
      rw [given]
      exact owed
  | latch pc =>
    obtain ⟨⟨sh'', inner⟩, inside, same⟩ := Option.map_eq_some_iff.mp step
    obtain ⟨rfl, rfl⟩ := Prod.mk.inj same
    simp only [TaskPc.stamps, TaskPc.accepts, List.append_nil]
    have latched := h.latch_step inside
    cases inner <;> exact latched
  | acknowledge =>
    obtain ⟨rfl, rfl⟩ := Prod.mk.inj (Option.some.inj step)
    simp only [TaskPc.stamps, TaskPc.accepts, List.append_nil]
    exact h.pass (.refl _) rfl (fun _ => rfl) (by rintro - - ⟨⟩) (by simp) rfl rfl rfl
  | loopTest =>
    obtain ⟨rfl, rfl⟩ := Prod.mk.inj (Option.some.inj step)
    simp only [TaskPc.stamps, TaskPc.accepts, List.append_nil]
    split <;> exact h.loop (.refl _) rfl rfl (by simp) (by simp) (by simp) rfl rfl rfl
  | receive =>
    obtain ⟨rfl, rfl⟩ := Prod.mk.inj (Option.some.inj step)
    simp only [TaskPc.stamps, TaskPc.accepts, List.append_nil]
    cases env.received <;> exact h.loop (.refl _) rfl rfl (by simp) (by simp) (by simp) rfl rfl rfl
  | readStatus =>
    obtain ⟨rfl, rfl⟩ := Prod.mk.inj (Option.some.inj step)
    simp only [TaskPc.stamps, TaskPc.accepts, List.append_nil]
    cases env.status <;> exact h.loop (.refl _) rfl rfl (by simp) (by simp) (by simp) rfl rfl rfl
  | readAlerts =>
    obtain ⟨rfl, rfl⟩ := Prod.mk.inj (Option.some.inj step)
    simp only [TaskPc.stamps, TaskPc.accepts, List.append_nil]
    cases env.alerts with
    | alerts busOff =>
      cases busOff <;>
        exact h.loop (.refl _) rfl rfl (by simp) (by simp) (by simp) rfl rfl rfl
    | _ => exact h.loop (.refl _) rfl rfl (by simp) (by simp) (by simp) rfl rfl rfl
  | giveStopped => cases live
  | delete => cases live
  | _ =>
    obtain ⟨rfl, rfl⟩ := Prod.mk.inj (Option.some.inj step)
    simp only [TaskPc.stamps, TaskPc.accepts, List.append_nil]
    exact h.loop ⟨rfl, rfl, rfl⟩ rfl rfl (by simp) (by simp) (by simp) rfl rfl rfl

/-- A step of a receive() outside of its pop; it may only drop a token once the fault is latched. -/
theorem turn {pc : ReceivePc w} {consumer' : Option (ReceivePc w)}
    (h : Feed sh task (some pc) stamped accepted returned) (idle : pc.inHand = [])
    (popping : consumer'.bind ReceivePc.popping = none)
    (hand : (consumer'.map ReceivePc.inHand).getD [] = [])
    (held : sh.lifecycle.state = .running →
      (consumer'.map ReceivePc.holdsToken).getD 0 = pc.holdsToken)
    (seeks : (consumer'.map ReceivePc.seeks).getD false = false) :
    Feed sh task consumer' stamped accepted returned := by
  obtain ⟨active, latched, wakes, offered, position, queue, h⟩ := h
  refine ⟨active, latched, wakes, offered, position, queue, ⟨h.agree.holds, h.agree.producer, ?_⟩,
    ?_, ?_, ?_⟩
  · rw [popping]
    trivial
  · have frames := h.frames
    rw [Option.map_some, Option.getD_some, idle] at frames
    rw [hand]
    exact frames
  · intro running
    rw [held running]
    exact h.tokens running
  · rw [seeks]
    simp

/-- A receive() that has taken a token. -/
theorem take {timeoutMs : BitVec 32} {s s' : Semaphore queueCapacity}
    (h : Feed sh task (some (.take timeoutMs)) stamped accepted returned)
    (available : sh.available = some s) (taken : s.take? = some s') :
    Feed { sh with available := some s' } task (some .checkAfterTake) stamped accepted returned := by
  obtain ⟨active, latched, wakes, offered, position, queue, h⟩ := h
  refine ⟨active, latched, wakes, offered, position, queue, h.agree, h.frames, ?_,
    (absurd · Bool.false_ne_true)⟩
  intro running
  obtain ⟨s'', same, balance⟩ := h.tokens running
  obtain rfl := Option.some.inj (available.symm.trans same)
  have fewer := Semaphore.take?_eq_some.mp taken
  have held : s.tokens + (task.map TaskPc.owesGive).getD 0 + 0 = queue.length := balance
  refine ⟨s', rfl, ?_⟩
  show s'.tokens + (task.map TaskPc.owesGive).getD 0 + 1 = queue.length
  omega

/-- What a step of the consumer's pop does. -/
theorem pop_step (small : queueCapacity < 2 ^ w) {pc : PopPc w RawCanFrame}
    (h : Feed sh task (some (.pop pc)) stamped accepted returned) :
    Feed { sh with frames := (pc.step sh.frames).1 } task
        ((pc.step sh.frames).2.pc?.map ReceivePc.pop) stamped accepted
        (returned ++ ((pc.step sh.frames).2.value?.join).toList) ∧
      (pc.step sh.frames).2.value? ≠ some none := by
  obtain ⟨active, latched, wakes, offered, position, queue, h⟩ := h
  obtain ⟨queue', agree, fifo, left⟩ := h.agree.consumer_step small
  have frames := h.frames
  have conserved := BoundedFifo.exec_conserves fifo
  have known := h.agree.consumer
  rw [left] at conserved
  cases pc with
  | loadTail =>
    obtain rfl := Option.some.inj fifo
    refine ⟨⟨active, latched, wakes, offered, _, _, agree, ?_, h.tokens, h.sought⟩, by rintro ⟨⟩⟩
    simpa [PopPc.step, ReceivePc.inHand] using frames
  | loadHead tail =>
    obtain rfl : tail = sh.frames.tail := known
    have some : queue ≠ [] := h.sought rfl
    have apart := mt (h.agree.holds.tail_eq_head_iff small).mp some
    simp only [PopPc.ops, if_neg apart] at fifo
    obtain rfl := Option.some.inj fifo
    simp only [PopPc.step, if_neg apart] at agree ⊢
    refine ⟨⟨active, latched, wakes, offered, _, _, agree, ?_, h.tokens,
      (absurd · Bool.false_ne_true)⟩, by simp⟩
    simpa [ReceivePc.inHand] using frames
  | readSlot tail =>
    obtain rfl := Option.some.inj fifo
    refine ⟨⟨active, latched, wakes, offered, _, _, agree, ?_, h.tokens,
      (absurd · Bool.false_ne_true)⟩, by rintro ⟨⟩⟩
    simpa [PopPc.step, ReceivePc.inHand] using frames
  | storeTail frame tail =>
    have released : queue = frame :: queue' := by
      simpa [PopPc.ops, PopPc.dequeued, BoundedFifo.entered] using conserved
    refine ⟨⟨active, latched, wakes, offered, _, _, agree, ?_, ?_,
      (absurd · Bool.false_ne_true)⟩, by rintro ⟨⟩⟩
    · simpa [PopPc.step, ReceivePc.inHand, released] using frames
    · intro running
      obtain ⟨s, available, balance⟩ := h.tokens running
      rw [released] at balance
      have held : s.tokens + (task.map TaskPc.owesGive).getD 0 + 1 = (frame :: queue').length :=
        balance
      refine ⟨s, available, ?_⟩
      show s.tokens + (task.map TaskPc.owesGive).getD 0 + 0 = queue'.length
      rw [List.length_cons] at held
      omega
  | countDelivered frame =>
    obtain rfl := Option.some.inj fifo
    refine ⟨⟨active, latched, wakes, offered, _, _, agree, ?_, h.tokens,
      (absurd · Bool.false_ne_true)⟩, by simp [PopPc.step]⟩
    simpa [PopPc.step, ReceivePc.inHand] using frames

/-- A refusal returns no frame and blames nobody. -/
theorem refuse {pc : ReceivePc w} (h : Feed sh task (some pc) stamped accepted returned)
    (idle : pc.inHand = []) (held : sh.lifecycle.state = .running → pc.holdsToken = 0)
    (result : Result) (blameless : result ≠ .driverFailure) :
    Feed sh task none stamped accepted (returned ++ deliveredFrame (result, none)) ∧
      ∀ value : Result × Option RawCanFrame,
        some (result, none) = some value → value.1 ≠ .driverFailure := by
  have empty : deliveredFrame (result, none) = [] := by
    cases result <;> rfl
  rw [empty, List.append_nil]
  refine ⟨h.turn idle rfl rfl (fun running => (held running).symm) rfl, ?_⟩
  rintro value same
  obtain rfl := Option.some.inj same
  exact blameless

theorem consumer_step (small : queueCapacity < 2 ^ w) {pc : ReceivePc w} {granted : Bool}
    {control : Control (ReceivePc w) (Result × Option RawCanFrame)}
    (h : Feed sh task (some pc) stamped accepted returned)
    (step : pc.step sh granted = some (sh', control)) :
    Feed sh' task control.pc? stamped accepted
        (returned ++ (control.value?.map deliveredFrame).getD []) ∧
      ∀ value, control.value? = some value → value.1 ≠ .driverFailure := by
  have goesOn {sh' : Shared w} {pc' : ReceivePc w}
      (feed : Feed sh' task (some pc') stamped accepted returned) :
      Feed sh' task (some pc') stamped accepted (returned ++ []) ∧
        ∀ value : Result × Option RawCanFrame, none = some value → value.1 ≠ .driverFailure := by
    rw [List.append_nil]
    exact ⟨feed, by simp⟩
  cases pc with
  | checkState timeoutMs =>
    obtain ⟨rfl, rfl⟩ := Prod.mk.inj (Option.some.inj step)
    rcases h.active with running | faulted
    · rw [running]
      exact goesOn (h.turn rfl rfl rfl (fun _ => rfl) rfl)
    · rw [faulted]
      exact h.refuse rfl (fun _ => rfl) .faulted (by simp)
  | take timeoutMs =>
    have expired : Feed sh task (some .checkAfterTimeout) stamped accepted returned :=
      h.turn rfl rfl rfl (fun _ => rfl) rfl
    simp only [ReceivePc.step] at step
    split at step
    · rcases takeNow_eq_some step with ⟨s, s', available, taken, same⟩ | ⟨s, -, -, same⟩ <;>
        obtain ⟨rfl, rfl⟩ := Prod.mk.inj same
      · exact goesOn (h.take available taken)
      · exact goesOn expired
    · rcases takeWithin_eq_some step with ⟨s, s', -, available, taken, same⟩ | ⟨-, same⟩ <;>
        obtain ⟨rfl, rfl⟩ := Prod.mk.inj same
      · exact goesOn (h.take available taken)
      · exact goesOn expired
  | checkAfterTimeout =>
    obtain ⟨rfl, rfl⟩ := Prod.mk.inj (Option.some.inj step)
    rcases h.active with running | faulted
    · rw [running]
      exact h.refuse rfl (fun _ => rfl) .timeout (by simp)
    · rw [faulted]
      exact h.refuse rfl (fun _ => rfl) .faulted (by simp)
  | checkAfterTake =>
    obtain ⟨rfl, rfl⟩ := Prod.mk.inj (Option.some.inj step)
    rcases h.active with running | faulted
    · rw [running]
      -- the token taken stands for a frame that is still queued
      obtain ⟨active, latched, wakes, offered, position, queue, h⟩ := h
      refine goesOn ⟨active, latched, wakes, offered, position, queue, h.agree.begin_pop, h.frames,
        h.tokens, fun _ => ?_⟩
      obtain ⟨s, -, balance⟩ := h.tokens running
      have held : s.tokens + (task.map TaskPc.owesGive).getD 0 + 1 = queue.length := balance
      exact List.ne_nil_of_length_pos (by omega)
    · rw [faulted]
      refine h.refuse rfl ?_ .faulted (by simp)
      intro running
      cases running.symm.trans faulted
  | pop pc =>
    obtain ⟨rfl, rfl⟩ := Prod.mk.inj (Option.some.inj step)
    obtain ⟨feed, found⟩ := h.pop_step small
    generalize (pc.step sh.frames).2 = control at feed found
    cases control with
    | next pc' => exact goesOn (by simpa using feed)
    | ret frame =>
      cases frame with
      | none => exact absurd rfl found
      | some frame =>
        refine ⟨feed, ?_⟩
        rintro value same
        obtain rfl := Option.some.inj same
        simp

end Feed

/-! ### The system within a run -/

/-- A start() that has not reserved anything. -/
def CallPc.passive : CallPc w → Bool
  | .start _ .beginStart | .start _ .refused => true
  | _ => false

theorem TaskPc.owesGive_of_dead {pc : TaskPc w} (dead : pc.live = false) : pc.owesGive = 0 := by
  cases pc with
  | giveStopped => rfl
  | delete => rfl
  | _ => cases dead

/-- A task that is not live touches neither ring nor tokens nor state. -/
theorem TaskPc.step_dead {pc : TaskPc w} {env : TaskEnv} {sh sh' : Shared w}
    {control : Control (TaskPc w) Unit} (dead : pc.live = false)
    (step : pc.step env sh = some (sh', control)) :
    sh'.frames = sh.frames ∧ sh'.available = sh.available ∧ sh'.lifecycle = sh.lifecycle ∧
      pc.stamps env sh = [] ∧ pc.accepts = [] ∧ control.live.filter TaskPc.live = [] := by
  cases pc with
  | giveStopped =>
    obtain ⟨token, -, same⟩ := Option.map_eq_some_iff.mp step
    obtain ⟨rfl, rfl⟩ := Prod.mk.inj same
    exact ⟨rfl, rfl, rfl, rfl, rfl, rfl⟩
  | delete =>
    obtain ⟨rfl, rfl⟩ := Prod.mk.inj (Option.some.inj step)
    exact ⟨rfl, rfl, rfl, rfl, rfl, rfl⟩
  | _ => cases dead

/-- Where every task has left its loop, a step of one of them brings none back. -/
theorem TaskPc.step_among_dead {tasks : List (TaskPc w)} {i : ℕ} {pc : TaskPc w} {env : TaskEnv}
    {sh sh' : Shared w} {control : Control (TaskPc w) Unit} (none : tasks.countP live = 0)
    (found : tasks[i]? = some pc) (step : pc.step env sh = some (sh', control)) :
    pc.live = false ∧ (resume tasks i control).countP live = 0 := by
  have dead : pc.live = false := by
    simpa using List.countP_eq_zero.mp none pc (List.mem_of_getElem? found)
  obtain ⟨-, -, -, -, -, gone⟩ := step_dead dead step
  have left : control.live.countP live = 0 := by
    rw [List.countP_eq_length_filter, gone]
    rfl
  have count := countP_resume live found control
  exact ⟨dead, by omega⟩

/-- The points of a start() from its reservation to the creation of the task. -/
def StartPc.preparing : StartPc w → Bool
  | .createAvailable | .createTaskStopped | .drainAvailable | .drainTaskStopped | .driverInstall
  | .markInstalled | .driverStart | .markStarted | .clear _ | .setBusId | .recordReset
  | .resetLastCounters | .request | .markTask | .createTask => true
  | _ => false

theorem StartPc.not_passive (c : Configuration) {pc : StartPc w} (prepares : pc.preparing = true) :
    (CallPc.start c pc).passive = false := by
  cases pc <;> first | rfl | cases prepares

/-- Those at which the tokens have been drained. -/
def StartPc.drained : StartPc w → Bool
  | .createAvailable | .createTaskStopped | .drainAvailable => false
  | pc => pc.preparing

/-- Those at which the ring has been cleared as well. -/
def StartPc.cleared : StartPc w → Bool
  | .clear (.snapshot _) | .clear .resetWatermark | .setBusId | .recordReset | .resetLastCounters
  | .request | .markTask | .createTask => true
  | _ => false

/-- What a start() has prepared at one of these points. -/
structure StartPc.Ready (pc : StartPc w) (sh : Shared w) : Prop where
  running : sh.lifecycle.state = .running
  drained : pc.drained = true → sh.available.map Semaphore.tokens = some 0
  clearing : ∀ head, pc = .clear (.storeTail head) → head = sh.frames.head
  cleared : pc.cleared = true → sh.frames.head = sh.frames.tail

theorem StartPc.Ready.of_same {pc : StartPc w} {sh sh' : Shared w} (h : pc.Ready sh)
    (same : FrameRing.Same sh.frames sh'.frames) (available : sh'.available = sh.available)
    (state : sh'.lifecycle.state = sh.lifecycle.state) : pc.Ready sh' := by
  refine ⟨state.trans h.running, ?_, ?_, ?_⟩
  · rw [available]
    exact h.drained
  · rw [same.head]
    exact h.clearing
  · rw [same.head, same.tail]
    exact h.cleared

/-- A point that is reached with the ring and the tokens as they were. -/
theorem StartPc.Ready.step {pc pc' : StartPc w} {sh sh' : Shared w} (h : pc.Ready sh)
    (same : FrameRing.Same sh.frames sh'.frames) (available : sh'.available = sh.available)
    (state : sh'.lifecycle.state = sh.lifecycle.state) (drained : pc'.drained = pc.drained)
    (clearing : ∀ head, pc' ≠ .clear (.storeTail head)) (cleared : pc'.cleared = pc.cleared) :
    pc'.Ready sh' := by
  have same' := h.of_same same available state
  refine ⟨same'.running, ?_, fun head absurd => (clearing head absurd).elim, ?_⟩
  · rw [drained]
    exact same'.drained
  · rw [cleared]
    exact same'.cleared

/-- A point before the tokens are drained. -/
theorem StartPc.Ready.undrained {pc : StartPc w} {sh : Shared w}
    (running : sh.lifecycle.state = .running) (drained : pc.drained = false)
    (clearing : ∀ head, pc ≠ .clear (.storeTail head)) (cleared : pc.cleared = false) :
    pc.Ready sh :=
  ⟨running, fun after => absurd (drained.symm.trans after) Bool.false_ne_true,
    fun head absurd => (clearing head absurd).elim,
    fun after => absurd (cleared.symm.trans after) Bool.false_ne_true⟩

/-- clear() goes on with what it has found. -/
theorem StartPc.Ready.clear {configuration : Configuration} {sh sh' : Shared w} {ok : Bool}
    {pc : ClearPc w} {pc' : StartPc w} (h : (StartPc.clear pc).Ready sh)
    (step : (StartPc.clear pc).step configuration sh ok = some (sh', .next pc')) :
    pc'.Ready sh' := by
  obtain ⟨rfl, same⟩ := Prod.mk.inj (Option.some.inj step)
  cases pc with
  | loadHead =>
    obtain rfl := Control.next.inj same
    refine ⟨h.running, fun _ => h.drained rfl, ?_, (absurd · Bool.false_ne_true)⟩
    rintro head ⟨⟩
    rfl
  | storeTail head =>
    obtain rfl := Control.next.inj same
    exact ⟨h.running, fun _ => h.drained rfl, by simp, fun _ => (h.clearing head rfl).symm⟩
  | snapshot pc =>
    have unchanged := pc.step_same .snapshotAndReset sh.frames ok
    dsimp only [ClearPc.step] at same
    generalize (pc.step .snapshotAndReset sh.frames ok).2 = control at same
    cases control <;> obtain rfl := Control.next.inj same <;>
      exact h.step unchanged rfl rfl rfl (by simp) rfl
  | resetWatermark =>
    obtain rfl := Control.next.inj same
    exact h.step ⟨rfl, rfl, rfl⟩ rfl rfl rfl (by simp) rfl

/-- The start() that gets the controller finds nothing done yet. -/
theorem StartPc.ready_of_reserves {configuration : Configuration} {sh sh' : Shared w} {ok : Bool}
    {pc' : StartPc w} (step : StartPc.beginStart.step configuration sh ok = some (sh', .next pc'))
    (prepares : pc'.preparing = true) :
    pc'.Ready sh' ∧
      (CallPc.start configuration (.beginStart : StartPc w)).reserves sh.lifecycle = true := by
  simp only [StartPc.step] at step
  split at step
  · cases (Prod.mk.inj (Option.some.inj step)).2
  · rename_i valid
    obtain ⟨rfl, same⟩ := Prod.mk.inj (Option.some.inj step)
    obtain rfl := Control.next.inj same
    by_cases stopped : sh.lifecycle.state = .stopped
    · have reserved : sh.lifecycle.beginStart = ({ sh.lifecycle with state := .running }, true) :=
        if_pos stopped
      rw [reserved] at prepares ⊢
      refine ⟨.undrained rfl rfl (by simp) rfl, ?_⟩
      simp [CallPc.reserves, stopped, by simpa using valid]
    · have refused : sh.lifecycle.beginStart = (sh.lifecycle, false) := if_neg stopped
      rw [refused] at prepares
      cases prepares

theorem StartPc.step_ready {configuration : Configuration} {sh sh' : Shared w} {ok : Bool}
    {pc pc' : StartPc w} (h : pc.preparing = true → pc.Ready sh)
    (step : pc.step configuration sh ok = some (sh', .next pc')) (prepares : pc'.preparing = true) :
    pc'.Ready sh' ∧
      (pc.preparing = true ∨ (CallPc.start configuration pc).reserves sh.lifecycle = true) := by
  cases pc with
  | beginStart =>
    obtain ⟨ready, reserves⟩ := ready_of_reserves step prepares
    exact ⟨ready, .inr reserves⟩
  | createAvailable =>
    obtain ⟨rfl, same⟩ := Prod.mk.inj (Option.some.inj step)
    obtain rfl := Control.next.inj same
    exact ⟨.undrained (h rfl).running rfl (by simp) rfl, .inl rfl⟩
  | createTaskStopped =>
    obtain ⟨rfl, same⟩ := Prod.mk.inj (Option.some.inj step)
    obtain rfl := Control.next.inj same
    rcases Shared.afterCreation_cases
      { sh with taskStopped := sh.taskStopped.or (if ok then some .empty else none) } with
      aborting | ⟨goesOn, -⟩
    · rw [aborting] at prepares
      cases prepares
    · rw [goesOn]
      exact ⟨.undrained (h rfl).running rfl (by simp) rfl, .inl rfl⟩
  | drainAvailable =>
    rcases takeNow_eq_some step with ⟨s, s', -, -, same⟩ | ⟨s, available, empty, same⟩
    · obtain ⟨rfl, going⟩ := Prod.mk.inj same
      obtain rfl := Control.next.inj going
      exact ⟨.undrained (h rfl).running rfl (by simp) rfl, .inl rfl⟩
    · obtain ⟨rfl, going⟩ := Prod.mk.inj same
      obtain rfl := Control.next.inj going
      refine ⟨⟨(h rfl).running, fun _ => ?_, by simp, (absurd · Bool.false_ne_true)⟩, .inl rfl⟩
      rw [available, Option.map_some, Semaphore.take?_eq_none.mp empty]
  | drainTaskStopped =>
    rcases takeNow_eq_some step with ⟨s, s', -, -, same⟩ | ⟨s, -, -, same⟩ <;>
      obtain ⟨rfl, going⟩ := Prod.mk.inj same <;>
      obtain rfl := Control.next.inj going <;>
      exact ⟨(h rfl).step (.refl _) rfl rfl rfl (by simp) rfl, .inl rfl⟩
  | driverInstall =>
    cases ok with
    | true =>
      obtain ⟨rfl, same⟩ := Prod.mk.inj (Option.some.inj step)
      obtain rfl := Control.next.inj same
      exact ⟨(h rfl).step (.refl _) rfl rfl rfl (by simp) rfl, .inl rfl⟩
    | false =>
      obtain rfl := Control.next.inj (Prod.mk.inj (Option.some.inj step)).2
      cases prepares
  | driverStart =>
    cases ok with
    | true =>
      obtain ⟨rfl, same⟩ := Prod.mk.inj (Option.some.inj step)
      obtain rfl := Control.next.inj same
      exact ⟨(h rfl).step (.refl _) rfl rfl rfl (by simp) rfl, .inl rfl⟩
    | false =>
      obtain rfl := Control.next.inj (Prod.mk.inj (Option.some.inj step)).2
      cases prepares
  | clear pc => exact ⟨(h rfl).clear step, .inl rfl⟩
  | recordReset =>
    obtain ⟨rfl, same⟩ := Prod.mk.inj (Option.some.inj step)
    obtain rfl := Control.next.inj same
    refine ⟨(h rfl).step ?_ rfl rfl rfl (by simp) rfl, .inl rfl⟩
    show FrameRing.Same sh.frames (if sh.hasStartedBefore then _ else _)
    split
    · exact sh.frames.count_same _ _
    · exact .refl _
  | createTask =>
    obtain rfl := Control.next.inj (Prod.mk.inj (Option.some.inj step)).2
    cases ok <;> cases prepares
  | abort pc result =>
    have same := (Prod.mk.inj (Option.some.inj step)).2
    generalize (pc.step sh.lifecycle).2 = control at same
    cases control with
    | next pc =>
      obtain rfl := Control.next.inj same
      cases prepares
    | ret value => cases same
  | beginStop pc =>
    have same := (Prod.mk.inj (Option.some.inj step)).2
    generalize (pc.step sh.lifecycle ok).2 = control at same
    cases control <;> obtain rfl := Control.next.inj same <;> cases prepares
  | reconcile pc result =>
    have same := (Prod.mk.inj (Option.some.inj step)).2
    generalize (pc.step sh.lifecycle).2 = control at same
    cases control with
    | next pc =>
      obtain rfl := Control.next.inj same
      cases prepares
    | ret value => cases same
  | driverStop =>
    cases ok <;> obtain rfl := Control.next.inj (Prod.mk.inj (Option.some.inj step)).2 <;>
      cases prepares
  | driverUninstall result =>
    cases ok <;> obtain rfl := Control.next.inj (Prod.mk.inj (Option.some.inj step)).2 <;>
      cases prepares
  | refused => cases (Prod.mk.inj (Option.some.inj step)).2
  | setStartedBefore => cases (Prod.mk.inj (Option.some.inj step)).2
  | unrequest =>
    obtain rfl := Control.next.inj (Prod.mk.inj (Option.some.inj step)).2
    cases prepares
  | disown =>
    obtain rfl := Control.next.inj (Prod.mk.inj (Option.some.inj step)).2
    cases prepares
  | markStopped =>
    obtain rfl := Control.next.inj (Prod.mk.inj (Option.some.inj step)).2
    cases prepares
  | markUninstalled result =>
    obtain rfl := Control.next.inj (Prod.mk.inj (Option.some.inj step)).2
    cases prepares
  | _ =>
    obtain ⟨rfl, same⟩ := Prod.mk.inj (Option.some.inj step)
    obtain rfl := Control.next.inj same
    exact ⟨(h rfl).step (.refl _) rfl rfl rfl (by simp) rfl, .inl rfl⟩

namespace System

variable {s t : System w} {k : Choice} {ks ls : List Choice}

/-- Frames that are in the ring without their token. -/
def owedGives (s : System w) : ℕ := (s.tasks.map TaskPc.owesGive).sum

/-- Tokens that receive() has taken without releasing the frame yet. -/
def heldTokens (s : System w) : ℕ := (s.consumer.map ReceivePc.holdsToken).getD 0

def stampedFrames (s : System w) : Choice → List RawCanFrame
  | .task i env => (s.tasks[i]?.map (·.stamps env s.shared)).getD []
  | _ => []

def acceptedFrames (s : System w) : Choice → List RawCanFrame
  | .task i _ => (s.tasks[i]?.map TaskPc.accepts).getD []
  | _ => []

/-- What the step of a receive() returns. -/
def received (s : System w) : Choice → Option (Result × Option RawCanFrame)
  | .consumer granted =>
    (s.consumer.bind fun pc => pc.step s.shared granted).bind fun (_, control) => control.value?
  | _ => none

def returnedFrames (s : System w) (k : Choice) : List RawCanFrame :=
  ((s.received k).map deliveredFrame).getD []

/-- One task at a time, and receive() only within a run: a start() reserves the controller
only when no earlier task is live and no receive() is in progress, and a receive() begins
only when no other call is at work. -/
def receiving (s : System w) (k : Choice) : Bool :=
  s.serialized k && match k with
    | .call i _ => match s.calls[i]? with
      | some pc => !pc.reserves s.shared.lifecycle || (s.liveTasks = 0 && s.consumer.isNone)
      | none => true
    | .beginReceive _ => s.calls.all CallPc.passive
    | _ => true

/-- No stop() begins. -/
def withinRun (s : System w) (k : Choice) : Bool :=
  s.receiving k && match k with
    | .beginStop => false
    | _ => true

/-- The run of a task that start() has created, with its frames so far. -/
structure Acquiring (s : System w) (stamped accepted returned : List RawCanFrame) : Prop where
  feed : ∃ task : Option (TaskPc w), s.tasks.filter TaskPc.live = task.toList ∧
    Feed s.shared task s.consumer stamped accepted returned
  calls : ∀ pc ∈ s.calls, pc.passive = true ∨ ∃ c, pc = .start c .setStartedBefore

/-- Calls of start() within a run are refused, and the one that has created the task ends. -/
theorem call_within {pc : CallPc w} {ok : Bool} {shared : Shared w}
    {control : Control (CallPc w) Result} (active : s.shared.lifecycle.state ≠ .stopped)
    (within : pc.passive = true ∨ ∃ c, pc = .start c .setStartedBefore)
    (step : pc.step s.shared ok = some (shared, control)) :
    shared.frames = s.shared.frames ∧ shared.available = s.shared.available ∧
      shared.lifecycle = s.shared.lifecycle ∧ pc.created ok = [] ∧
      ∀ pc' ∈ control.live, pc'.passive = true := by
  rcases within with passive | ⟨c, rfl⟩
  · cases pc with
    | stop pc => cases passive
    | start c pc =>
      obtain ⟨inner, inside, rfl⟩ := CallPc.step_start step
      cases pc with
      | beginStart =>
        simp only [StartPc.step] at inside
        split at inside
        · obtain ⟨rfl, rfl⟩ := Prod.mk.inj (Option.some.inj inside)
          exact ⟨rfl, rfl, rfl, rfl, by simp⟩
        · obtain ⟨rfl, rfl⟩ := Prod.mk.inj (Option.some.inj inside)
          have refused : s.shared.lifecycle.beginStart = (s.shared.lifecycle, false) := if_neg active
          rw [refused]
          exact ⟨rfl, rfl, rfl, rfl, by simp [CallPc.passive]⟩
      | refused =>
        obtain ⟨rfl, rfl⟩ := Prod.mk.inj (Option.some.inj inside)
        exact ⟨rfl, rfl, rfl, rfl, by simp⟩
      | _ => cases passive
  · obtain ⟨inner, inside, rfl⟩ := CallPc.step_start step
    obtain ⟨rfl, rfl⟩ := Prod.mk.inj (Option.some.inj inside)
    exact ⟨rfl, rfl, rfl, rfl, by simp⟩

theorem calls_within {i : ℕ} {pc : CallPc w} {control : Control (CallPc w) Result}
    (h : ∀ pc ∈ s.calls, pc.passive = true ∨ ∃ c, pc = .start c .setStartedBefore)
    (found : s.calls[i]? = some pc) (passive : ∀ pc' ∈ control.live, pc'.passive = true) :
    ∀ pc' ∈ resume s.calls i control, pc'.passive = true ∨ ∃ c, pc' = .start c .setStartedBefore := by
  intro pc' mem
  rcases mem_of_mem_resume found mem with old | own
  · exact h pc' old
  · exact .inl (passive pc' own)

namespace Acquiring

variable {stamped accepted returned : List RawCanFrame}

theorem owedGives_eq {tasks : List (TaskPc w)} {task : Option (TaskPc w)}
    (one : tasks.filter TaskPc.live = task.toList) :
    (tasks.map TaskPc.owesGive).sum = (task.map TaskPc.owesGive).getD 0 := by
  have dead : (tasks.map TaskPc.owesGive).sum =
      ((tasks.filter TaskPc.live).map TaskPc.owesGive).sum := by
    clear one
    induction tasks with
    | nil => rfl
    | cons pc tasks ih =>
      cases live : pc.live with
      | true => simp [live, ih]
      | false => simp [live, ih, TaskPc.owesGive_of_dead live]
  rw [dead, one]
  cases task <;> simp

theorem call (h : s.Acquiring stamped accepted returned) {i : ℕ} {ok : Bool}
    (step : s.next (.call i ok) = some t) : t.Acquiring stamped accepted returned := by
  obtain ⟨pc, shared, control, hpc, hstep, rfl⟩ := next_call step
  obtain ⟨task, one, feed⟩ := h.feed
  have active : s.shared.lifecycle.state ≠ .stopped := by
    rcases feed.active with state | state <;> simp [state]
  obtain ⟨frames, available, lifecycle, created, passive⟩ :=
    call_within active (h.calls pc (List.mem_of_getElem? hpc)) hstep
  refine ⟨⟨task, ?_, feed.of_same ?_ available (by rw [lifecycle])⟩, calls_within h.calls hpc passive⟩
  · rw [created, List.append_nil]
    exact one
  · rw [frames]
    exact .refl _

theorem task (small : queueCapacity < 2 ^ w) (divides : queueCapacity ∣ 2 ^ w)
    (h : s.Acquiring stamped accepted returned) {i : ℕ} {env : TaskEnv}
    (step : s.next (.task i env) = some t) :
    t.Acquiring (stamped ++ s.stampedFrames (.task i env)) (accepted ++ s.acceptedFrames (.task i env))
      returned := by
  obtain ⟨pc, shared, control, hpc, hstep, rfl⟩ := next_task step
  obtain ⟨task, one, feed⟩ := h.feed
  simp only [stampedFrames, acceptedFrames, hpc, Option.map_some, Option.getD_some]
  cases live : pc.live with
  | true =>
    -- the task that steps is the only live one
    obtain ⟨rfl, left⟩ := filter_resume_alone hpc one live control
    exact ⟨⟨_, left, feed.task_step small divides live hstep⟩, h.calls⟩
  | false =>
    obtain ⟨frames, available, lifecycle, stamps, accepts, dead⟩ := TaskPc.step_dead live hstep
    rw [stamps, accepts, List.append_nil, List.append_nil]
    have same := (filter_resume_other hpc live dead).trans one
    exact ⟨⟨task, same, feed.of_same (by rw [frames]; exact .refl _) available (by rw [lifecycle])⟩,
      h.calls⟩

/-- One step within the run. -/
theorem next (small : queueCapacity < 2 ^ w) (divides : queueCapacity ∣ 2 ^ w)
    (h : s.Acquiring stamped accepted returned) (within : s.withinRun k = true)
    (step : s.next k = some t) :
    t.Acquiring (stamped ++ s.stampedFrames k) (accepted ++ s.acceptedFrames k)
        (returned ++ s.returnedFrames k) ∧
      ∀ value, s.received k = some value → value.1 ≠ .driverFailure := by
  have quiet (same : t.Acquiring stamped accepted returned) :
      t.Acquiring (stamped ++ []) (accepted ++ []) (returned ++ []) ∧
        ∀ value : Result × Option RawCanFrame, none = some value → value.1 ≠ .driverFailure := by
    rw [List.append_nil, List.append_nil, List.append_nil]
    exact ⟨same, by simp⟩
  cases k with
  | call i ok => exact quiet (h.call step)
  | task i env =>
    have feed := h.task small divides step
    refine ⟨?_, by rintro - ⟨⟩⟩
    show t.Acquiring _ _ (returned ++ [])
    rw [List.append_nil]
    exact feed
  | beginStart c =>
    obtain rfl := Option.some.inj step
    refine quiet ⟨h.feed, ?_⟩
    intro pc hpc
    rcases List.mem_append.mp hpc with old | new
    · exact h.calls pc old
    · obtain rfl := List.mem_singleton.mp new
      exact .inl rfl
  | beginStop => simp [withinRun] at within
  | beginReceive timeoutMs =>
    obtain ⟨free, step⟩ := Option.ite_none_right_eq_some.mp step
    obtain rfl := Option.some.inj step
    obtain ⟨task, one, feed⟩ := h.feed
    rw [Option.isNone_iff_eq_none.mp free] at feed
    obtain ⟨active, latched, wakes, offered, position, queue, feed⟩ := feed
    exact quiet ⟨⟨task, one, active, latched, wakes, offered, position, queue,
      feed.agree, feed.frames, feed.tokens, feed.sought⟩, h.calls⟩
  | consumer granted =>
    obtain ⟨pc, shared, control, hpc, hstep, rfl⟩ := next_consumer step
    obtain ⟨task, one, feed⟩ := h.feed
    rw [hpc] at feed
    obtain ⟨feed, blameless⟩ := feed.consumer_step small hstep
    have value : s.received (.consumer granted) = control.value? := by
      simp only [received, hpc, Option.bind_some, hstep]
    refine ⟨⟨⟨task, one, ?_⟩, h.calls⟩, ?_⟩
    · show Feed _ _ _ (stamped ++ []) (accepted ++ []) _
      rw [List.append_nil, List.append_nil, returnedFrames, value]
      exact feed
    · rw [value]
      exact blameless
  | beginStatistics | observer | busOff =>
    obtain ⟨frames, driver, observers, same, rfl⟩ := next_beside rfl step
    obtain ⟨task, one, feed⟩ := h.feed
    exact quiet ⟨⟨task, one, feed.of_same same rfl rfl⟩, h.calls⟩

end Acquiring

/-! ### Up to the creation of the task -/

/-- While a start() prepares a run, it has the ring and the tokens to itself. -/
structure Preparing (s : System w) : Prop where
  outlined : s.Outlined
  alone : ∀ c pc, .start c pc ∈ s.calls → pc.preparing = true →
    s.consumer = none ∧ s.liveTasks = 0 ∧ pc.Ready s.shared

theorem Preparing.call (h : s.Preparing) {i : ℕ} {ok : Bool}
    (allowed : s.receiving (.call i ok) = true) (step : s.next (.call i ok) = some t) :
    t.Preparing := by
  have outlined := next_outlined h.outlined (by simp [serialized]) step
  obtain ⟨pc, -, -, hpc, -, -⟩ := next_call step
  have member := List.mem_of_getElem? hpc
  obtain ⟨single, -⟩ := h.outlined.outline member
  obtain ⟨shared, control, hstep, rfl⟩ := next_call_single single step
  refine ⟨outlined, ?_⟩
  intro c pc' hpc' prepares
  cases control with
  | ret result => cases hpc'
  | next after =>
    obtain rfl := List.mem_singleton.mp hpc'
    cases pc with
    | stop pc =>
      obtain ⟨inner, -, same⟩ := CallPc.step_stop hstep
      cases inner <;> cases same
    | start configuration pc =>
      obtain ⟨inner, inside, same⟩ := CallPc.step_start hstep
      cases inner with
      | ret result => cases same
      | next inner =>
        obtain ⟨rfl, rfl⟩ := CallPc.start.inj (Control.next.inj same)
        obtain ⟨ready, before⟩ := StartPc.step_ready
          (fun prepares => (h.alone c pc member prepares).2.2) inside prepares
        have alone : s.consumer = none ∧ s.liveTasks = 0 := by
          rcases before with preparing | reserving
          · exact ⟨(h.alone c pc member preparing).1, (h.alone c pc member preparing).2.1⟩
          · simp only [receiving, serialized, hpc, reserving, Bool.not_true, Bool.false_or,
              Bool.true_and, Bool.and_eq_true, decide_eq_true_eq, Option.isNone_iff_eq_none] at allowed
            exact ⟨allowed.2, allowed.1⟩
        have created : (CallPc.start c pc).created ok = [] := by
          rcases CallPc.created_cases (.start c pc) ok with nothing | ⟨c', creating, rfl, -⟩
          · exact nothing
          · obtain ⟨rfl, rfl⟩ := CallPc.start.inj creating
            obtain rfl := Control.next.inj (Prod.mk.inj (Option.some.inj inside)).2
            cases prepares
        refine ⟨alone.1, ?_, ready⟩
        show (s.tasks ++ _).countP TaskPc.live = 0
        rw [created, List.append_nil]
        exact alone.2

theorem Preparing.next (h : s.Preparing) (allowed : s.receiving k = true)
    (step : s.next k = some t) : t.Preparing := by
  have serial : s.serialized k = true := by
    simp only [receiving, Bool.and_eq_true] at allowed
    exact allowed.1
  have outlined := next_outlined h.outlined serial step
  cases k with
  | call i ok => exact h.call allowed step
  | beginStart configuration =>
    obtain rfl := Option.some.inj step
    have empty : s.calls = [] := List.isEmpty_iff.mp serial
    refine ⟨outlined, ?_⟩
    intro c pc hpc prepares
    obtain ⟨rfl, rfl⟩ : c = configuration ∧ pc = .beginStart := by simpa [empty] using hpc
    cases prepares
  | beginStop =>
    obtain rfl := Option.some.inj step
    have empty : s.calls = [] := List.isEmpty_iff.mp serial
    exact ⟨outlined, by simp [empty]⟩
  | task i env =>
    obtain ⟨pc, shared, control, hpc, hstep, rfl⟩ := next_task step
    refine ⟨outlined, ?_⟩
    intro c pc' hpc' prepares
    obtain ⟨idle, none, ready⟩ := h.alone c pc' hpc' prepares
    obtain ⟨dead, nobody⟩ := TaskPc.step_among_dead none hpc hstep
    obtain ⟨frames, available, lifecycle, -, -, -⟩ := TaskPc.step_dead dead hstep
    exact ⟨idle, nobody,
      ready.of_same (by rw [frames]; exact .refl _) available (by rw [lifecycle])⟩
  | beginReceive timeoutMs =>
    obtain ⟨-, step⟩ := Option.ite_none_right_eq_some.mp step
    obtain rfl := Option.some.inj step
    refine ⟨outlined, ?_⟩
    intro c pc hpc prepares
    simp only [receiving, Bool.and_eq_true, List.all_eq_true] at allowed
    exact absurd ((StartPc.not_passive c prepares).symm.trans (allowed.2 _ hpc)) (by simp)
  | consumer granted =>
    obtain ⟨pc, shared, control, hpc, hstep, rfl⟩ := next_consumer step
    refine ⟨outlined, ?_⟩
    intro c pc' hpc' prepares
    obtain ⟨idle, -, -⟩ := h.alone c pc' hpc' prepares
    cases idle.symm.trans hpc
  | beginStatistics | observer | busOff =>
    obtain ⟨frames, driver, observers, same, rfl⟩ := next_beside rfl step
    refine ⟨outlined, ?_⟩
    intro c pc' hpc' prepares
    obtain ⟨idle, none, ready⟩ := h.alone c pc' hpc' prepares
    exact ⟨idle, none, ready.of_same same rfl rfl⟩

theorem exec_preparing (run : exec (guarded receiving next) ({} : System w) ks = some s) :
    s.Preparing := by
  refine exec_invariant (P := Preparing) ?_ run ?_
  · intro s k t h step
    obtain ⟨allowed, step⟩ := guarded_eq_some.mp step
    exact h.next allowed step
  · exact ⟨⟨by simp, by simp, fun _ => ⟨rfl, rfl, rfl⟩⟩, by simp⟩

/-- The task that start() creates finds no token and no frame. -/
theorem Preparing.acquiring (h : s.Preparing) {c : Configuration}
    (creating : s.calls = [.start c .createTask]) (step : s.next (.call 0 true) = some t) :
    t.Acquiring [] [] [] := by
  obtain ⟨idle, none, ready⟩ := h.alone c .createTask (by simp [creating]) rfl
  obtain ⟨shared, control, hstep, rfl⟩ := next_call_single creating step
  obtain ⟨inner, inside, rfl⟩ := CallPc.step_start hstep
  obtain ⟨rfl, rfl⟩ := Prod.mk.inj (Option.some.inj inside)
  have dead : s.tasks.filter TaskPc.live = [] := by
    rw [← List.length_eq_zero_iff, ← List.countP_eq_length_filter]
    exact none
  obtain ⟨available, has, empty⟩ := Option.map_eq_some_iff.mp (ready.drained rfl)
  have feed : Feed s.shared (some (.loopTest : TaskPc w)) s.consumer [] [] [] := by
    rw [idle]
    refine ⟨.inl ready.running, ?_, by simp, .refl _, _, [], .of_empty (ready.cleared rfl), rfl,
      ?_, by simp⟩
    · intro faulted
      cases ready.running.symm.trans faulted
    · intro _
      refine ⟨available, has, ?_⟩
      rw [empty]
      rfl
  refine ⟨⟨some .loopTest, ?_, feed⟩, ?_⟩
  · show (s.tasks ++ [TaskPc.loopTest]).filter TaskPc.live = _
    rw [List.filter_append, dead]
    rfl
  · intro pc hpc
    obtain rfl := List.mem_singleton.mp hpc
    exact .inr ⟨c, rfl⟩

/-- From the creation of its task by start() until a stop() begins, with one task at a time
and receive() only within runs: while the component is running, the tokens are the queued
frames without those whose token is owed or held, and a give never meets the limit; the
frames returned are a prefix of those accepted, and these come in order from the run's
valid messages; no receive() reports a driver failure. -/
theorem receive_agreement (wide : 6 < w) {c : Configuration} {first : System w}
    (before : exec (guarded receiving next) ({} : System w) ks = some s)
    (creating : s.calls = [.start c .createTask])
    (creates : guarded receiving next s (.call 0 true) = some first)
    (run : exec (guarded withinRun next) first ls = some t) :
    (t.shared.lifecycle.state = .running → ∃ available, t.shared.available = some available ∧
      available.tokens + t.owedGives + t.heldTokens =
        distance t.shared.frames.head t.shared.frames.tail) ∧
      (.giveAvailable ∈ t.tasks → ∃ available, t.shared.available = some available ∧
        available.tokens < queueCapacity) ∧
      trace (guarded withinRun next) returnedFrames first ls <+:
        trace (guarded withinRun next) acceptedFrames first ls ∧
      (trace (guarded withinRun next) acceptedFrames first ls).Sublist
        (trace (guarded withinRun next) stampedFrames first ls) ∧
      ∀ k u value, guarded withinRun next t k = some u → t.received k = some value →
        value.1 ≠ .driverFailure := by
  have divides : queueCapacity ∣ 2 ^ w := (Nat.pow_dvd_pow_iff_le_right Nat.one_lt_two).mpr wide.le
  have small : queueCapacity < 2 ^ w := Nat.pow_lt_pow_right Nat.one_lt_two wide
  have start := (exec_preparing before).acquiring creating (guarded_eq_some.mp creates).2
  have acquiring : t.Acquiring (trace (guarded withinRun next) stampedFrames first ls)
      (trace (guarded withinRun next) acceptedFrames first ls)
      (trace (guarded withinRun next) returnedFrames first ls) := by
    refine exec_history (P := fun ls t => t.Acquiring
      (trace (guarded withinRun next) stampedFrames first ls)
      (trace (guarded withinRun next) acceptedFrames first ls)
      (trace (guarded withinRun next) returnedFrames first ls)) start ?_ run
    intro ls t k u run h step
    rw [trace_concat run k, trace_concat run k, trace_concat run k]
    obtain ⟨within, step⟩ := guarded_eq_some.mp step
    exact (h.next small divides within step).1
  obtain ⟨⟨task, one, feed⟩, calls⟩ := acquiring
  refine ⟨?_, ?_, feed.returned_prefix, ?_, ?_⟩
  · intro running
    obtain ⟨available, has, balance⟩ := feed.account small running
    refine ⟨available, has, ?_⟩
    rw [owedGives, Acquiring.owedGives_eq one]
    exact balance
  · intro giving
    have mine : task = some .giveAvailable := by
      have member : .giveAvailable ∈ t.tasks.filter TaskPc.live := List.mem_filter.mpr ⟨giving, rfl⟩
      rw [one] at member
      exact Option.mem_toList.mp member
    have running := feed.running mine (by simp) (by simp)
    obtain ⟨position, queue, feed⟩ := feed.queue
    obtain ⟨available, has, balance⟩ := feed.tokens running
    have fits := feed.agree.holds.fits
    refine ⟨available, has, ?_⟩
    rw [mine] at balance
    have owed : available.tokens + 1 + (t.consumer.map ReceivePc.holdsToken).getD 0 = queue.length :=
      balance
    omega
  · exact (List.sublist_append_left _ _).trans feed.offered
  · intro k u value step received
    obtain ⟨within, step⟩ := guarded_eq_some.mp step
    exact (Acquiring.next small divides ⟨⟨task, one, feed⟩, calls⟩ within step).2 value received

/-- A start() up to the creation of its task. -/
def creatingRun : List Choice := .beginStart {} :: List.replicate 34 (.call 0 true)

def created : System 32 :=
  final (guarded receiving next) (final (guarded receiving next) {} creatingRun) [.call 0 true]

/-- The start() returns, the task queues one message, and a receive() returns it. -/
def oneFrameRun : List Choice :=
  [.call 0 true, .task 0 {}, .task 0 { received := .message { dataLengthCode := 2 } }] ++
    List.replicate 10 (.task 0 {}) ++ .beginReceive 0 :: List.replicate 8 (.consumer true)

theorem receive_agreement_one_frame :
    (trace (guarded withinRun next) returnedFrames created oneFrameRun).length = 1 ∧
      trace (guarded withinRun next) returnedFrames created oneFrameRun <+:
        trace (guarded withinRun next) acceptedFrames created oneFrameRun := by
  have before := exec_eq_final (guarded receiving next) ({} : System 32) creatingRun (by decide)
  have creating : ∃ c, (final (guarded receiving next) ({} : System 32) creatingRun).calls =
      [.start c .createTask] := ⟨_, rfl⟩
  obtain ⟨c, creating⟩ := creating
  have creates : guarded receiving next (final (guarded receiving next) ({} : System 32) creatingRun)
      (.call 0 true) = some created :=
    next_eq_final (guarded receiving next) _ (.call 0 true) (by decide)
  have run := exec_eq_final (guarded withinRun next) created oneFrameRun (by decide)
  exact ⟨by decide, (receive_agreement (by decide) before creating creates run).2.2.1⟩

end System

end CanTelemetry.CanBus
