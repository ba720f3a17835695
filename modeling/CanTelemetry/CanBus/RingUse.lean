import CanTelemetry.CanBus.Receive
import CanTelemetry.CanBus.Statistics
import CanTelemetry.Foundation.Projection

/-! How the component uses its ring. A run of the component, seen from the ring, is a run of
the ring: pushes and pops of one thread each, snapshots, records, and a `clear` that has
the ring to itself. So the books of the ring are books of the component, from one start()
to the next. -/

namespace CanTelemetry.CanBus

open Execution RingIndex Threads VehicleCore

variable {w : ℕ}

/-! ### What a thread does to the ring -/

abbrev RingChoice := Clearing.Choice RawCanFrame

def CallPc.clearing : CallPc w → Option (ClearPc w)
  | .start _ (.clear pc) => some pc
  | _ => none

def CallPc.preparing : CallPc w → Bool
  | .start _ pc => pc.preparing
  | .stop _ => false

def CallPc.ringMoves (sh : Shared w) (ok : Bool) : CallPc w → List RingChoice
  | .start _ .markStarted => [.clear]
  | .start _ (.clear _) => [.clearing 0 ok]
  | .start _ .recordReset =>
    if sh.hasStartedBefore then [.ring (.record .controllerReset 1)] else []
  | _ => []

def TaskPc.ringMoves (env : TaskEnv) (sh : Shared w) : TaskPc w → List RingChoice
  | .stamp message =>
    if (message.frame env.time sh.busId).isValid then
      [.ring (.push (message.frame env.time sh.busId))]
    else []
  | .push _ => [.ring (.producer env.cas)]
  | .recordInvalid => [.ring (.record .driverRxMissed 1)]
  | .recordBusErrors status =>
    [.ring (.record .busError (counterDelta status.busErrorCount sh.lastDriverBusErrors))]
  | .recordMissed status =>
    [.ring (.record .driverRxMissed (counterDelta status.rxMissedCount sh.lastDriverRxMissed +
      counterDelta status.rxOverrunCount sh.lastDriverRxOverrun))]
  | .recordBusOff => [.ring (.record .busOff 1)]
  | _ => []

def ReceivePc.ringMoves (sh : Shared w) : ReceivePc w → List RingChoice
  | .checkAfterTake => if sh.lifecycle.state = .running then [.ring .pop] else []
  | .pop _ => [.ring .consumer]
  | _ => []

theorem CallPc.clearing_preparing {pc : CallPc w} {clear : ClearPc w}
    (clears : pc.clearing = some clear) : ∃ c, pc = .start c (.clear clear) := by
  cases pc with
  | start c pc =>
    cases pc with
    | clear pc =>
      obtain rfl := Option.some.inj clears
      exact ⟨c, rfl⟩
    | _ => cases clears
  | stop pc => cases clears

theorem CallPc.mem_ringMoves {pc : CallPc w} {sh : Shared w} {ok : Bool} {m : RingChoice}
    (mem : m ∈ pc.ringMoves sh ok) :
    m = .clear ∨ m = .clearing 0 ok ∨ m = .ring (.record .controllerReset 1) := by
  cases pc with
  | stop pc => cases mem
  | start c pc =>
    cases pc with
    | markStarted => exact .inl (List.mem_singleton.mp mem)
    | clear pc => exact .inr (.inl (List.mem_singleton.mp mem))
    | recordReset =>
      simp only [ringMoves] at mem
      split at mem
      · exact .inr (.inr (List.mem_singleton.mp mem))
      · cases mem
    | _ => cases mem

theorem TaskPc.mem_ringMoves {pc : TaskPc w} {env : TaskEnv} {sh : Shared w} {m : RingChoice}
    (mem : m ∈ pc.ringMoves env sh) :
    (∃ frame, m = .ring (.push frame)) ∨ m = .ring (.producer env.cas) ∨
      ∃ what n, m = .ring (.record what n) := by
  cases pc with
  | stamp message =>
    simp only [ringMoves] at mem
    split at mem
    · exact .inl ⟨_, List.mem_singleton.mp mem⟩
    · cases mem
  | push pc => exact .inr (.inl (List.mem_singleton.mp mem))
  | recordInvalid | recordBusErrors | recordMissed | recordBusOff =>
    exact .inr (.inr ⟨_, _, List.mem_singleton.mp mem⟩)
  | _ => cases mem

theorem ReceivePc.mem_ringMoves {pc : ReceivePc w} {sh : Shared w} {m : RingChoice}
    (mem : m ∈ pc.ringMoves sh) : m = .ring .pop ∨ m = .ring .consumer := by
  cases pc with
  | checkAfterTake =>
    simp only [ringMoves] at mem
    split at mem
    · exact .inl (List.mem_singleton.mp mem)
    · cases mem
  | pop pc => exact .inr (List.mem_singleton.mp mem)
  | _ => cases mem

/-! ### One step of a thread -/

section Steps

variable {sh sh' : Shared w}

theorem Clearing.exec_one {k : RingChoice} {usage usage' : Clearing w queueCapacity RawCanFrame}
    (admitted : usage.admits k = true) (moved : usage.move k = some usage') :
    exec Clearing.next usage [k] = some usage' :=
  exec_single (guarded_eq_some.mpr ⟨admitted, moved⟩)

/-- Steps of a start() at which neither the ring nor a clear() is touched. -/
theorem StartPc.step_quiet {configuration : Configuration} {ok : Bool} {pc : StartPc w}
    {control : Control (StartPc w) Result}
    (elsewhere : pc ≠ .markStarted ∧ (∀ clear, pc ≠ .clear clear) ∧ pc ≠ .recordReset)
    (step : pc.step configuration sh ok = some (sh', control)) :
    sh'.frames = sh.frames ∧
      (control.call (.start configuration) .ret : Control (CallPc w) Result).live.filterMap
        CallPc.clearing = [] := by
  obtain ⟨marked, clears, resets⟩ := elsewhere
  cases pc with
  | beginStart =>
    simp only [StartPc.step] at step
    split at step
    · obtain ⟨rfl, rfl⟩ := Prod.mk.inj (Option.some.inj step)
      exact ⟨rfl, rfl⟩
    · obtain ⟨rfl, rfl⟩ := Prod.mk.inj (Option.some.inj step)
      cases sh.lifecycle.beginStart.2 <;> exact ⟨rfl, rfl⟩
  | createTaskStopped =>
    obtain ⟨rfl, rfl⟩ := Prod.mk.inj (Option.some.inj step)
    refine ⟨rfl, ?_⟩
    rcases Shared.afterCreation_cases
      { sh with taskStopped := sh.taskStopped.or (if ok then some .empty else none) } with
      same | ⟨same, -⟩ <;> rw [same] <;> rfl
  | abort pc result =>
    obtain ⟨rfl, rfl⟩ := Prod.mk.inj (Option.some.inj step)
    cases (pc.step sh.lifecycle).2 <;> exact ⟨rfl, rfl⟩
  | beginStop pc =>
    obtain ⟨rfl, rfl⟩ := Prod.mk.inj (Option.some.inj step)
    cases (pc.step sh.lifecycle ok).2 <;> exact ⟨rfl, rfl⟩
  | reconcile pc result =>
    obtain ⟨rfl, rfl⟩ := Prod.mk.inj (Option.some.inj step)
    cases (pc.step sh.lifecycle).2 <;> exact ⟨rfl, rfl⟩
  | drainAvailable | drainTaskStopped =>
    rcases takeNow_eq_some step with ⟨s, s', -, -, same⟩ | ⟨s, -, -, same⟩ <;>
      obtain ⟨rfl, rfl⟩ := Prod.mk.inj same <;>
      exact ⟨rfl, rfl⟩
  | driverInstall | driverStart | driverStop | driverUninstall =>
    cases ok <;> obtain ⟨rfl, rfl⟩ := Prod.mk.inj (Option.some.inj step) <;> exact ⟨rfl, rfl⟩
  | createTask =>
    obtain ⟨rfl, rfl⟩ := Prod.mk.inj (Option.some.inj step)
    cases ok <;> exact ⟨rfl, rfl⟩
  | markStarted => exact absurd rfl marked
  | clear clear => exact absurd rfl (clears clear)
  | recordReset => exact absurd rfl resets
  | _ =>
    obtain ⟨rfl, rfl⟩ := Prod.mk.inj (Option.some.inj step)
    exact ⟨rfl, rfl⟩

theorem StopPc.step_frames {ok : Bool} {pc : StopPc} {control : Control StopPc Result}
    (step : pc.step sh ok = some (sh', control)) : sh'.frames = sh.frames := by
  cases pc with
  | awaitTask driverStopped =>
    rcases takeWithin_eq_some step with ⟨s, s', -, -, -, same⟩ | ⟨-, same⟩ <;>
      obtain ⟨rfl, -⟩ := Prod.mk.inj same <;> rfl
  | dropToken driverStopped =>
    rcases takeNow_eq_some step with ⟨s, s', -, -, same⟩ | ⟨s, -, -, same⟩ <;>
      obtain ⟨rfl, -⟩ := Prod.mk.inj same <;> rfl
  | drainAvailable =>
    simp only [StopPc.step] at step
    split at step
    · obtain ⟨rfl, -⟩ := Prod.mk.inj (Option.some.inj step)
      rfl
    · rcases takeNow_eq_some step with ⟨s, s', -, -, same⟩ | ⟨s, -, -, same⟩ <;>
        obtain ⟨rfl, -⟩ := Prod.mk.inj same <;> rfl
  | driverStop | driverUninstall =>
    cases ok <;> obtain ⟨rfl, -⟩ := Prod.mk.inj (Option.some.inj step) <;> rfl
  | _ =>
    obtain ⟨rfl, -⟩ := Prod.mk.inj (Option.some.inj step)
    rfl

/-- A start() stands in its clear() as long as that goes on. -/
theorem StartPc.clearing_after (c : Configuration) (control : Control (ClearPc w) Unit) :
    (((control.call StartPc.clear fun _ => .next .setBusId : Control (StartPc w) Result).call
      (.start c) .ret : Control (CallPc w) Result).live.filterMap CallPc.clearing) =
      control.live := by
  cases control <;> rfl

theorem TaskPc.pushing_after (control : Control (PushPc w RawCanFrame) Bool) :
    (control.call TaskPc.push fun accepted =>
      .next (if accepted then .giveAvailable else .readStatus) :
        Control (TaskPc w) Unit).pc?.bind pushing = control.pc? := by
  cases control with
  | next pc => rfl
  | ret accepted => cases accepted <;> rfl

theorem ReceivePc.popping_after (control : Control (PopPc w RawCanFrame) (Option RawCanFrame)) :
    (control.call ReceivePc.pop fun frame =>
      .ret (if frame.isSome then .ok else .driverFailure, frame) :
        Control (ReceivePc w) (Result × Option RawCanFrame)).pc?.bind popping = control.pc? := by
  cases control <;> rfl

theorem CallPc.step_moves (usage : Clearing w queueCapacity RawCanFrame) {pc : CallPc w} {ok : Bool}
    {control : Control (CallPc w) Result}
    (ring : usage.ring = sh.frames) (clears : usage.clears = [pc].filterMap clearing)
    (alone : pc.preparing = true → usage.producer = none ∧ usage.consumer = none)
    (step : pc.step sh ok = some (sh', control)) :
    exec Clearing.next usage (pc.ringMoves sh ok) =
      some { usage with ring := sh'.frames, clears := control.live.filterMap clearing } := by
  obtain ⟨⟨frames, producer, consumer, observers⟩, clearings⟩ := usage
  obtain rfl : frames = sh.frames := ring
  obtain rfl : clearings = _ := clears
  cases pc with
  | stop pc =>
    obtain ⟨inner, inside, rfl⟩ := CallPc.step_stop step
    rw [StopPc.step_frames inside]
    cases inner <;> rfl
  | start c pc =>
    obtain ⟨inner, inside, rfl⟩ := CallPc.step_start step
    by_cases elsewhere : pc ≠ .markStarted ∧ (∀ clear, pc ≠ .clear clear) ∧ pc ≠ .recordReset
    · obtain ⟨frames, cleared⟩ := StartPc.step_quiet elsewhere inside
      obtain ⟨marked, clears, resets⟩ := elsewhere
      have still : (CallPc.start c pc).ringMoves sh ok = [] ∧
          [CallPc.start c pc].filterMap clearing = [] := by
        cases pc with
        | markStarted => exact absurd rfl marked
        | clear clear => exact absurd rfl (clears clear)
        | recordReset => exact absurd rfl resets
        | _ => exact ⟨rfl, rfl⟩
      rw [frames, cleared, still.1, still.2]
      rfl
    · cases pc with
      | markStarted =>
        obtain ⟨rfl, rfl⟩ := Prod.mk.inj (Option.some.inj inside)
        obtain ⟨noPush, noPop⟩ := alone rfl
        refine Clearing.exec_one ?_ rfl
        show (producer.isNone && consumer.isNone) = true
        obtain rfl : producer = none := noPush
        obtain rfl : consumer = none := noPop
        rfl
      | clear clear =>
        obtain ⟨rfl, rfl⟩ := Prod.mk.inj (Option.some.inj inside)
        refine Clearing.exec_one rfl ?_
        have self : [clear][0]? = some clear := rfl
        rw [StartPc.clearing_after, ← (resume_singleton (ρ := Unit) self).2]
        rfl
      | recordReset =>
        obtain ⟨rfl, rfl⟩ := Prod.mk.inj (Option.some.inj inside)
        cases started : sh.hasStartedBefore with
        | false =>
          simp only [ringMoves, started]
          rfl
        | true =>
          simp only [ringMoves, started]
          exact Clearing.exec_one rfl rfl
      | _ => exact absurd (by simp) elsewhere

theorem TaskPc.step_moves (usage : Clearing w queueCapacity RawCanFrame) {pc : TaskPc w}
    {env : TaskEnv} {control : Control (TaskPc w) Unit}
    (ring : usage.ring = sh.frames) (producer : usage.producer = pc.pushing)
    (idle : usage.clears = []) (step : pc.step env sh = some (sh', control)) :
    exec Clearing.next usage (pc.ringMoves env sh) =
      some { usage with ring := sh'.frames, producer := control.pc?.bind pushing } := by
  obtain ⟨⟨frames, pushes, consumer, observers⟩, clearings⟩ := usage
  obtain rfl : frames = sh.frames := ring
  obtain rfl : pushes = _ := producer
  obtain rfl : clearings = [] := idle
  cases pc with
  | loopTest =>
    obtain ⟨rfl, rfl⟩ := Prod.mk.inj (Option.some.inj step)
    cases sh.receiveRequested <;> rfl
  | receive =>
    obtain ⟨rfl, rfl⟩ := Prod.mk.inj (Option.some.inj step)
    cases env.received <;> rfl
  | stamp message =>
    obtain ⟨rfl, rfl⟩ := Prod.mk.inj (Option.some.inj step)
    simp only [ringMoves]
    cases (message.frame env.time sh.busId).isValid with
    | false => rfl
    | true => exact Clearing.exec_one rfl rfl
  | push pc =>
    obtain ⟨rfl, rfl⟩ := Prod.mk.inj (Option.some.inj step)
    refine Clearing.exec_one rfl ?_
    rw [pushing_after]
    rfl
  | giveAvailable | giveStopped =>
    obtain ⟨s, -, same⟩ := Option.map_eq_some_iff.mp step
    obtain ⟨rfl, rfl⟩ := Prod.mk.inj same
    rfl
  | readStatus =>
    obtain ⟨rfl, rfl⟩ := Prod.mk.inj (Option.some.inj step)
    cases env.status <;> rfl
  | readAlerts =>
    obtain ⟨rfl, rfl⟩ := Prod.mk.inj (Option.some.inj step)
    cases env.alerts with
    | alerts busOff => cases busOff <;> rfl
    | _ => rfl
  | latch pc =>
    obtain ⟨⟨sh'', inner⟩, inside, same⟩ := Option.map_eq_some_iff.mp step
    obtain ⟨rfl, rfl⟩ := Prod.mk.inj same
    have frames : sh''.frames = sh.frames := by
      cases pc with
      | wake =>
        obtain ⟨s, -, same⟩ := Option.map_eq_some_iff.mp inside
        obtain ⟨rfl, -⟩ := Prod.mk.inj same
        rfl
      | _ =>
        obtain ⟨rfl, -⟩ := Prod.mk.inj (Option.some.inj inside)
        rfl
    rw [frames]
    cases inner <;> rfl
  | recordInvalid | recordBusErrors | recordMissed | recordBusOff =>
    obtain ⟨rfl, rfl⟩ := Prod.mk.inj (Option.some.inj step)
    exact Clearing.exec_one rfl rfl
  | _ =>
    obtain ⟨rfl, rfl⟩ := Prod.mk.inj (Option.some.inj step)
    rfl

theorem ReceivePc.step_moves (usage : Clearing w queueCapacity RawCanFrame) {pc : ReceivePc w}
    {granted : Bool}
    {control : Control (ReceivePc w) (Result × Option RawCanFrame)}
    (ring : usage.ring = sh.frames) (consumer : usage.consumer = pc.popping)
    (idle : usage.clears = []) (step : pc.step sh granted = some (sh', control)) :
    exec Clearing.next usage (pc.ringMoves sh) =
      some { usage with ring := sh'.frames, consumer := control.pc?.bind popping } := by
  obtain ⟨⟨frames, producer, pops, observers⟩, clearings⟩ := usage
  obtain rfl : frames = sh.frames := ring
  obtain rfl : pops = _ := consumer
  obtain rfl : clearings = [] := idle
  cases pc with
  | checkState timeoutMs =>
    obtain ⟨rfl, rfl⟩ := Prod.mk.inj (Option.some.inj step)
    cases sh.lifecycle.state <;> rfl
  | take timeoutMs =>
    simp only [ReceivePc.step] at step
    split at step
    · rcases takeNow_eq_some step with ⟨s, s', -, -, same⟩ | ⟨s, -, -, same⟩ <;>
        obtain ⟨rfl, rfl⟩ := Prod.mk.inj same <;> rfl
    · rcases takeWithin_eq_some step with ⟨s, s', -, -, -, same⟩ | ⟨-, same⟩ <;>
        obtain ⟨rfl, rfl⟩ := Prod.mk.inj same <;> rfl
  | checkAfterTimeout =>
    obtain ⟨rfl, rfl⟩ := Prod.mk.inj (Option.some.inj step)
    cases sh.lifecycle.state <;> rfl
  | checkAfterTake =>
    obtain ⟨rfl, rfl⟩ := Prod.mk.inj (Option.some.inj step)
    simp only [ringMoves]
    cases sh.lifecycle.state with
    | running => exact Clearing.exec_one rfl rfl
    | _ => rfl
  | pop pc =>
    obtain ⟨rfl, rfl⟩ := Prod.mk.inj (Option.some.inj step)
    refine Clearing.exec_one rfl ?_
    rw [popping_after]
    rfl

end Steps

/-! ### The pushes that a run begins -/

/-- The push has begun and has not been counted yet. -/
def PushPc.uncounted {F : Type*} : PushPc w F → ℕ
  | .countReceived _ => 1
  | _ => 0

theorem PushPc.step_uncounted {capacity : ℕ} {F : Type*} [NeZero capacity]
    (ring : FrameRing w capacity F) (cas : Bool) (pc : PushPc w F) :
    pc.uncounted =
      Counter.framesReceived.once pc.counted + inProgress uncounted (pc.step ring cas).2.pc? := by
  cases pc with
  | loadTail frame head =>
    by_cases full : distance head ring.tail ≥ capacity
    · simp only [step, if_pos full]
      rfl
    · simp only [step, if_neg full]
      rfl
  | updateWatermark pc =>
    simp only [step]
    cases (pc.step ring cas).2 <;> rfl
  | _ => rfl

namespace Clearing

variable {capacity : ℕ} {F : Type*}

def begun (_ : Clearing w capacity F) : Choice F → ℕ
  | .ring (.push _) => 1
  | _ => 0

variable [NeZero capacity] {s t : Clearing w capacity F} {k : Choice F} {ks : List (Choice F)}

theorem next_begun (step : next s k = some t) :
    inProgress PushPc.uncounted s.producer + begun s k =
      counted .framesReceived s k + inProgress PushPc.uncounted t.producer := by
  obtain ⟨-, step⟩ := guarded_eq_some.mp step
  cases k with
  | ring k =>
    obtain ⟨spsc, moved, rfl⟩ := Option.map_eq_some_iff.mp step
    cases k with
    | push frame =>
      obtain ⟨free, moved⟩ := Option.ite_none_right_eq_some.mp moved
      obtain rfl := Option.some.inj moved
      have free : s.producer = none := Option.isNone_iff_eq_none.mp free
      rw [free]
      rfl
    | producer cas =>
      obtain ⟨pc, hpc, rfl⟩ := Option.map_eq_some_iff.mp moved
      have counts := pc.step_uncounted s.ring cas
      simpa [begun, counted, hpc] using counts
    | pop =>
      obtain ⟨-, moved⟩ := Option.ite_none_right_eq_some.mp moved
      obtain rfl := Option.some.inj moved
      exact Nat.add_comm _ _
    | consumer =>
      obtain ⟨pc, hpc, rfl⟩ := Option.map_eq_some_iff.mp moved
      cases pc <;> simp [begun, counted, hpc, PopPc.counted, Counter.once]
    | snapshot operation =>
      obtain rfl := Option.some.inj moved
      exact Nat.add_comm _ _
    | observer i cas =>
      obtain ⟨⟨operation, pc⟩, -, rfl⟩ := Option.map_eq_some_iff.mp moved
      exact Nat.add_comm _ _
    | record what n =>
      obtain rfl := Option.some.inj moved
      cases what <;> simp [begun, counted, Recorded.counter]
  | clear =>
    obtain rfl := Option.some.inj step
    exact Nat.add_comm _ _
  | clearing i cas =>
    obtain ⟨pc, -, rfl⟩ := Option.map_eq_some_iff.mp step
    exact Nat.add_comm _ _

/-- From an idle ring to a state with no push in progress, every push that began has been
counted, and what is counted as queued has been published. -/
theorem pushes_counted (small : capacity < 2 ^ w) {ring : FrameRing w capacity F}
    (empty : ring.head = ring.tail) (run : exec next (idle ring) ks = some t)
    (rests : t.producer = none) :
    total next begun (idle ring) ks = events (idle ring) ks .framesReceived ∧
      total next adds (idle ring) ks = events (idle ring) ks .framesQueued := by
  have start : (idle ring).Kept := idle_kept empty
  have begins := total_balance (P := fun _ => True)
    (fun s k t _ step => ⟨trivial, next_begun step⟩) trivial run
  have published := total_balance
    (fun s k t h step => ⟨next_kept small h step, (next_books small h step).published⟩) start run
  rw [rests] at begins published
  constructor
  · simpa [idle] using begins
  · simpa [idle] using published

end Clearing

/-! ### The component -/

namespace System

variable {s t : System w} {k : Choice} {ks : List Choice}

/-- The ring with the threads that work on it. -/
def ringUse (s : System w) : Clearing w queueCapacity RawCanFrame where
  ring := s.shared.frames
  producer := (s.tasks.filter TaskPc.live).head?.bind TaskPc.pushing
  consumer := s.consumer.bind ReceivePc.popping
  observers := s.observers
  clears := s.calls.filterMap CallPc.clearing

def ringMoves (s : System w) : Choice → List RingChoice
  | .call i ok => (s.calls[i]?.map (·.ringMoves s.shared ok)).getD []
  | .task i env => (s.tasks[i]?.map (·.ringMoves env s.shared)).getD []
  | .consumer _ => (s.consumer.map (·.ringMoves s.shared)).getD []
  | .beginStatistics operation => [.ring (.snapshot operation)]
  | .observer i cas => [.ring (.observer i cas)]
  | _ => []

/-- Calls of start() and stop() are serialized, no stop() takes an earlier task's token, and
receive() does not overlap the start() of a run; it may overlap a stop(). -/
def apart (s : System w) (k : Choice) : Bool :=
  s.serialized k && s.ownToken k && match k with
    | .call i _ => !(s.calls[i]?.any (·.reserves s.shared.lifecycle)) || s.consumer.isNone
    | .beginReceive _ => !s.calls.any CallPc.preparing
    | _ => true

/-- One task at a time, and a start() that prepares a run is alone. -/
structure Apart (s : System w) : Prop where
  exclusive : s.Exclusive
  preparing : s.Preparing

/-- A controller that can be reserved has no live task. -/
theorem Apart.unowned (h : s.Apart) {pc : CallPc w}
    (reserves : pc.reserves s.shared.lifecycle = true) : s.liveTasks = 0 := by
  refine h.exclusive.none ?_
  have stopped : s.shared.lifecycle.state = .stopped := by
    cases pc with
    | start c pc =>
      cases pc with
      | beginStart =>
        simp only [CallPc.reserves, Bool.and_eq_true, decide_eq_true_eq] at reserves
        exact reserves.2
      | _ => cases reserves
    | stop pc => cases reserves
  exact (h.exclusive.outlined.sound.stopped stopped).2.2

theorem Apart.next (h : s.Apart) (allowed : s.apart k = true) (step : s.next k = some t) :
    t.Apart := by
  simp only [apart, Bool.and_eq_true] at allowed
  obtain ⟨⟨serial, own⟩, allowed⟩ := allowed
  refine ⟨h.exclusive.next serial own step, ?_⟩
  cases k with
  | call i ok =>
    obtain ⟨pc, -, -, hpc, -, -⟩ := next_call step
    refine h.preparing.next ?_ step
    simp only [hpc, Option.any_some, Bool.or_eq_true, Bool.not_eq_true'] at allowed
    simp only [receiving, serial, hpc, Bool.true_and, Bool.or_eq_true, Bool.not_eq_true',
      Bool.and_eq_true, decide_eq_true_eq]
    cases reserves : pc.reserves s.shared.lifecycle with
    | false => exact .inl rfl
    | true =>
      rw [reserves] at allowed
      exact .inr ⟨h.unowned reserves, allowed.resolve_left (by simp)⟩
  | beginReceive timeoutMs =>
    have outlined := next_outlined h.preparing.outlined serial step
    obtain ⟨-, step⟩ := Option.ite_none_right_eq_some.mp step
    obtain rfl := Option.some.inj step
    refine ⟨outlined, ?_⟩
    intro c pc hpc prepares
    simp only [Bool.not_eq_true', List.any_eq_false] at allowed
    exact absurd prepares (allowed _ hpc)
  | _ => exact h.preparing.next (by simp [receiving, serial]) step

theorem exec_apart (run : exec (guarded apart next) ({} : System w) ks = some s) : s.Apart := by
  refine exec_invariant (P := Apart) ?_ run ?_
  · intro s k t h step
    obtain ⟨allowed, step⟩ := guarded_eq_some.mp step
    exact h.next allowed step
  · exact ⟨⟨⟨by simp, by simp, fun _ => ⟨rfl, rfl, rfl⟩⟩, Nat.zero_le 1, by rintro ⟨⟩, by simp,
      by simp⟩, ⟨⟨by simp, by simp, fun _ => ⟨rfl, rfl, rfl⟩⟩, by simp⟩⟩

/-! ### Its runs are runs of the ring -/

/-- Where a start() clears the ring, no task is live and no receive() is in progress. -/
theorem Apart.clears_nil (h : s.Apart) (busy : 0 < s.liveTasks ∨ s.consumer ≠ none) :
    s.calls.filterMap CallPc.clearing = [] := by
  refine List.filterMap_eq_nil_iff.mpr ?_
  intro pc mem
  cases clearing : pc.clearing with
  | none => rfl
  | some clear =>
    obtain ⟨c, rfl⟩ := CallPc.clearing_preparing clearing
    obtain ⟨idle, none, -⟩ := h.preparing.alone c _ mem rfl
    rcases busy with live | receiving
    · omega
    · exact absurd idle receiving

theorem Apart.tasks (h : s.Apart) :
    ∃ one : Option (TaskPc w), s.tasks.filter TaskPc.live = one.toList := by
  have atMost := h.exclusive.atMostOne
  rw [liveTasks, List.countP_eq_length_filter] at atMost
  rcases tasks : s.tasks.filter TaskPc.live with _ | ⟨pc, _ | ⟨pc', rest⟩⟩
  · exact ⟨none, rfl⟩
  · exact ⟨some pc, rfl⟩
  · rw [tasks] at atMost
    simp at atMost

theorem ringUse_call (h : s.Apart) {i : ℕ} {ok : Bool} (step : s.next (.call i ok) = some t) :
    exec Clearing.next s.ringUse (s.ringMoves (.call i ok)) = some t.ringUse := by
  obtain ⟨pc, -, -, hpc, -, -⟩ := next_call step
  have member := List.mem_of_getElem? hpc
  obtain ⟨single, -⟩ := h.preparing.outlined.outline member
  obtain ⟨shared, control, hstep, rfl⟩ := next_call_single single step
  have idle (prepares : pc.preparing = true) : s.ringUse.producer = none ∧ s.ringUse.consumer = none := by
    cases pc with
    | stop pc => cases prepares
    | start c pc =>
      obtain ⟨idle, none, -⟩ := h.preparing.alone c pc member prepares
      have dead : s.tasks.filter TaskPc.live = [] := by
        rw [← List.length_eq_zero_iff, ← List.countP_eq_length_filter]
        exact none
      simp [ringUse, dead, idle]
  have moves := CallPc.step_moves s.ringUse rfl (by rw [← single]; rfl) idle hstep
  have created : ((s.tasks ++ pc.created ok).filter TaskPc.live).head?.bind TaskPc.pushing =
      s.ringUse.producer := by
    rcases pc.created_cases ok with nothing | ⟨c, rfl, -, created⟩
    · rw [nothing, List.append_nil]
      rfl
    · obtain ⟨-, none, -⟩ := h.preparing.alone c _ member rfl
      have dead : s.tasks.filter TaskPc.live = [] := by
        rw [← List.length_eq_zero_iff, ← List.countP_eq_length_filter]
        exact none
      simp [ringUse, created, dead, TaskPc.live, TaskPc.pushing]
  simp only [ringMoves, hpc, Option.map_some, Option.getD_some, moves]
  simp only [ringUse, created]

theorem ringUse_task (h : s.Apart) {i : ℕ} {env : TaskEnv} (step : s.next (.task i env) = some t) :
    exec Clearing.next s.ringUse (s.ringMoves (.task i env)) = some t.ringUse := by
  obtain ⟨pc, shared, control, hpc, hstep, rfl⟩ := next_task step
  obtain ⟨one, tasks⟩ := h.tasks
  simp only [ringMoves, hpc, Option.map_some, Option.getD_some]
  cases live : pc.live with
  | true =>
    obtain ⟨rfl, left⟩ := filter_resume_alone hpc tasks live control
    have busy : 0 < s.liveTasks := List.countP_pos_iff.mpr ⟨pc, List.mem_of_getElem? hpc, live⟩
    have moves := TaskPc.step_moves s.ringUse rfl (by simp [ringUse, tasks])
      (h.clears_nil (.inl busy)) hstep
    have pushes : ((resume s.tasks i control).filter TaskPc.live).head?.bind TaskPc.pushing =
        control.pc?.bind TaskPc.pushing := by
      rw [left]
      cases control with
      | ret value => rfl
      | next pc' =>
        cases live' : pc'.live with
        | true => simp [Option.filter, live']
        | false =>
          have rests : pc'.pushing = none := by cases pc' <;> first | rfl | cases live'
          simp [Option.filter, live', rests]
    rw [moves]
    simp only [ringUse, pushes]
  | false =>
    obtain ⟨frames, -, -, -, -, dead⟩ := TaskPc.step_dead live hstep
    have same := filter_resume_other hpc live dead
    have rests : pc.ringMoves env s.shared = [] := by cases pc <;> first | rfl | cases live
    rw [rests]
    simp only [ringUse, same, frames, exec_nil]

theorem ringUse_consumer (h : s.Apart) {granted : Bool}
    (step : s.next (.consumer granted) = some t) :
    exec Clearing.next s.ringUse (s.ringMoves (.consumer granted)) = some t.ringUse := by
  obtain ⟨pc, shared, control, hpc, hstep, rfl⟩ := next_consumer step
  have moves := ReceivePc.step_moves s.ringUse rfl (by simp [ringUse, hpc])
    (h.clears_nil (.inr (by simp [hpc]))) hstep
  simp only [ringMoves, hpc, Option.map_some, Option.getD_some, moves]
  rfl

theorem next_ringUse (h : s.Apart) (allowed : s.apart k = true) (step : s.next k = some t) :
    exec Clearing.next s.ringUse (s.ringMoves k) = some t.ringUse := by
  cases k with
  | call i ok => exact ringUse_call h step
  | task i env => exact ringUse_task h step
  | consumer granted => exact ringUse_consumer h step
  | beginStart c =>
    obtain rfl := Option.some.inj step
    simp [ringMoves, ringUse, CallPc.clearing]
  | beginStop =>
    obtain rfl := Option.some.inj step
    simp [ringMoves, ringUse, CallPc.clearing]
  | beginReceive timeoutMs =>
    obtain ⟨free, step⟩ := Option.ite_none_right_eq_some.mp step
    obtain rfl := Option.some.inj step
    simp [ringMoves, ringUse, Option.isNone_iff_eq_none.mp free, ReceivePc.popping]
  | beginStatistics operation =>
    obtain rfl := Option.some.inj step
    exact Clearing.exec_one rfl rfl
  | observer i cas =>
    obtain ⟨operation, pc, found, rfl⟩ := next_observer step
    refine Clearing.exec_one rfl ?_
    show ((s.observers[i]?.map _).map _ : Option (Clearing w queueCapacity RawCanFrame)) = _
    rw [found]
    rfl
  | busOff =>
    obtain ⟨-, rfl⟩ := next_busOff step
    rfl

/-- The ring inside the component. -/
def ring : Projection (guarded apart (next (w := w)))
    (Clearing.next : Clearing w queueCapacity RawCanFrame → _ → _) where
  Inv := Apart
  view := ringUse
  moves := ringMoves
  keeps h step := h.next (guarded_eq_some.mp step).1 (guarded_eq_some.mp step).2
  step h step := next_ringUse h (guarded_eq_some.mp step).1 (guarded_eq_some.mp step).2

/-! ### What the statistics account for -/

/-- The frames that a push refuses with this step. -/
def refused (s : System w) : Choice → ℕ
  | .task i _ => match s.tasks[i]? with
    | some (.push .countOverflow) => 1
    | _ => 0
  | _ => 0

/-- The frames that a start() discards from an earlier run. -/
def discarded (s : System w) : Choice → ℕ
  | .call i _ => ((s.calls[i]?.bind CallPc.clearing).map (·.discards s.shared.frames)).getD 0
  | _ => 0

/-- What a statistics() with reset returns for a counter. -/
def reported (counter : Counter) (s : System w) : Choice → BitVec 64
  | .observer i cas => match s.observers[i]? with
    | some (.snapshotAndReset, pc) => pc.reports s.shared.frames cas counter
    | _ => 0
  | _ => 0

/-- What a start() throws away of a counter. -/
def cleared (counter : Counter) (s : System w) : Choice → BitVec 64
  | .call i ok =>
    ((s.calls[i]?.bind CallPc.clearing).map (·.reports s.shared.frames ok counter)).getD 0
  | _ => 0

/-! Each of these is what the ring counts along the component's moves. -/

theorem total_ring_begun (s : System w) (k : Choice) :
    total Clearing.next Clearing.begun s.ringUse (s.ringMoves k) = (s.stampedFrames k).length := by
  cases k with
  | call i ok =>
    refine total_eq_zero ?_ _
    intro m mem usage
    cases found : s.calls[i]? with
    | none => simp [ringMoves, found] at mem
    | some pc =>
      simp only [ringMoves, found, Option.map_some, Option.getD_some] at mem
      rcases CallPc.mem_ringMoves mem with rfl | rfl | rfl <;> rfl
  | task i env =>
    cases found : s.tasks[i]? with
    | none => simp [ringMoves, stampedFrames, found]
    | some pc =>
      simp only [ringMoves, stampedFrames, found, Option.map_some, Option.getD_some]
      cases pc with
      | stamp message =>
        simp only [TaskPc.ringMoves, TaskPc.stamps]
        split
        · rw [total_single]
          rfl
        · rfl
      | _ => first | rfl | exact total_single _ _ _
  | consumer granted =>
    refine total_eq_zero ?_ _
    intro m mem usage
    cases found : s.consumer with
    | none => simp [ringMoves, found] at mem
    | some pc =>
      simp only [ringMoves, found, Option.map_some, Option.getD_some] at mem
      rcases ReceivePc.mem_ringMoves mem with rfl | rfl <;> rfl
  | beginStatistics operation => exact total_single _ _ _
  | observer i cas => exact total_single _ _ _
  | _ => rfl

/-- The task that pushes is the live one. -/
theorem Apart.producer (h : s.Apart) {i : ℕ} {pc : PushPc w RawCanFrame}
    (found : s.tasks[i]? = some (.push pc)) : s.ringUse.producer = some pc := by
  obtain ⟨one, tasks⟩ := h.tasks
  obtain ⟨rfl, -⟩ := filter_resume_alone (ρ := Unit) found tasks rfl (.ret ())
  simp [ringUse, tasks, TaskPc.pushing]

/-- An amount of the ring that only the task's pushes contribute to. -/
theorem Apart.total_pushes (h : s.Apart)
    {amount : Clearing w queueCapacity RawCanFrame → RingChoice → ℕ}
    (share : PushPc w RawCanFrame → ℕ)
    (pushes : ∀ usage : Clearing w queueCapacity RawCanFrame, ∀ cas pc, usage.producer = some pc →
      amount usage (.ring (.producer cas)) = share pc)
    (others : ∀ usage : Clearing w queueCapacity RawCanFrame, ∀ m,
      (∀ cas, m ≠ .ring (.producer cas)) → amount usage m = 0)
    (k : Choice) :
    total Clearing.next amount s.ringUse (s.ringMoves k) = match k with
      | .task i _ => ((s.tasks[i]?.bind TaskPc.pushing).map share).getD 0
      | _ => 0 := by
  cases k with
  | call i ok =>
    refine total_eq_zero ?_ _
    intro m mem usage
    cases found : s.calls[i]? with
    | none => simp [ringMoves, found] at mem
    | some pc =>
      simp only [ringMoves, found, Option.map_some, Option.getD_some] at mem
      rcases CallPc.mem_ringMoves mem with rfl | rfl | rfl <;> exact others _ _ (by simp)
  | task i env =>
    cases found : s.tasks[i]? with
    | none => simp [ringMoves, found]
    | some pc =>
      simp only [ringMoves, found, Option.map_some, Option.getD_some, Option.bind_some]
      cases pc with
      | push pc =>
        simp only [TaskPc.ringMoves, total_single]
        exact pushes _ _ _ (h.producer found)
      | stamp message =>
        refine total_eq_zero ?_ _
        intro m mem usage
        refine others _ _ ?_
        simp only [TaskPc.ringMoves] at mem
        split at mem <;> simp_all
      | _ =>
        refine total_eq_zero ?_ _
        intro m mem usage
        refine others _ _ ?_
        simp_all [TaskPc.ringMoves]
  | consumer granted =>
    refine total_eq_zero ?_ _
    intro m mem usage
    cases found : s.consumer with
    | none => simp [ringMoves, found] at mem
    | some pc =>
      simp only [ringMoves, found, Option.map_some, Option.getD_some] at mem
      rcases ReceivePc.mem_ringMoves mem with rfl | rfl <;> exact others _ _ (by simp)
  | beginStatistics operation => exact (total_single _ _ _).trans (others _ _ (by simp))
  | observer i cas => exact (total_single _ _ _).trans (others _ _ (by simp))
  | _ => rfl

theorem Apart.total_ring_adds (h : s.Apart) (k : Choice) :
    total Clearing.next Clearing.adds s.ringUse (s.ringMoves k) = (s.acceptedFrames k).length := by
  rw [h.total_pushes PushPc.adds]
  · cases k with
    | task i env =>
      cases found : s.tasks[i]? with
      | none => simp [acceptedFrames, found]
      | some pc =>
        simp only [acceptedFrames, found, Option.bind_some, Option.map_some, Option.getD_some]
        cases pc with
        | push pc => cases pc <;> rfl
        | _ => rfl
    | _ => rfl
  · intro usage cas pc producer
    simp [Clearing.adds, Spsc.adds, producer]
  · intro usage m other
    cases m with
    | ring m =>
      cases m with
      | producer cas => exact absurd rfl (other cas)
      | _ => rfl
    | _ => rfl

theorem Apart.total_ring_refused (h : s.Apart) (k : Choice) :
    total Clearing.next (Clearing.counted .queueOverflows) s.ringUse (s.ringMoves k) =
      s.refused k := by
  rw [h.total_pushes fun pc => Counter.queueOverflows.once pc.counted]
  · cases k with
    | task i env =>
      cases found : s.tasks[i]? with
      | none => simp [refused, found]
      | some pc =>
        simp only [refused, found, Option.bind_some]
        cases pc with
        | push pc => cases pc <;> rfl
        | _ => rfl
    | _ => rfl
  · intro usage cas pc producer
    simp [Clearing.counted, producer]
  · intro usage m other
    cases m with
    | ring m =>
      cases m with
      | producer cas => exact absurd rfl (other cas)
      | consumer =>
        cases pops : usage.consumer with
        | none => simp [Clearing.counted, pops]
        | some pc => cases pc <;> simp [Clearing.counted, pops, PopPc.counted, Counter.once]
      | record what n => cases what <;> rfl
      | _ => rfl
    | _ => rfl

/-- The step of a pop that counts its frame returns it. -/
theorem ReceivePc.step_delivers {sh sh' : Shared w} {pc : ReceivePc w} {granted : Bool}
    {control : Control (ReceivePc w) (Result × Option RawCanFrame)}
    (step : pc.step sh granted = some (sh', control)) :
    Counter.framesDelivered.once (pc.popping.bind PopPc.counted) =
      ((control.value?.map deliveredFrame).getD []).length := by
  have refuses (next : ReceivePc w) (result : Result) :
      (((refuseOr sh.lifecycle.state (.next next)).value?.map deliveredFrame).getD []).length = 0 := by
    cases sh.lifecycle.state <;> rfl
  cases pc with
  | checkState timeoutMs =>
    obtain ⟨rfl, rfl⟩ := Prod.mk.inj (Option.some.inj step)
    cases sh.lifecycle.state <;> rfl
  | take timeoutMs =>
    simp only [ReceivePc.step] at step
    split at step
    · rcases takeNow_eq_some step with ⟨s, s', -, -, same⟩ | ⟨s, -, -, same⟩ <;>
        obtain ⟨rfl, rfl⟩ := Prod.mk.inj same <;> rfl
    · rcases takeWithin_eq_some step with ⟨s, s', -, -, -, same⟩ | ⟨-, same⟩ <;>
        obtain ⟨rfl, rfl⟩ := Prod.mk.inj same <;> rfl
  | checkAfterTimeout =>
    obtain ⟨rfl, rfl⟩ := Prod.mk.inj (Option.some.inj step)
    cases sh.lifecycle.state <;> rfl
  | checkAfterTake =>
    obtain ⟨rfl, rfl⟩ := Prod.mk.inj (Option.some.inj step)
    cases sh.lifecycle.state <;> rfl
  | pop pc =>
    obtain ⟨rfl, rfl⟩ := Prod.mk.inj (Option.some.inj step)
    cases pc with
    | loadHead tail =>
      by_cases empty : tail = sh.frames.head
      · simp only [PopPc.step, if_pos empty]
        rfl
      · simp only [PopPc.step, if_neg empty]
        rfl
    | _ => rfl

theorem total_ring_delivered (step : s.next k = some t) :
    total Clearing.next (Clearing.counted .framesDelivered) s.ringUse (s.ringMoves k) =
      (s.returnedFrames k).length := by
  cases k with
  | consumer granted =>
    obtain ⟨pc, shared, control, hpc, hstep, rfl⟩ := next_consumer step
    have value : s.received (.consumer granted) = control.value? := by
      simp only [received, hpc, Option.bind_some, hstep]
    rw [returnedFrames, value, ← ReceivePc.step_delivers hstep]
    simp only [ringMoves, hpc, Option.map_some, Option.getD_some]
    cases pc with
    | checkAfterTake =>
      simp only [ReceivePc.ringMoves]
      split
      · exact total_single _ _ _
      · rfl
    | pop pc =>
      simp only [ReceivePc.ringMoves, total_single]
      simp [Clearing.counted, ringUse, hpc]
    | _ => rfl
  | call i ok =>
    refine total_eq_zero ?_ _
    intro m mem usage
    cases found : s.calls[i]? with
    | none => simp [ringMoves, found] at mem
    | some pc =>
      simp only [ringMoves, found, Option.map_some, Option.getD_some] at mem
      rcases CallPc.mem_ringMoves mem with rfl | rfl | rfl <;> rfl
  | task i env =>
    refine total_eq_zero ?_ _
    intro m mem usage
    cases found : s.tasks[i]? with
    | none => simp [ringMoves, found] at mem
    | some pc =>
      simp only [ringMoves, found, Option.map_some, Option.getD_some] at mem
      rcases TaskPc.mem_ringMoves mem with ⟨frame, rfl⟩ | rfl | ⟨what, n, rfl⟩
      · rfl
      · cases pushes : usage.producer with
        | none => simp [Clearing.counted, pushes]
        | some pc => cases pc <;> simp [Clearing.counted, pushes, PushPc.counted, Counter.once]
      · cases what <;> rfl
  | beginStatistics operation => exact total_single _ _ _
  | observer i cas => exact total_single _ _ _
  | _ => rfl

/-- The call that clears the ring is the first of the ring's. -/
theorem Apart.clearing (h : s.Apart) {i : ℕ} {pc : CallPc w} (found : s.calls[i]? = some pc) :
    s.ringUse.clears[0]? = pc.clearing := by
  obtain ⟨single, -⟩ := h.preparing.outlined.outline (List.mem_of_getElem? found)
  cases clears : pc.clearing <;> simp [ringUse, single, clears]

/-- An amount of the ring that only its clear() and its observers contribute to. -/
theorem total_resets (s : System w) {M : Type*} [AddCommMonoid M]
    {amount : Clearing w queueCapacity RawCanFrame → RingChoice → M} (k : Choice)
    (others : ∀ usage : Clearing w queueCapacity RawCanFrame, ∀ m,
      (∀ i cas, m ≠ .clearing i cas ∧ m ≠ .ring (.observer i cas)) → amount usage m = 0) :
    total Clearing.next amount s.ringUse (s.ringMoves k) = match k with
      | .call i ok => if (s.calls[i]?.bind CallPc.clearing).isSome then
          amount s.ringUse (.clearing 0 ok) else 0
      | .observer i cas => amount s.ringUse (.ring (.observer i cas))
      | _ => 0 := by
  cases k with
  | call i ok =>
    cases found : s.calls[i]? with
    | none => simp [ringMoves, found]
    | some pc =>
      simp only [ringMoves, found, Option.map_some, Option.getD_some, Option.bind_some]
      cases clears : pc.clearing with
      | some clear =>
        obtain ⟨c, rfl⟩ := CallPc.clearing_preparing clears
        exact total_single _ _ _
      | none =>
        refine total_eq_zero ?_ _
        intro m mem usage
        rcases CallPc.mem_ringMoves mem with rfl | rfl | rfl
        · exact others _ _ (by simp)
        · cases pc with
          | stop pc => cases mem
          | start c pc => cases pc <;> simp_all [CallPc.ringMoves, CallPc.clearing]
        · exact others _ _ (by simp)
  | task i env =>
    refine total_eq_zero ?_ _
    intro m mem usage
    cases found : s.tasks[i]? with
    | none => simp [ringMoves, found] at mem
    | some pc =>
      simp only [ringMoves, found, Option.map_some, Option.getD_some] at mem
      rcases TaskPc.mem_ringMoves mem with ⟨frame, rfl⟩ | rfl | ⟨what, n, rfl⟩ <;>
        exact others _ _ (by simp)
  | consumer granted =>
    refine total_eq_zero ?_ _
    intro m mem usage
    cases found : s.consumer with
    | none => simp [ringMoves, found] at mem
    | some pc =>
      simp only [ringMoves, found, Option.map_some, Option.getD_some] at mem
      rcases ReceivePc.mem_ringMoves mem with rfl | rfl <;> exact others _ _ (by simp)
  | beginStatistics operation => exact (total_single _ _ _).trans (others _ _ (by simp))
  | observer i cas => exact total_single _ _ _
  | _ => rfl

theorem Apart.total_ring_discarded (h : s.Apart) (k : Choice) :
    total Clearing.next Clearing.discarded s.ringUse (s.ringMoves k) = s.discarded k := by
  rw [total_resets]
  · cases k with
    | call i ok =>
      simp only [discarded]
      cases found : s.calls[i]? with
      | none => rfl
      | some pc =>
        cases clears : pc.clearing with
        | none => simp [clears]
        | some clear =>
          have first := h.clearing found
          simp [Clearing.discarded, first, clears]
          rfl
    | _ => rfl
  · intro usage m other
    cases m with
    | clearing i cas => exact absurd rfl (other i cas).1
    | _ => rfl

theorem Apart.total_ring_reported (h : s.Apart) (counter : Counter) (k : Choice) :
    total Clearing.next (Clearing.reported counter) s.ringUse (s.ringMoves k) =
      s.reported counter k + s.cleared counter k := by
  rw [total_resets]
  · cases k with
    | call i ok =>
      simp only [reported, cleared, zero_add]
      cases found : s.calls[i]? with
      | none => rfl
      | some pc =>
        cases clears : pc.clearing with
        | none => simp [clears]
        | some clear =>
          have first := h.clearing found
          simp [Clearing.reported, first, clears]
          rfl
    | observer i cas => exact (add_zero _).symm
    | _ => exact (add_zero _).symm
  · intro usage m other
    cases m with
    | clearing i cas => exact absurd rfl (other i cas).1
    | ring m =>
      cases m with
      | observer i cas => exact absurd rfl (other i cas).2
      | _ => rfl
    | clear => rfl

/-- No push, no pop, no statistics() and no clear() is in progress. -/
structure RingQuiet (s : System w) : Prop where
  pushes : ∀ pc ∈ s.tasks, pc.pushing = none
  pops : s.consumer.bind ReceivePc.popping = none
  observers : s.observers = []
  clears : ∀ pc ∈ s.calls, pc.clearing = none

theorem RingQuiet.quiescent (h : s.RingQuiet) : s.ringUse.Quiescent := by
  refine ⟨?_, h.pops, h.observers, List.filterMap_eq_nil_iff.mpr h.clears⟩
  cases first : (s.tasks.filter TaskPc.live).head? with
  | none => simp [ringUse, first]
  | some pc =>
    have mem := List.mem_of_mem_head? first
    simpa [ringUse, first] using h.pushes pc (List.mem_filter.mp mem).1

/-- The component never breaks the contract of its ring: whatever its threads do, in whatever
order, what happens to the ring is a run of the ring with one producer, one consumer and a
clear() that has it to itself. -/
theorem ring_contract (run : exec (guarded apart next) ({} : System w) ks = some s) :
    exec Clearing.next (Clearing.idle (default : FrameRing w queueCapacity RawCanFrame))
      (ring.schedule ({} : System w) ks) = some s.ringUse :=
  ring.exec_schedule (exec_apart (exec_nil _)) run

theorem trace_length (next : System w → Choice → Option (System w))
    (frames : System w → Choice → List RawCanFrame) (s : System w) (ks : List Choice) :
    (trace next frames s ks).length = total next (fun s k => (frames s k).length) s ks := by
  induction ks generalizing s with
  | nil => rfl
  | cons k ks ih =>
    cases step : next s k with
    | none => simp [trace, total, step]
    | some t => rw [trace_cons step, total_cons step, List.length_append, ih]

/-- Over any number of runs, resets and restarts: every valid message of the driver is
accepted or refused, every accepted one is returned by receive(), still queued, or discarded
by a later start(), and for each of these the statistics() with reset, the start() calls and
what is shown add up to the number. -/
theorem frames_conserved (wide : 6 < w)
    (run : exec (guarded apart next) ({} : System w) ks = some s) (quiet : s.RingQuiet) :
    let component := guarded apart (next (w := w))
    let valid := (trace component stampedFrames {} ks).length
    let accepted := (trace component acceptedFrames {} ks).length
    let delivered := (trace component returnedFrames {} ks).length
    let dropped := total component refused {} ks
    (valid = accepted + dropped ∧
      accepted = delivered + distance s.shared.frames.head s.shared.frames.tail +
        total component discarded {} ks) ∧
      ∀ counter n, (counter, n) ∈ [(Counter.framesReceived, valid), (.framesQueued, accepted),
          (.framesDelivered, delivered), (.framesDropped, dropped), (.queueOverflows, dropped)] →
        total component (reported counter) {} ks + total component (cleared counter) {} ks +
          s.shared.frames.counters counter = BitVec.ofNat 64 n := by
  intro component valid accepted delivered dropped
  have small : queueCapacity < 2 ^ w := Nat.pow_lt_pow_right Nat.one_lt_two wide
  have start : ({} : System w).Apart := exec_apart (exec_nil _)
  have empty : (default : FrameRing w queueCapacity RawCanFrame).head =
      (default : FrameRing w queueCapacity RawCanFrame).tail := rfl
  have used := ring_contract run
  have lifts {M : Type} [AddCommMonoid M] {amount : System w → Choice → M}
      {amount' : Clearing w queueCapacity RawCanFrame → RingChoice → M}
      (same : ∀ {s k t}, s.Apart → guarded apart next s k = some t →
        total Clearing.next amount' s.ringUse (s.ringMoves k) = amount s k) :
      total Clearing.next amount' (Clearing.idle default) (ring.schedule {} ks) =
        total component amount {} ks :=
    ring.total_schedule same start run
  have begun := lifts fun {s k t} _ _ => total_ring_begun s k
  have adds := lifts fun {s k t} h _ => h.total_ring_adds k
  have overflows := lifts fun {s k t} h _ => h.total_ring_refused k
  have delivers := lifts fun {s k t} _ step => total_ring_delivered (guarded_eq_some.mp step).2
  have discards := lifts fun {s k t} h _ => h.total_ring_discarded k
  obtain ⟨received, queued⟩ := Clearing.pushes_counted small empty used quiet.quiescent.producer
  obtain ⟨taken, returned, totals, -⟩ := Clearing.statistics_conserved small empty (fun _ => rfl) used
  obtain ⟨split, drops, leaves⟩ := totals quiet.quiescent
  have received : valid = Clearing.events (Clearing.idle default) (ring.schedule {} ks)
      .framesReceived := (trace_length _ _ _ _).trans (begun.symm.trans received)
  have queued : accepted = Clearing.events (Clearing.idle default) (ring.schedule {} ks)
      .framesQueued := (trace_length _ _ _ _).trans (adds.symm.trans queued)
  have delivered' : delivered = Clearing.events (Clearing.idle default) (ring.schedule {} ks)
      .framesDelivered := (trace_length _ _ _ _).trans delivers.symm
  have refuses : dropped = Clearing.events (Clearing.idle default) (ring.schedule {} ks)
      .queueOverflows := overflows.symm
  rw [received, queued, delivered', refuses]
  refine ⟨⟨?_, ?_⟩, ?_⟩
  · rw [← drops]
    exact split
  · rw [← discards]
    exact leaves
  · intro counter n mem
    have resets : total Clearing.next (Clearing.reported counter) (Clearing.idle default)
        (ring.schedule {} ks) = total component (fun s k => reported counter s k + cleared counter s k)
          {} ks := lifts fun {s k t} h _ => h.total_ring_reported counter k
    have sum := taken counter
    rw [← returned quiet.quiescent.observers quiet.quiescent.clears, resets, total_add] at sum
    refine Eq.trans sum ?_
    simp only [List.mem_cons, Prod.mk.injEq, List.not_mem_nil, or_false] at mem
    rcases mem with ⟨rfl, rfl⟩ | ⟨rfl, rfl⟩ | ⟨rfl, rfl⟩ | ⟨rfl, rfl⟩ | ⟨rfl, rfl⟩
    · rfl
    · rfl
    · rfl
    · exact congrArg _ drops
    · rfl

/-- Two messages are queued and one of them is received; stop() and another start() follow. -/
def restartedRun : List Choice :=
  startRun ++ [.task 0 {}, .task 0 { received := .message { dataLengthCode := 2 } }] ++
    List.replicate 16 (.task 0 {}) ++ [.task 0 { received := .message { dataLengthCode := 2 } }] ++
    List.replicate 15 (.task 0 {}) ++ .beginReceive 0 :: List.replicate 8 (.consumer true) ++
    .beginStop :: stopRun ++ List.replicate 2 (.call 0 true) ++ startRun

theorem ring_contract_restarted :
    exec Clearing.next (Clearing.idle (default : FrameRing 32 queueCapacity RawCanFrame))
      (ring.schedule ({} : System 32) restartedRun) =
        some (final (guarded apart next) ({} : System 32) restartedRun).ringUse :=
  ring_contract (exec_eq_final _ _ restartedRun (by decide))

theorem frames_conserved_restarted :
    let component := guarded apart (next (w := 32))
    (trace component acceptedFrames {} restartedRun).length = 2 ∧
      2 = (trace component returnedFrames {} restartedRun).length + 0 +
        total component discarded {} restartedRun := by
  intro component
  have run := exec_eq_final component {} restartedRun (by decide)
  have quiet : (final component {} restartedRun).RingQuiet := by
    refine ⟨by decide, by decide, ?_, by decide⟩
    exact List.isEmpty_iff.mp (by decide)
  have accepted : (trace component acceptedFrames {} restartedRun).length = 2 := by decide
  have queued := (frames_conserved (by decide) run quiet).1.2
  have empty : distance (final component {} restartedRun).shared.frames.head
      (final component {} restartedRun).shared.frames.tail = 0 := by decide
  rw [empty, accepted] at queued
  exact ⟨accepted, queued⟩

end System

end CanTelemetry.CanBus
