import CanTelemetry.CanBus.Receive
import CanTelemetry.Foundation.Totals

/-! What a stop() does for a receive() that is waiting: nothing. Only the receive task gives
tokens, start() and stop() only drain them, and the tokens along a run are what was given
and neither drained nor granted. A stop() that gets through drains them all; one that does
not, drains none. So a receive() that waits when a stop() begins is left waiting unless its own
wait ends, or the task gives a token and the stop() does not get through. -/

namespace CanTelemetry.CanBus

open Execution Threads VehicleCore

variable {w : ℕ}

/-! ### Tokens given, drained and granted -/

/-- The tokens of `g_available`. -/
def Shared.tokens (sh : Shared w) : ℕ := (sh.available.map Semaphore.tokens).getD 0

/-- The token that the step of a task adds; at the limit none is. -/
def TaskPc.gives (sh : Shared w) : TaskPc w → ℕ
  | .giveAvailable | .latch .wake => if sh.tokens < queueCapacity then 1 else 0
  | _ => 0

/-- The token that the step of a start() or a stop() drains. -/
def CallPc.drains (sh : Shared w) : CallPc w → ℕ
  | .start _ .drainAvailable | .stop .drainAvailable => if 0 < sh.tokens then 1 else 0
  | _ => 0

/-- A task about to give a token. -/
def TaskPc.giving : TaskPc w → Bool
  | .giveAvailable | .latch .wake => true
  | _ => false

/-- A call that is draining the tokens. -/
def CallPc.draining : CallPc w → Bool
  | .start _ .drainAvailable | .stop .drainAvailable => true
  | _ => false

/-- The token that the step of a receive() is granted. -/
def ReceivePc.takes (sh : Shared w) (granted : Bool) : ReceivePc w → ℕ
  | .take timeoutMs => if 0 < sh.tokens ∧ (timeoutMs = 0 ∨ granted) then 1 else 0
  | _ => 0

theorem Shared.tokens_of_available {sh : Shared w} {s : Semaphore queueCapacity}
    (available : sh.available = some s) : sh.tokens = s.tokens := by
  simp [tokens, available]

theorem TaskPc.step_gives {sh sh' : Shared w} {env : TaskEnv} {pc : TaskPc w}
    {control : Control (TaskPc w) Unit} (step : pc.step env sh = some (sh', control)) :
    sh.tokens + pc.gives sh = sh'.tokens := by
  have given {s : Semaphore queueCapacity} (available : sh.available = some s) :
      sh.tokens + (if sh.tokens < queueCapacity then 1 else 0) =
        Shared.tokens { sh with available := some s.give } := by
    rw [Shared.tokens_of_available available]
    exact s.give_tokens.symm
  cases pc with
  | latch pc =>
    obtain ⟨⟨sh'', inner⟩, inside, same⟩ := Option.map_eq_some_iff.mp step
    obtain ⟨rfl, -⟩ := Prod.mk.inj same
    cases pc with
    | wake =>
      obtain ⟨s, available, same⟩ := Option.map_eq_some_iff.mp inside
      obtain ⟨rfl, -⟩ := Prod.mk.inj same
      exact given available
    | _ =>
      obtain ⟨rfl, -⟩ := Prod.mk.inj (Option.some.inj inside)
      rfl
  | giveAvailable =>
    obtain ⟨s, available, same⟩ := Option.map_eq_some_iff.mp step
    obtain ⟨rfl, -⟩ := Prod.mk.inj same
    exact given available
  | giveStopped =>
    obtain ⟨s, -, same⟩ := Option.map_eq_some_iff.mp step
    obtain ⟨rfl, -⟩ := Prod.mk.inj same
    rfl
  | _ =>
    obtain ⟨rfl, -⟩ := Prod.mk.inj (Option.some.inj step)
    rfl

/-- One turn of a drain takes a token, or finds none. -/
theorem takeNow_drains {π ρ : Type*} {sh sh' : Shared w} {again done control : Control π ρ}
    (step : takeNow sh.available (fun s => ({ sh with available := some s }, again)) (sh, done) =
      some (sh', control)) :
    sh.tokens = (if 0 < sh.tokens then 1 else 0) + sh'.tokens ∧
      (control = again ∨ sh'.tokens = 0) := by
  rcases takeNow_eq_some step with ⟨s, s', available, taken, same⟩ | ⟨s, available, empty, same⟩
  · obtain ⟨rfl, rfl⟩ := Prod.mk.inj same
    have fewer := Semaphore.take?_eq_some.mp taken
    refine ⟨?_, .inl rfl⟩
    rw [Shared.tokens_of_available available, Shared.tokens_of_available rfl,
      if_pos (by omega), fewer, Nat.add_comm]
  · obtain ⟨rfl, rfl⟩ := Prod.mk.inj same
    have zero : sh'.tokens = 0 := by
      rw [Shared.tokens_of_available available]
      exact Semaphore.take?_eq_none.mp empty
    exact ⟨by simp [zero], .inr zero⟩

theorem StartPc.step_drains {configuration : Configuration} {sh sh' : Shared w} {ok : Bool}
    {pc : StartPc w} {control : Control (StartPc w) Result}
    (step : pc.step configuration sh ok = some (sh', control)) :
    sh.tokens = (CallPc.start configuration pc).drains sh + sh'.tokens := by
  have still : sh.tokens = 0 + sh.tokens := (Nat.zero_add _).symm
  cases pc with
  | beginStart =>
    simp only [StartPc.step] at step
    split at step <;> obtain ⟨rfl, -⟩ := Prod.mk.inj (Option.some.inj step) <;> exact still
  | createAvailable =>
    obtain ⟨rfl, -⟩ := Prod.mk.inj (Option.some.inj step)
    show sh.tokens = 0 + Shared.tokens { sh with
      available := sh.available.or (if ok then some .empty else none) }
    unfold Shared.tokens
    cases sh.available with
    | some s => simp
    | none => cases ok <;> simp
  | drainAvailable => exact (takeNow_drains step).1
  | drainTaskStopped =>
    rcases takeNow_eq_some step with ⟨s, s', -, -, same⟩ | ⟨s, -, -, same⟩ <;>
      obtain ⟨rfl, -⟩ := Prod.mk.inj same <;>
      exact still
  | driverInstall | driverStart | driverStop | driverUninstall =>
    cases ok <;> obtain ⟨rfl, -⟩ := Prod.mk.inj (Option.some.inj step) <;> exact still
  | _ =>
    obtain ⟨rfl, -⟩ := Prod.mk.inj (Option.some.inj step)
    exact still

/-- A stop() that returns Ok has drained every token. -/
theorem StopPc.step_drains {sh sh' : Shared w} {ok : Bool} {pc : StopPc}
    {control : Control StopPc Result} (step : pc.step sh ok = some (sh', control)) :
    sh.tokens = (CallPc.stop (w := w) pc).drains sh + sh'.tokens ∧
      (control = .ret .ok → sh'.tokens = 0) := by
  have still : sh.tokens = 0 + sh.tokens := (Nat.zero_add _).symm
  cases pc with
  | begin pc =>
    obtain ⟨rfl, rfl⟩ := Prod.mk.inj (Option.some.inj step)
    refine ⟨still, ?_⟩
    cases (pc.step sh.lifecycle ok).2 with
    | next pc => simp
    | ret begun => cases begun <;> simp
  | driverStop | driverUninstall =>
    cases ok <;> obtain ⟨rfl, rfl⟩ := Prod.mk.inj (Option.some.inj step) <;>
      exact ⟨still, by simp⟩
  | awaitTask driverStopped =>
    rcases takeWithin_eq_some step with ⟨s, s', -, -, -, same⟩ | ⟨-, same⟩ <;>
      obtain ⟨rfl, rfl⟩ := Prod.mk.inj same <;>
      exact ⟨still, by simp⟩
  | dropToken driverStopped =>
    rcases takeNow_eq_some step with ⟨s, s', -, -, same⟩ | ⟨s, -, -, same⟩ <;>
      obtain ⟨rfl, rfl⟩ := Prod.mk.inj same <;>
      exact ⟨still, by simp⟩
  | reconcile pc driverStopped taskStopped driverUninstalled =>
    obtain ⟨rfl, rfl⟩ := Prod.mk.inj (Option.some.inj step)
    refine ⟨still, ?_⟩
    cases (pc.step sh.lifecycle).2 with
    | next pc => simp
    | ret u =>
      by_cases done : driverStopped ∧ taskStopped ∧ driverUninstalled
      · simp [done]
      · simp only [Control.call_ret, if_neg done]
        cases taskStopped <;> rintro ⟨⟩
  | drainAvailable =>
    simp only [StopPc.step] at step
    split at step
    · rename_i missing
      obtain ⟨rfl, -⟩ := Prod.mk.inj (Option.some.inj step)
      have zero : sh.tokens = 0 := by simp [Shared.tokens, missing]
      exact ⟨by simp [CallPc.drains, zero], fun _ => zero⟩
    · obtain ⟨drains, ends⟩ := takeNow_drains step
      refine ⟨drains, ?_⟩
      rintro rfl
      exact ends.resolve_left (by simp)
  | _ =>
    obtain ⟨rfl, rfl⟩ := Prod.mk.inj (Option.some.inj step)
    exact ⟨still, by simp⟩

/-- A receive() that waits leaves its wait with its next step, with a token or without. -/
theorem ReceivePc.step_takes {sh sh' : Shared w} {granted : Bool} {pc : ReceivePc w}
    {control : Control (ReceivePc w) (Result × Option RawCanFrame)}
    (step : pc.step sh granted = some (sh', control)) :
    sh.tokens = pc.takes sh granted + sh'.tokens := by
  have still : sh.tokens = 0 + sh.tokens := (Nat.zero_add _).symm
  cases pc with
  | take timeoutMs =>
    simp only [ReceivePc.step] at step
    split at step
    case isTrue zero => simpa [takes, zero] using (takeNow_drains step).1
    case isFalse bounded =>
      rcases takeWithin_eq_some step with ⟨s, s', rfl, available, taken, same⟩ | ⟨rfl, same⟩
      · obtain ⟨rfl, -⟩ := Prod.mk.inj same
        have fewer := Semaphore.take?_eq_some.mp taken
        have some : 0 < sh.tokens := by
          rw [Shared.tokens_of_available available]
          omega
        rw [takes, if_pos ⟨some, .inr rfl⟩, Shared.tokens_of_available available,
          Shared.tokens_of_available rfl, fewer, Nat.add_comm]
      · obtain ⟨rfl, -⟩ := Prod.mk.inj same
        have unbound : ¬ (timeoutMs = 0 ∨ false = true) := by simpa using bounded
        rw [takes, if_neg fun both => unbound both.2, Nat.zero_add]
  | _ =>
    obtain ⟨rfl, -⟩ := Prod.mk.inj (Option.some.inj step)
    exact still

theorem CallPc.step_drains {sh sh' : Shared w} {ok : Bool} {pc : CallPc w}
    {control : Control (CallPc w) Result} (step : pc.step sh ok = some (sh', control)) :
    sh.tokens = pc.drains sh + sh'.tokens := by
  cases pc with
  | start configuration pc =>
    obtain ⟨inner, inside, rfl⟩ := CallPc.step_start step
    exact StartPc.step_drains inside
  | stop pc =>
    obtain ⟨inner, inside, rfl⟩ := CallPc.step_stop step
    exact (StopPc.step_drains inside).1

/-- A stop() for which something has failed does not get as far as to drain the tokens. -/
theorem StopPc.step_offTrack {sh sh' : Shared w} {ok : Bool} {pc pc' : StopPc}
    (off : pc.onTrack = false ∨ ((CallPc.stop (w := w) pc).driverCall.isNone &&
      !(CallPc.stop (w := w) pc).awaits || ok) = false)
    (step : pc.step sh ok = some (sh', .next pc')) : pc'.onTrack = false := by
  cases pc with
  | driverStop =>
    obtain rfl : ok = false := by simpa [onTrack, CallPc.driverCall] using off
    obtain ⟨-, same⟩ := Prod.mk.inj (Option.some.inj step)
    obtain rfl := Control.next.inj same
    rfl
  | driverUninstall =>
    obtain rfl : ok = false := by simpa [onTrack, CallPc.driverCall] using off
    obtain ⟨-, same⟩ := Prod.mk.inj (Option.some.inj step)
    obtain rfl := Control.next.inj same
    rfl
  | loadOwned driverStopped =>
    obtain rfl : driverStopped = false := by
      simpa [onTrack, CallPc.driverCall, CallPc.awaits] using off
    have same := (Prod.mk.inj (Option.some.inj step)).2
    obtain rfl := Control.next.inj same
    split <;> rfl
  | awaitTask driverStopped =>
    rcases takeWithin_eq_some step with ⟨s, s', rfl, -, -, same⟩ | ⟨rfl, same⟩
    · obtain rfl : driverStopped = false := by
        simpa [onTrack, CallPc.driverCall, CallPc.awaits] using off
      obtain rfl := Control.next.inj (Prod.mk.inj same).2
      rfl
    · obtain rfl := Control.next.inj (Prod.mk.inj same).2
      exact Bool.and_false _
  | acknowledge driverStopped =>
    obtain rfl : driverStopped = false := by
      simpa [onTrack, CallPc.driverCall, CallPc.awaits] using off
    obtain rfl := Control.next.inj (Prod.mk.inj (Option.some.inj step)).2
    rfl
  | dropToken driverStopped =>
    obtain rfl : driverStopped = false := by
      simpa [onTrack, CallPc.driverCall, CallPc.awaits] using off
    rcases takeNow_eq_some step with ⟨s, s', -, -, same⟩ | ⟨s, -, -, same⟩ <;>
      obtain rfl := Control.next.inj (Prod.mk.inj same).2 <;> rfl
  | loadInstalled driverStopped taskStopped =>
    have lost : (driverStopped && taskStopped) = false := by
      simpa [onTrack, CallPc.driverCall, CallPc.awaits] using off
    obtain rfl := Control.next.inj (Prod.mk.inj (Option.some.inj step)).2
    have unfinished : ¬ (driverStopped = true ∧ taskStopped = true ∧
        sh.lifecycle.driverInstalled = true) := by
      rintro ⟨rfl, rfl, -⟩
      cases lost
    rw [if_neg unfinished, onTrack, lost]
    rfl
  | reconcile pc driverStopped taskStopped driverUninstalled =>
    have lost : (driverStopped && taskStopped && driverUninstalled) = false := by
      simpa [onTrack, CallPc.driverCall, CallPc.awaits] using off
    have same := (Prod.mk.inj (Option.some.inj step)).2
    cases pc with
    | store target =>
      have unfinished : ¬ (driverStopped = true ∧ taskStopped = true ∧
          driverUninstalled = true) := by
        rintro ⟨rfl, rfl, rfl⟩
        cases lost
      simp only [ReconcilePc.step, Control.call_ret, if_neg unfinished] at same
      cases same
    | _ =>
      obtain rfl := Control.next.inj same
      exact lost
  | _ => simp [onTrack, CallPc.driverCall, CallPc.awaits] at off

/-- A stop() that drains the tokens only goes on to drain them. -/
theorem StopPc.step_draining {sh sh' : Shared w} {ok : Bool} {pc' : StopPc}
    (step : drainAvailable.step sh ok = some (sh', .next pc')) : pc' = .drainAvailable := by
  simp only [StopPc.step] at step
  split at step
  · cases (Prod.mk.inj (Option.some.inj step)).2
  · rcases takeNow_eq_some step with ⟨s, s', -, -, same⟩ | ⟨s, -, -, same⟩
    · exact Control.next.inj (Prod.mk.inj same).2
    · cases (Prod.mk.inj same).2

/-- The points of a receive() after its wait. -/
def ReceivePc.waited : ReceivePc w → Bool
  | .checkState _ | .take _ => false
  | _ => true

/-- The next step of a receive() that waits ends its wait, and it does not wait again. -/
theorem ReceivePc.step_waited {sh sh' : Shared w} {granted : Bool} {pc : ReceivePc w}
    {control : Control (ReceivePc w) (Result × Option RawCanFrame)}
    (step : pc.step sh granted = some (sh', control)) (checked : ∀ timeoutMs, pc ≠ .checkState timeoutMs) :
    ∀ pc' ∈ control.pc?, pc'.waited = true := by
  cases pc with
  | checkState timeoutMs => exact absurd rfl (checked timeoutMs)
  | take timeoutMs =>
    simp only [ReceivePc.step] at step
    split at step
    · rcases takeNow_eq_some step with ⟨s, s', -, -, same⟩ | ⟨s, -, -, same⟩ <;>
        obtain ⟨-, rfl⟩ := Prod.mk.inj same <;> simp [waited]
    · rcases takeWithin_eq_some step with ⟨s, s', -, -, -, same⟩ | ⟨-, same⟩ <;>
        obtain ⟨-, rfl⟩ := Prod.mk.inj same <;> simp [waited]
  | checkAfterTimeout =>
    obtain ⟨rfl, rfl⟩ := Prod.mk.inj (Option.some.inj step)
    cases state : sh.lifecycle.state <;> simp [refuseOr, receiveRefusal]
  | checkAfterTake =>
    obtain ⟨rfl, rfl⟩ := Prod.mk.inj (Option.some.inj step)
    cases state : sh.lifecycle.state <;> simp [refuseOr, receiveRefusal, waited]
  | pop pc =>
    obtain ⟨-, rfl⟩ := Prod.mk.inj (Option.some.inj step)
    cases (pc.step sh.frames).2 <;> simp [waited]

namespace System

variable {s t u : System w} {k : Choice} {ks : List Choice} {timeoutMs : BitVec 32} {result : Result}

/-- The tokens that the step of a task adds. -/
def given (s : System w) : Choice → ℕ
  | .task i _ => (s.tasks[i]?.map (·.gives s.shared)).getD 0
  | _ => 0

/-- The tokens that the step of a start() or a stop() drains. -/
def drained (s : System w) : Choice → ℕ
  | .call i _ => (s.calls[i]?.map (·.drains s.shared)).getD 0
  | _ => 0

/-- The token that the step of a receive() takes. -/
def granted (s : System w) : Choice → ℕ
  | .consumer granted => (s.consumer.map (·.takes s.shared granted)).getD 0
  | _ => 0

/-- Tokens come from the task alone. -/
theorem next_tokens (step : s.next k = some t) :
    s.shared.tokens + s.given k = (s.drained k + s.granted k) + t.shared.tokens := by
  cases k with
  | call i ok =>
    obtain ⟨pc, shared, control, found, hstep, rfl⟩ := next_call step
    simpa [given, drained, granted, found] using CallPc.step_drains hstep
  | task i env =>
    obtain ⟨pc, shared, control, found, hstep, rfl⟩ := next_task step
    simpa [given, drained, granted, found] using TaskPc.step_gives hstep
  | consumer ok =>
    obtain ⟨pc, shared, control, found, hstep, rfl⟩ := next_consumer step
    simpa [given, drained, granted, found] using ReceivePc.step_takes hstep
  | beginStart c =>
    obtain rfl := Option.some.inj step
    exact Nat.add_comm _ _
  | beginStop =>
    obtain rfl := Option.some.inj step
    exact Nat.add_comm _ _
  | beginReceive timeoutMs =>
    obtain ⟨-, step⟩ := Option.ite_none_right_eq_some.mp step
    obtain rfl := Option.some.inj step
    exact Nat.add_comm _ _
  | beginStatistics | observer | busOff =>
    obtain ⟨frames, driver, observers, -, rfl⟩ := next_beside rfl step
    exact Nat.add_comm _ _

/-- A receive() is blocked: it waits with a timeout, and there is no token. -/
structure Blocked (s : System w) (timeoutMs : BitVec 32) : Prop where
  waits : s.consumer = some (.take timeoutMs)
  bounded : timeoutMs ≠ 0
  empty : s.shared.tokens = 0

/-- The receive() that was blocked at the beginning of the run is still blocked at its end:
none has begun meanwhile. -/
def LeftBlocked (ks : List Choice) (t : System w) (timeoutMs : BitVec 32) : Prop :=
  t.Blocked timeoutMs ∧ ∀ ms, .beginReceive ms ∉ ks

/-- Nobody but the consumer touches a receive() in progress. -/
theorem next_same_consumer (step : s.next k = some t) (other : ∀ granted, k ≠ .consumer granted)
    (same : ∀ ms, k ≠ .beginReceive ms) : t.consumer = s.consumer := by
  cases k with
  | call i ok =>
    obtain ⟨pc', shared, control, -, -, rfl⟩ := next_call step
    rfl
  | task i env =>
    obtain ⟨pc', shared, control, -, -, rfl⟩ := next_task step
    rfl
  | consumer granted => exact absurd rfl (other granted)
  | beginReceive ms => exact absurd rfl (same ms)
  | beginStart c =>
    obtain rfl := Option.some.inj step
    rfl
  | beginStop =>
    obtain rfl := Option.some.inj step
    rfl
  | beginStatistics | observer | busOff =>
    obtain ⟨frames, driver, observers, -, rfl⟩ := next_beside rfl step
    rfl

/-- While its caller does not step, a receive() stays where it is, and no other one begins. -/
theorem exec_waits {pc : ReceivePc w} (h : s.consumer = some pc) (run : exec next s ks = some t)
    (other : ∀ granted, .consumer granted ∉ ks) :
    t.consumer = some pc ∧ ∀ ms, .beginReceive ms ∉ ks := by
  induction ks generalizing s with
  | nil =>
    obtain rfl := Option.some.inj run
    exact ⟨h, by simp⟩
  | cons k ks ih =>
    obtain ⟨u, step, run⟩ := exec_cons_eq_some.mp run
    have notConsumer (granted : Bool) : k ≠ .consumer granted := by
      rintro rfl
      exact other granted List.mem_cons_self
    have notBegin (ms : BitVec 32) : k ≠ .beginReceive ms := by
      rintro rfl
      obtain ⟨free, -⟩ := Option.ite_none_right_eq_some.mp step
      simp [h] at free
    have waits := (next_same_consumer step notConsumer notBegin).trans h
    obtain ⟨waits', notBegin'⟩ := ih waits run fun granted mem =>
      other granted (List.mem_cons_of_mem _ mem)
    refine ⟨waits', fun ms mem => ?_⟩
    rcases List.mem_cons.mp mem with first | later
    · exact notBegin ms first.symm
    · exact notBegin' ms later

/-- A receive() past its wait does not wait again. -/
theorem exec_waited (h : ∀ pc ∈ s.consumer, pc.waited = true) (run : exec next s ks = some t)
    (same : ∀ ms, .beginReceive ms ∉ ks) : ∀ pc ∈ t.consumer, pc.waited = true := by
  induction ks generalizing s with
  | nil =>
    obtain rfl := Option.some.inj run
    exact h
  | cons k ks ih =>
    obtain ⟨u, step, run⟩ := exec_cons_eq_some.mp run
    have notBegin (ms : BitVec 32) : k ≠ .beginReceive ms := by
      rintro rfl
      exact same ms List.mem_cons_self
    refine ih ?_ run fun ms mem => same ms (List.mem_cons_of_mem _ mem)
    by_cases consumes : ∃ granted, k = .consumer granted
    · obtain ⟨granted, rfl⟩ := consumes
      obtain ⟨pc, shared, control, hpc, hstep, rfl⟩ := next_consumer step
      refine ReceivePc.step_waited hstep ?_
      rintro timeoutMs rfl
      cases h _ hpc
    · rw [next_same_consumer step (fun granted same => consumes ⟨granted, same⟩) notBegin]
      exact h

/-- A step of its caller ends the wait of a receive(). -/
theorem exec_ends_wait (h : s.consumer = some (.take timeoutMs)) (run : exec next s ks = some t)
    (same : ∀ ms, .beginReceive ms ∉ ks) {granted : Bool} (mem : .consumer granted ∈ ks) :
    ∀ pc ∈ t.consumer, pc.waited = true := by
  induction ks generalizing s with
  | nil => cases mem
  | cons k ks ih =>
    obtain ⟨u, step, run⟩ := exec_cons_eq_some.mp run
    have notBegin (ms : BitVec 32) : k ≠ .beginReceive ms := by
      rintro rfl
      exact same ms List.mem_cons_self
    have later (ms : BitVec 32) : .beginReceive ms ∉ ks := fun mem => same ms (List.mem_cons_of_mem _ mem)
    by_cases consumes : ∃ granted, k = .consumer granted
    · obtain ⟨granted, rfl⟩ := consumes
      obtain ⟨pc, shared, control, hpc, hstep, rfl⟩ := next_consumer step
      obtain rfl := Option.some.inj (hpc.symm.trans h)
      exact exec_waited (ReceivePc.step_waited hstep (by simp)) run later
    · have other (granted : Bool) : k ≠ .consumer granted := fun same => consumes ⟨granted, same⟩
      refine ih ((next_same_consumer step other notBegin).trans h) run later ?_
      exact (List.mem_cons.mp mem).resolve_left (other granted).symm

/-- When a blocked receive() is left blocked: its caller did not step, and the tokens that
the task gave have all been drained. -/
theorem leftBlocked_iff (blocked : s.Blocked timeoutMs) (run : exec next s ks = some t) :
    LeftBlocked ks t timeoutMs ↔
      (∀ granted, .consumer granted ∉ ks) ∧ total next given s ks ≤ total next drained s ks := by
  have balance : s.shared.tokens + total next given s ks =
      (total next drained s ks + total next granted s ks) + t.shared.tokens := by
    rw [← total_add]
    exact total_balance (P := fun _ => True) (fun _ _ _ _ step => ⟨trivial, next_tokens step⟩)
      trivial run
  rw [blocked.empty] at balance
  constructor
  · rintro ⟨still, same⟩
    have quiet (granted : Bool) : .consumer granted ∉ ks := by
      intro mem
      cases exec_ends_wait blocked.waits run same mem _ still.waits
    have none : total next granted s ks = 0 := by
      refine total_eq_zero ?_ s
      intro k mem s
      cases k with
      | consumer granted => exact absurd mem (quiet granted)
      | _ => rfl
    have empty := still.empty
    exact ⟨quiet, by omega⟩
  · rintro ⟨quiet, drains⟩
    obtain ⟨waits, same⟩ := exec_waits blocked.waits run quiet
    exact ⟨⟨waits, blocked.bounded, by omega⟩, same⟩

/-- The result that a step of a stop() returns. -/
def stopReturned (s : System w) : Choice → Option Result
  | .call i ok => match s.calls[i]? with
    | some (.stop pc) => (pc.step s.shared ok).bind (·.2.value?)
    | _ => none
  | _ => none

theorem stopReturned_ok (returned : s.stopReturned k = some .ok) (step : s.next k = some t) :
    t.shared.tokens = 0 := by
  cases k with
  | call i ok =>
    obtain ⟨pc, shared, control, found, hstep, rfl⟩ := next_call step
    simp only [stopReturned, found] at returned
    split at returned
    case h_2 => cases returned
    case h_1 pc' same =>
      obtain rfl := Option.some.inj same
      obtain ⟨inner, inside, rfl⟩ := CallPc.step_stop hstep
      rw [inside, Option.bind_some] at returned
      cases inner with
      | next pc => cases returned
      | ret value =>
        obtain rfl := Option.some.inj returned
        exact (StopPc.step_drains inside).2 rfl
  | _ => cases returned

/-! ### Runs of overlapping calls -/

inductive TokenMove
  | given | drained
  deriving DecidableEq, Repr

/-- Where the task gives a token, and where a call drains them or finds none. -/
def tokenMoves (s : System w) : Choice → List TokenMove
  | .task i _ => if (s.tasks[i]?.map TaskPc.giving).getD false then [.given] else []
  | .call i _ => if (s.calls[i]?.map CallPc.draining).getD false then [.drained] else []
  | _ => []

theorem given_token (moves : s.tokenMoves k = [.given]) (step : s.next k = some t) :
    0 < t.shared.tokens := by
  cases k with
  | task i env =>
    obtain ⟨pc, shared, control, found, hstep, rfl⟩ := next_task step
    have gives := TaskPc.step_gives hstep
    have giving : pc.giving = true := by
      by_contra idle
      simp [tokenMoves, found, idle] at moves
    have one : pc.gives s.shared = if s.shared.tokens < queueCapacity then 1 else 0 := by
      cases pc with
      | latch pc => cases pc <;> first | rfl | cases giving
      | giveAvailable => rfl
      | _ => cases giving
    rw [one] at gives
    show 0 < shared.tokens
    by_cases room : s.shared.tokens < queueCapacity
    · rw [if_pos room] at gives
      omega
    · have most : 0 < queueCapacity := by decide
      omega
  | call i ok =>
    simp only [tokenMoves] at moves
    split at moves <;> cases moves
  | _ => cases moves

/-- Elsewhere no token is lost but to the consumer. -/
theorem tokens_kept (moves : s.tokenMoves k = []) (other : ∀ granted, k ≠ .consumer granted)
    (step : s.next k = some t) : s.shared.tokens ≤ t.shared.tokens := by
  have balance := next_tokens step
  have undrained : s.drained k = 0 := by
    cases k with
    | call i ok =>
      obtain ⟨pc, -, -, found, -, -⟩ := next_call step
      have idle : pc.draining = false := by
        by_contra drains
        simp [tokenMoves, found, drains] at moves
      simp only [drained, found, Option.map_some, Option.getD_some]
      cases pc with
      | start c pc => cases pc <;> first | rfl | cases idle
      | stop pc => cases pc <;> first | rfl | cases idle
    | _ => rfl
  have ungranted : s.granted k = 0 := by
    cases k with
    | consumer granted => exact absurd rfl (other granted)
    | _ => rfl
  omega

/-- A token that the task gives after the last drain is there, unless the consumer took it. -/
theorem last_given (run : exec next s ks = some t) (quiet : ∀ granted, .consumer granted ∉ ks)
    (last : (trace next tokenMoves s ks).getLast? = some .given) : 0 < t.shared.tokens := by
  induction ks using List.reverseRecOn generalizing t with
  | nil => cases last
  | append_singleton ks k ih =>
    obtain ⟨u, before, step⟩ := exec_concat_eq_some.mp run
    have other (granted : Bool) : k ≠ .consumer granted := by
      rintro rfl
      exact quiet granted (by simp)
    rw [trace_concat before] at last
    have cases : u.tokenMoves k = [] ∨ u.tokenMoves k = [.given] ∨ u.tokenMoves k = [.drained] := by
      cases k with
      | task i env => by_cases gives : (u.tasks[i]?.map TaskPc.giving).getD false <;> simp [tokenMoves, gives]
      | call i ok => by_cases drains : (u.calls[i]?.map CallPc.draining).getD false <;> simp [tokenMoves, drains]
      | _ => exact .inl rfl
    rcases cases with none | given | drained
    · rw [none, List.append_nil] at last
      have kept := tokens_kept none other step
      have there := ih before (fun granted mem => quiet granted (by simp [mem])) last
      omega
    · exact given_token given step
    · simp [drained] at last

/-! ### One stop() at a time -/

/-- A driver call of a stop() that fails, or its wait for the task that expires. -/
def failed (s : System w) (k : Choice) : ℕ := if s.succeeding k then 0 else 1

/-- A call of a stop() that is not at its drain drains nothing. -/
theorem drained_of_stop {i : ℕ} {ok : Bool} {pc : StopPc} (found : s.calls[i]? = some (.stop pc))
    (elsewhere : pc ≠ .drainAvailable) : s.drained (.call i ok) = 0 := by
  simp only [drained, found, Option.map_some, Option.getD_some]
  cases pc <;> first | rfl | exact absurd rfl elsewhere

theorem drained_of_other (other : ∀ i ok, k ≠ .call i ok) : s.drained k = 0 := by
  cases k with
  | call i ok => exact absurd rfl (other i ok)
  | _ => rfl

theorem failed_of_other (other : ∀ i ok, k ≠ .call i ok) : s.failed k = 0 := by
  cases k with
  | call i ok => exact absurd rfl (other i ok)
  | _ => rfl

/-- The stop() in progress, if there is one, is at such a point. -/
def StopAt (at_point : StopPc → Prop) (s : System w) : Prop :=
  s.Within ∧ ∀ pc, s.calls = [.stop pc] → at_point pc

/-- An invariant of the points of a stop(). -/
theorem StopAt.next {at_point : StopPc → Prop}
    (keeps : ∀ (sh sh' : Shared w) ok pc pc', at_point pc →
      pc.step sh ok = some (sh', .next pc') → at_point pc')
    (h : s.StopAt at_point) (within : s.withinCall k = true) (step : s.next k = some t) :
    t.StopAt at_point := by
  refine ⟨h.1.next within step, ?_⟩
  intro pc' calls'
  rcases h.1.cases within step with ⟨-, calls, -⟩ |
    ⟨i, ok, pc, shared, inner, rfl, calls, -, inside, rfl⟩
  · exact h.2 pc' (calls.symm.trans calls')
  · cases inner with
    | next pc'' =>
      obtain rfl : pc'' = pc' := by simpa using calls'
      exact keeps _ _ _ _ _ (h.2 pc calls) inside
    | ret result => cases calls'

/-- A stop() for which something has failed drains nothing. -/
theorem offTrack_undrained (h : s.StopAt fun pc => pc.onTrack = false)
    (run : exec (guarded withinCall next) s ks = some t) : total next drained s ks = 0 := by
  refine total_eq_zero_of (P := StopAt fun pc => pc.onTrack = false) ?_ h run
  intro s k t h within step
  refine ⟨h.next (fun _ _ _ _ _ off step => StopPc.step_offTrack (.inl off) step) within step, ?_⟩
  rcases h.1.cases within step with ⟨other, -, -⟩ | ⟨i, ok, pc, shared, inner, rfl, calls, found, -, -⟩
  · exact drained_of_other other
  · refine drained_of_stop found ?_
    rintro rfl
    cases h.2 _ calls

/-- A stop() that drains the tokens makes no call that can fail. -/
theorem draining_unfailed (h : s.StopAt fun pc => pc = .drainAvailable)
    (run : exec (guarded withinCall next) s ks = some t) : total next failed s ks = 0 := by
  refine total_eq_zero_of (P := StopAt fun pc => pc = .drainAvailable) ?_ h run
  intro s k t h within step
  refine ⟨h.next (fun _ _ _ _ _ drains step => StopPc.step_draining (drains ▸ step)) within step, ?_⟩
  rcases h.1.cases within step with ⟨other, -, -⟩ | ⟨i, ok, pc, shared, inner, rfl, calls, found, -, -⟩
  · exact failed_of_other other
  · obtain rfl := h.2 pc calls
    simp [failed, succeeding, found, CallPc.driverCall, CallPc.awaits]

/-- Of a stop() something fails or tokens are drained, but not both. -/
theorem failed_undrained (h : s.Within) (run : exec (guarded withinCall next) s ks = some t)
    (fails : 0 < total next failed s ks) : total next drained s ks = 0 := by
  induction ks generalizing s with
  | nil => rfl
  | cons k ks ih =>
    obtain ⟨u, step, rest⟩ := exec_cons_eq_some.mp run
    obtain ⟨within, step⟩ := guarded_eq_some.mp step
    have later := h.next within step
    rw [total_cons step] at fails ⊢
    rcases h.cases within step with ⟨other, -, -⟩ |
      ⟨i, ok, pc, shared, inner, rfl, calls, found, inside, rfl⟩
    · rw [failed_of_other other, Nat.zero_add] at fails
      rw [drained_of_other other, Nat.zero_add]
      exact ih later rest fails
    · have after {at_point : StopPc → Prop} (reached : ∀ pc', inner = .next pc' → at_point pc') :
          StopAt at_point ({ s with
            shared := shared
            calls := (inner.call .stop .ret : Control (CallPc w) Result).live
            tasks := s.tasks ++ (CallPc.stop (w := w) pc).created ok } : System w) := by
        refine ⟨later, ?_⟩
        intro pc' calls'
        cases inner with
        | next pc'' =>
          obtain rfl : pc'' = pc' := by simpa using calls'
          exact reached pc'' rfl
        | ret result => cases calls'
      by_cases well : s.succeeding (.call i ok) = true
      · have unfailed : s.failed (.call i ok) = 0 := if_pos well
        rw [unfailed, Nat.zero_add] at fails
        by_cases drains : pc = .drainAvailable
        · subst drains
          have unfailing := draining_unfailed
            (after fun pc' same => StopPc.step_draining (same ▸ inside)) rest
          omega
        · rw [drained_of_stop found drains, Nat.zero_add]
          exact ih later rest fails
      · have lost : ((CallPc.stop (w := w) pc).driverCall.isNone &&
            !(CallPc.stop (w := w) pc).awaits || ok) = false := by
          simpa [succeeding, found] using well
        have elsewhere : pc ≠ .drainAvailable := by
          rintro rfl
          cases lost
        rw [drained_of_stop found elsewhere, Nat.zero_add]
        exact offTrack_undrained
          (after fun pc' same => StopPc.step_offTrack (.inr lost) (same ▸ inside)) rest

/-- A stop() that finds the component stopped drains nothing. -/
theorem stopped_undrained (begins : s.StopAt fun pc => pc = .begin .load)
    (stopped : s.shared.lifecycle.state = .stopped)
    (run : exec (guarded withinCall next) s ks = some t) : total next drained s ks = 0 := by
  refine total_eq_zero_of (P := fun s => (s.StopAt fun pc => pc = .begin .load) ∧
    s.shared.lifecycle.state = .stopped) ?_ ⟨begins, stopped⟩ run
  rintro s k t ⟨h, stopped⟩ within step
  have later := h.1.next within step
  rcases h.1.cases within step with ⟨other, calls, interference⟩ |
    ⟨i, ok, pc, shared, inner, rfl, calls, found, inside, rfl⟩
  · exact ⟨⟨⟨later, fun pc calls' => h.2 pc (calls.symm.trans calls')⟩,
      interference.stopped_iff.mpr stopped⟩, drained_of_other other⟩
  · obtain rfl := h.2 pc calls
    have refused : (StopPc.begin .load).step s.shared ok = some (s.shared, .ret .notStarted) := by
      simp [StopPc.step, BeginStopPc.step, BeginStopPc.test, stopped]
    obtain ⟨rfl, rfl⟩ := Prod.mk.inj (Option.some.inj (inside.symm.trans refused))
    exact ⟨⟨⟨later, by rintro pc ⟨⟩⟩, stopped⟩, drained_of_stop found (by simp)⟩

theorem Within.stopReturned (h : s.Within) (returned : s.returned k = some result) :
    s.stopReturned k = some result := by
  cases k with
  | call i ok =>
    cases found : s.calls[i]? with
    | none => simp [System.returned, found] at returned
    | some pc =>
      have member := List.mem_of_getElem? found
      rcases h with none | ⟨pc', calls⟩
      · simp [none] at member
      · obtain rfl : pc = .stop pc' := by simpa [calls] using member
        simp only [System.returned, found, Option.bind_some, CallPc.step] at returned
        simp only [System.stopReturned, found]
        cases inside : pc'.step s.shared ok with
        | none => simp [inside] at returned
        | some after =>
          obtain ⟨shared, inner⟩ := after
          rw [inside] at returned
          cases inner with
          | next pc => cases returned
          | ret value => exact returned
  | _ => cases returned

/-- The receive() that is blocked when a stop() begins, after that stop(). -/
theorem leftBlocked_stopCall (outlined : s.Outlined) (blocked : s.Blocked timeoutMs)
    (call : StopCall (fun _ _ => true) s ks k result t) :
    let begun := { s with calls := [.stop (.begin .load)] }
    ¬ LeftBlocked (ks ++ [k]) t timeoutMs ↔
      (∃ granted, .consumer granted ∈ ks ++ [k]) ∨
        0 < total next given begun (ks ++ [k]) ∧
          (s.shared.lifecycle.state = .stopped ∨ 0 < total next failed begun (ks ++ [k])) := by
  intro begun
  obtain ⟨quiescent, u, run, -, returned, step⟩ := call
  have begins : begun.Within := .inr ⟨_, rfl⟩
  have run : exec (guarded withinCall next) begun ks = some u := by
    refine exec_guarded_mono ?_ run
    intro s k allowed
    exact (Bool.and_eq_true_iff.mp allowed).1
  have within : u.withinCall k = true := by
    cases k with
    | call i ok => rfl
    | _ => cases returned
  have run' : exec (guarded withinCall next) begun (ks ++ [k]) = some t :=
    exec_concat_eq_some.mpr ⟨u, run, guarded_eq_some.mpr ⟨within, step⟩⟩
  have blocked' : begun.Blocked timeoutMs := ⟨blocked.waits, blocked.bounded, blocked.empty⟩
  rw [leftBlocked_iff blocked' (exec_of_guarded run'), not_and_or, not_forall]
  simp only [not_not, not_le]
  by_cases through : s.shared.lifecycle.state ≠ .stopped ∧ total next failed begun (ks ++ [k]) = 0
  · obtain ⟨live, none⟩ := through
    -- nothing has failed, so that the stop() has drained the tokens
    have useless : ¬ (s.shared.lifecycle.state = .stopped ∨ 0 < total next failed begun (ks ++ [k])) := by
      rintro (stopped | fails)
      · exact live stopped
      · omega
    have ok : result = .ok := by
      obtain ⟨u', run'', last⟩ := exec_concat_eq_some.mp (exec_guarded_of_total run' none)
      obtain rfl : u' = u := Option.some.inj ((exec_of_guarded run'').symm.trans (exec_of_guarded run))
      have well := (Bool.and_eq_true_iff.mp (guarded_eq_some.mp last).1).2
      have call : StopCall succeeding s ks k result t := ⟨quiescent, u', run'', well, returned, step⟩
      rcases call.last outlined with ⟨-, stopped, -⟩ | ⟨worked, -, -⟩
      · exact absurd stopped live
      · exact call.succeeds.resolve_left worked
    subst ok
    have inside : u.Within := by
      refine exec_invariant (P := Within) ?_ run begins
      intro s k t h step
      obtain ⟨within, step⟩ := guarded_eq_some.mp step
      exact h.next within step
    have empty := stopReturned_ok (inside.stopReturned returned) step
    constructor
    · rintro (consumes | more)
      · exact .inl consumes
      · by_contra quiet
        simp only [not_or, not_exists] at quiet
        obtain ⟨waits, same⟩ := exec_waits blocked'.waits (exec_of_guarded run') quiet.1
        have left := (leftBlocked_iff blocked' (exec_of_guarded run')).mp
          ⟨⟨waits, blocked.bounded, empty⟩, same⟩
        omega
    · rintro (consumes | ⟨-, absurd⟩)
      · exact .inl consumes
      · exact (useless absurd).elim
  · have unfinished : s.shared.lifecycle.state = .stopped ∨
        0 < total next failed begun (ks ++ [k]) := by
      by_contra neither
      simp only [not_or, Nat.not_lt, Nat.le_zero] at neither
      exact through neither
    have undrained : total next drained begun (ks ++ [k]) = 0 := by
      rcases unfinished with stopped | fails
      · exact stopped_undrained ⟨begins, by simp [begun]⟩ stopped run'
      · exact failed_undrained begins run' fails
    rw [undrained]
    exact or_congr Iff.rfl ⟨fun gives => ⟨gives, unfinished⟩, And.left⟩

/-- When a receive() that is blocked as a stop() begins is released by the time it returns.
With serialized calls: exactly if its own wait has ended meanwhile, or if the task has given
a token and the stop() has found the component stopped, a driver call of it has failed or its
wait for the task has expired. With overlapping calls: at least if its own wait has ended or
the task gives a token after the last drain; and where a stop() returns Ok, exactly if its
own wait has ended. -/
theorem receive_released_iff :
    (∀ before (s : System w) ks k result t timeoutMs,
      exec (guarded serialized next) ({} : System w) before = some s → s.Blocked timeoutMs →
      StopCall (fun _ _ => true) s ks k result t →
      let begun := { s with calls := [.stop (.begin .load)] }
      (¬ LeftBlocked (ks ++ [k]) t timeoutMs ↔
        (∃ granted, .consumer granted ∈ ks ++ [k]) ∨
          0 < total next given begun (ks ++ [k]) ∧
            (s.shared.lifecycle.state = .stopped ∨ 0 < total next failed begun (ks ++ [k])))) ∧
      (∀ (s : System w) ks t timeoutMs, s.Blocked timeoutMs → exec next s ks = some t →
        ((∃ granted, .consumer granted ∈ ks) ∨
          (trace next tokenMoves s ks).getLast? = some .given) →
        ¬ LeftBlocked ks t timeoutMs) ∧
      ∀ (s : System w) ks u k t timeoutMs, s.Blocked timeoutMs →
        exec next s (.beginStop :: ks) = some u → u.stopReturned k = some .ok →
        u.next k = some t →
        (¬ LeftBlocked (.beginStop :: ks ++ [k]) t timeoutMs ↔
          ∃ granted, .consumer granted ∈ ks) := by
  refine ⟨?_, ?_, ?_⟩
  · intro before s ks k result t timeoutMs reached blocked call
    exact leftBlocked_stopCall (exec_outlined reached) blocked call
  · rintro s ks t timeoutMs blocked run released still
    have quiet := ((leftBlocked_iff blocked run).mp still).1
    rcases released with ⟨granted, mem⟩ | last
    · exact quiet granted mem
    · exact absurd still.1.empty (Nat.pos_iff_ne_zero.mp (last_given run quiet last))
  · intro s ks u k t timeoutMs blocked run returns last
    have whole := exec_trans run (exec_single last)
    have calls (granted : Bool) :
        .consumer granted ∈ .beginStop :: ks ++ [k] ↔ .consumer granted ∈ ks := by
      have notLast : Choice.consumer granted ≠ k := by
        rintro rfl
        cases returns
      simp [notLast]
    have empty := stopReturned_ok returns last
    constructor
    · intro released
      by_contra quiet
      have quiet (granted : Bool) : .consumer granted ∉ .beginStop :: ks ++ [k] :=
        fun mem => quiet ⟨granted, (calls granted).mp mem⟩
      obtain ⟨waits, same⟩ := exec_waits blocked.waits whole quiet
      exact released ⟨⟨waits, blocked.bounded, empty⟩, same⟩
    · rintro ⟨granted, mem⟩ still
      exact ((leftBlocked_iff blocked whole).mp still).1 granted ((calls granted).mpr mem)

/-- A receive() with a timeout waits on the started, idle component. -/
def waitingRun : List Choice := startRun ++ [.beginReceive 1000, .consumer true]

def waiting : System 32 := final (guarded serialized next) {} waitingRun

theorem waiting_blocked : waiting.Blocked 1000 := by
  refine ⟨?_, ?_, ?_⟩ <;> decide

/-- The timeout of the receive() expires while the stop() is under way. -/
def expiringRun : List Choice := .consumer false :: stopRun

/-- The task stores a frame; then `twai_stop` fails and the wait for the task expires. -/
def failingRun : List Choice :=
  List.replicate 13 (.task 0 { received := .message {} }) ++ List.replicate 4 (.call 0 true) ++
    [.call 0 false, .call 0 true, .call 0 false] ++ List.replicate 2 (.call 0 true)

/-- A stop() that returns Ok after the timeout of the receive(), and one that fails after the
task has given a token. -/
theorem receive_released_iff_both :
    ∃ t t' : System 32,
      StopCall (fun _ _ => true) waiting expiringRun (.call 0 true) .ok t ∧
      ¬ LeftBlocked (expiringRun ++ [.call 0 true]) t 1000 ∧
      StopCall (fun _ _ => true) waiting failingRun (.call 0 true) .taskFailure t' ∧
      ¬ LeftBlocked (failingRun ++ [.call 0 true]) t' 1000 := by
  have reached : exec (guarded serialized next) ({} : System 32) waitingRun = some waiting :=
    exec_eq_final _ _ _ (by decide)
  have quiescent : waiting.calls = [] := List.isEmpty_iff.mp (by decide)
  have expiring : StopCall (fun _ _ => true) waiting expiringRun (.call 0 true) .ok _ :=
    ⟨quiescent, _, exec_eq_final _ _ _ (by decide), rfl, by decide, next_eq_final _ _ _ (by decide)⟩
  have failing : StopCall (fun _ _ => true) waiting failingRun (.call 0 true) .taskFailure _ :=
    ⟨quiescent, _, exec_eq_final _ _ _ (by decide), rfl, by decide, next_eq_final _ _ _ (by decide)⟩
  have released := receive_released_iff.1 _ _ _ _ _ _ _ reached waiting_blocked expiring
  have released' := receive_released_iff.1 _ _ _ _ _ _ _ reached waiting_blocked failing
  exact ⟨_, _, expiring, released.mpr (.inl ⟨false, by simp [expiringRun]⟩),
    failing, released'.mpr (.inr ⟨by decide, .inr (by decide)⟩)⟩

/-- A stop() that succeeds leaves the receive() waiting, without a token. -/
theorem stop_leaves_receive_blocked :
    ∃ s u t : System 32, exec (guarded serialized next) {} waitingRun = some s ∧ s.Blocked 1000 ∧
      exec (guarded serialized next) s (.beginStop :: stopRun) = some u ∧
      u.stopReturned (.call 0 true) = some .ok ∧ u.next (.call 0 true) = some t ∧
      LeftBlocked (.beginStop :: stopRun ++ [.call 0 true]) t 1000 := by
  have last := next_eq_final next (final (guarded serialized next) waiting (.beginStop :: stopRun))
    (.call 0 true) (by decide)
  refine ⟨waiting, _, _, exec_eq_final _ _ _ (by decide), waiting_blocked,
    exec_eq_final _ _ _ (by decide), by decide, last, ⟨?_, ?_, ?_⟩, ?_⟩
  · decide
  · decide
  · decide
  · simp [stopRun]

end System

end CanTelemetry.CanBus
