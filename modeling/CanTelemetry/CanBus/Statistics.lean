import CanTelemetry.CanBus.Depth
import CanTelemetry.Foundation.Totals
import Mathlib.Tactic.LinearCombination

/-! The books of the ring. Pushes and pops count what they do at different points, resets
take the counters one by one at any of these points, and `clear` throws away both frames
and counters. What a counter has counted is what the resets took and what it still shows;
the cumulative totals agree whenever nothing is in progress. -/

namespace CanTelemetry.CanBus

open Execution RingIndex Threads

variable {w capacity : ℕ} {F : Type*}

/-! ### What a step counts -/

def PushPc.counted : PushPc w F → Option Counter
  | .countReceived _ => some .framesReceived
  | .countDropped => some .framesDropped
  | .countOverflow => some .queueOverflows
  | .countQueued => some .framesQueued
  | _ => none

def PopPc.counted : PopPc w F → Option Counter
  | .countDelivered _ => some .framesDelivered
  | _ => none

def Recorded.counter : Recorded → Counter
  | .busError => .busErrors
  | .driverRxMissed => .driverRxMissed
  | .controllerReset => .controllerResets
  | .busOff => .busOffEvents

/-- One event, if it is counted under this name. -/
def Counter.once (counter : Counter) (counted : Option Counter) : ℕ :=
  if counted = some counter then 1 else 0

/-! ### What a reset takes -/

namespace SnapshotPc

/-- The value that the step of a reset takes from a counter. -/
def takes (ring : FrameRing w capacity F) (counter : Counter) : SnapshotPc w → BitVec 64
  | .counters (first :: _) _ => if first = counter then ring.counters counter else 0
  | _ => 0

/-- The value that a reset has taken so far. -/
def holds (counter : Counter) : SnapshotPc w → BitVec 64
  | .depth _ => 0
  | .counters _ result | .depthAfterReset _ result | .ensureWatermark _ result =>
    result.counters counter

/-- The value that a reset returns with this step. -/
def reports (ring : FrameRing w capacity F) (cas : Bool) (counter : Counter) (pc : SnapshotPc w) :
    BitVec 64 :=
  ((pc.step .snapshotAndReset ring cas).2.value?.map (·.counters counter)).getD 0

/-- The counters still to be read are at zero in the result. -/
def Unread : SnapshotPc w → Prop
  | .counters remaining result =>
    remaining.Nodup ∧ ∀ counter ∈ remaining, result.counters counter = 0
  | _ => True

end SnapshotPc

namespace ClearPc

def takes (ring : FrameRing w capacity F) (counter : Counter) : ClearPc w → BitVec 64
  | .snapshot pc => pc.takes ring counter
  | _ => 0

def holds (counter : Counter) : ClearPc w → BitVec 64
  | .snapshot pc => pc.holds counter
  | _ => 0

def reports (ring : FrameRing w capacity F) (cas : Bool) (counter : Counter) : ClearPc w → BitVec 64
  | .snapshot pc => pc.reports ring cas counter
  | _ => 0

/-- The frames that the step of a clear discards. -/
def discards (ring : FrameRing w capacity F) : ClearPc w → ℕ
  | .storeTail head => distance head ring.tail
  | _ => 0

/-- Nobody publishes a frame while the ring is cleared. -/
def Knows (ring : FrameRing w capacity F) : ClearPc w → Prop
  | .storeTail head => head = ring.head
  | .snapshot pc => pc.Unread
  | _ => True

end ClearPc

/-! ### One step of each procedure -/

theorem FrameRing.count_counters (ring : FrameRing w capacity F) (what counter : Counter)
    (n : BitVec 64) :
    (ring.count what n).counters counter =
      ring.counters counter + if what = counter then n else 0 := by
  by_cases same : what = counter
  · subst same
    simp [count]
  · simp [count, same, Function.update_of_ne (Ne.symm same)]

theorem FrameRing.count_once (ring : FrameRing w capacity F) (what counter : Counter) :
    (ring.count what).counters counter =
      ring.counters counter + ((counter.once (some what) : ℕ) : BitVec 64) := by
  rw [count_counters, Counter.once]
  by_cases same : what = counter <;> simp [same]

theorem FrameRing.record_counters (ring : FrameRing w capacity F) (n : BitVec 64) (what : Recorded)
    (counter : Counter) :
    (ring.record n what).counters counter =
      ring.counters counter + ((if what.counter = counter then n.toNat else 0 : ℕ) : BitVec 64) := by
  have split : (ring.record n what).counters counter =
      ring.counters counter + if what.counter = counter then n else 0 := by
    cases what <;> exact ring.count_counters _ counter n
  rw [split]
  by_cases same : what.counter = counter <;> simp [same]

@[simp] theorem Counter.once_none (counter : Counter) : counter.once none = 0 := rfl

theorem WatermarkPc.step_counters (ring : FrameRing w capacity F) (cas : Bool) (pc : WatermarkPc) :
    (pc.step ring cas).1.counters = ring.counters := by
  cases pc with
  | load depth => rfl
  | exchange depth watermark =>
    by_cases won : cas = true ∧ ring.queueHighWatermark = watermark
    · simp only [step, if_pos won]
    · simp only [step, if_neg won]

theorem PushPc.step_counters [NeZero capacity] (ring : FrameRing w capacity F) (cas : Bool)
    (pc : PushPc w F) (counter : Counter) :
    (pc.step ring cas).1.counters counter =
      ring.counters counter + ((counter.once pc.counted : ℕ) : BitVec 64) := by
  cases pc with
  | countReceived frame => exact ring.count_once _ _
  | countDropped => exact ring.count_once _ _
  | countOverflow => exact ring.count_once _ _
  | countQueued => exact ring.count_once _ _
  | updateWatermark pc => simp [step, counted, pc.step_counters]
  | _ => simp [step, counted]

theorem PopPc.step_counters [NeZero capacity] (ring : FrameRing w capacity F) (pc : PopPc w F)
    (counter : Counter) :
    (pc.step ring).1.counters counter =
      ring.counters counter + ((counter.once pc.counted : ℕ) : BitVec 64) := by
  cases pc with
  | countDelivered frame => exact ring.count_once _ _
  | _ => simp [step, counted]

namespace SnapshotPc

theorem step_counters_snapshot (ring : FrameRing w capacity F) (cas : Bool) (pc : SnapshotPc w) :
    (pc.step .snapshot ring cas).1.counters = ring.counters := by
  cases pc with
  | counters remaining result => cases remaining <;> rfl
  | ensureWatermark pc result => exact pc.step_counters ring cas
  | _ => rfl

theorem step_counters (ring : FrameRing w capacity F) (cas : Bool) (pc : SnapshotPc w)
    (counter : Counter) :
    ring.counters counter =
      pc.takes ring counter + (pc.step .snapshotAndReset ring cas).1.counters counter := by
  cases pc with
  | counters remaining result =>
    cases remaining with
    | nil => simp [step, takes]
    | cons first remaining =>
      by_cases same : first = counter
      · simp [step, takes, same]
      · simp [step, takes, same, Function.update_of_ne (Ne.symm same)]
  | ensureWatermark pc result => simp [step, takes, pc.step_counters]
  | _ => simp [step, takes]

/-- What a reset has taken stays with it until it returns it. -/
theorem step_reports (ring : FrameRing w capacity F) {pc : SnapshotPc w} (h : pc.Unread)
    (cas : Bool) (counter : Counter) :
    pc.holds counter + pc.takes ring counter =
      pc.reports ring cas counter +
        ((pc.step .snapshotAndReset ring cas).2.live.map (holds counter)).sum := by
  cases pc with
  | depth pc => cases sample : pc.step ring <;> simp [step, holds, takes, reports, sample]
  | counters remaining result =>
    cases remaining with
    | nil => simp [step, holds, takes, reports]
    | cons first remaining =>
      by_cases same : first = counter
      · subst same
        simp [step, holds, takes, reports, h.2 first List.mem_cons_self]
      · simp [step, holds, takes, reports, same, Function.update_of_ne (Ne.symm same)]
  | depthAfterReset pc result =>
    cases sample : pc.step ring <;> simp [step, holds, takes, reports, sample]
  | ensureWatermark pc result =>
    cases control : (pc.step ring cas).2 <;> simp [step, holds, takes, reports, control]

theorem all_nodup : Counter.all.Nodup := by decide

theorem step_unread (ring : FrameRing w capacity F) {pc : SnapshotPc w} (h : pc.Unread)
    (operation : StatisticsOperation) (cas : Bool) :
    ∀ pc' ∈ (pc.step operation ring cas).2.live, pc'.Unread := by
  cases pc with
  | depth pc =>
    cases sample : pc.step ring with
    | next pc' => simp [step, sample, Unread]
    | ret depth => simp [step, sample, Unread, all_nodup]
  | counters remaining result =>
    cases remaining with
    | nil => cases operation <;> simp [step, Unread]
    | cons first remaining =>
      obtain ⟨distinct, zero⟩ := h
      obtain ⟨fresh, distinct⟩ := List.nodup_cons.mp distinct
      have still : ∀ counter ∈ remaining,
          Function.update result.counters first (ring.counters first) counter = 0 := by
        intro counter mem
        have other : counter ≠ first := by
          rintro rfl
          exact fresh mem
        rw [Function.update_of_ne other]
        exact zero counter (List.mem_cons_of_mem _ mem)
      cases operation <;> simpa [step, Unread, distinct] using still
  | depthAfterReset pc result => cases sample : pc.step ring <;> simp [step, sample, Unread]
  | ensureWatermark pc result => cases control : (pc.step ring cas).2 <;> simp [step, control, Unread]

end SnapshotPc

namespace ClearPc

theorem step_counters (ring : FrameRing w capacity F) (cas : Bool) (pc : ClearPc w)
    (counter : Counter) :
    ring.counters counter =
      pc.takes ring counter + (pc.step ring cas).1.counters counter := by
  cases pc with
  | snapshot pc => exact pc.step_counters ring cas counter
  | _ => simp [step, takes]

theorem step_reports {ring : FrameRing w capacity F} {pc : ClearPc w} (h : pc.Knows ring)
    (cas : Bool) (counter : Counter) :
    pc.holds counter + pc.takes ring counter =
      pc.reports ring cas counter + ((pc.step ring cas).2.live.map (holds counter)).sum := by
  cases pc with
  | snapshot pc =>
    have snapshot := SnapshotPc.step_reports ring h cas counter
    simp only [step]
    cases control : (pc.step .snapshotAndReset ring cas).2 with
    | next pc' => simpa [holds, takes, reports, control] using snapshot
    | ret result => simpa [holds, takes, reports, control] using snapshot
  | _ => simp [step, holds, takes, reports, SnapshotPc.holds]

theorem step_knows {ring : FrameRing w capacity F} {pc : ClearPc w} (h : pc.Knows ring)
    (cas : Bool) : ∀ pc' ∈ (pc.step ring cas).2.live, pc'.Knows (pc.step ring cas).1 := by
  cases pc with
  | loadHead => simp [step, Knows]
  | storeTail head => simp [step, Knows, SnapshotPc.Unread]
  | snapshot pc =>
    have snapshot := SnapshotPc.step_unread ring h .snapshotAndReset cas
    simp only [step]
    cases control : (pc.step .snapshotAndReset ring cas).2 with
    | next pc' =>
      rw [control] at snapshot
      simpa [Knows] using snapshot
    | ret result => simp [Knows]
  | resetWatermark => simp [step]

/-- Only the frames that are discarded leave the ring, and the head does not move. -/
theorem step_depth {ring : FrameRing w capacity F} {pc : ClearPc w} (h : pc.Knows ring)
    (cas : Bool) :
    (pc.step ring cas).1.head = ring.head ∧
      ring.depth = pc.discards ring + (pc.step ring cas).1.depth := by
  cases pc with
  | storeTail head =>
    obtain rfl : head = ring.head := h
    exact ⟨rfl, by simp [step, discards, FrameRing.depth]⟩
  | snapshot pc =>
    have same := pc.step_same .snapshotAndReset ring cas
    exact ⟨same.head, by simpa [step, discards] using same.depth.symm⟩
  | loadHead => exact ⟨rfl, by simp [step, discards]⟩
  | resetWatermark => exact ⟨rfl, by simp [step, discards, FrameRing.depth]⟩

theorem Knows.of_head {ring ring' : FrameRing w capacity F} {pc : ClearPc w} (h : pc.Knows ring)
    (head : ring'.head = ring.head) : pc.Knows ring' := by
  cases pc with
  | storeTail read => exact Eq.trans h head.symm
  | _ => exact h

end ClearPc

/-! ### Pushes and pops that are half done -/

/-- The push has been counted as received, and neither as queued nor as dropped. -/
def PushPc.undecidedCount : PushPc w F → ℕ
  | .countReceived _ | .countOverflow => 0
  | _ => 1

/-- The push has been counted as dropped, and not as an overflow. -/
def PushPc.overflowing : PushPc w F → ℕ
  | .countOverflow => 1
  | _ => 0

/-- The push has published its frame, and has not been counted as queued. -/
def PushPc.publishing : PushPc w F → ℕ
  | .updateWatermark _ | .countQueued => 1
  | _ => 0

/-- The pop has taken its frame, and has not been counted as delivered. -/
def PopPc.delivering : PopPc w F → ℕ
  | .countDelivered _ => 1
  | _ => 0

/-- What an operation that may be in progress holds. -/
def inProgress {π : Type*} (held : π → ℕ) (pc : Option π) : ℕ := (pc.map held).getD 0

@[simp] theorem inProgress_none {π : Type*} (held : π → ℕ) : inProgress held none = 0 := rfl

@[simp] theorem inProgress_some {π : Type*} (held : π → ℕ) (pc : π) :
    inProgress held (some pc) = held pc := rfl

/-- The books of a push, for one step of it. -/
structure PushPc.Books (pc : PushPc w F) (after : Option (PushPc w F)) : Prop where
  received : pc.undecidedCount + Counter.framesReceived.once pc.counted =
    (Counter.framesQueued.once pc.counted + Counter.framesDropped.once pc.counted) +
      inProgress undecidedCount after
  dropped : pc.overflowing + Counter.framesDropped.once pc.counted =
    Counter.queueOverflows.once pc.counted + inProgress overflowing after
  published : pc.publishing + pc.adds =
    Counter.framesQueued.once pc.counted + inProgress publishing after

theorem PushPc.step_books [NeZero capacity] (ring : FrameRing w capacity F) (cas : Bool)
    (pc : PushPc w F) : pc.Books (pc.step ring cas).2.pc? := by
  cases pc with
  | loadTail frame head =>
    by_cases full : distance head ring.tail ≥ capacity
    · simp only [step, if_pos full]
      exact ⟨rfl, rfl, rfl⟩
    · simp only [step, if_neg full]
      exact ⟨rfl, rfl, rfl⟩
  | updateWatermark pc =>
    simp only [step]
    cases (pc.step ring cas).2 with
    | next pc' => exact ⟨rfl, rfl, rfl⟩
    | ret u => exact ⟨rfl, rfl, rfl⟩
  | _ => exact ⟨rfl, rfl, rfl⟩

theorem PopPc.step_books [NeZero capacity] (ring : FrameRing w capacity F) (pc : PopPc w F) :
    pc.delivering + pc.takes =
      Counter.framesDelivered.once pc.counted + inProgress delivering (pc.step ring).2.pc? := by
  cases pc with
  | loadHead tail =>
    by_cases empty : tail = ring.head
    · simp only [step, if_pos empty]
      rfl
    · simp only [step, if_neg empty]
      rfl
  | _ => rfl

/-! ### The ring with `clear` -/

/-- A ring in use that may also be cleared. -/
structure Clearing (w capacity : ℕ) (F : Type*) extends Spsc w capacity F where
  clears : List (ClearPc w) := []

namespace Clearing

def idle (ring : FrameRing w capacity F) : Clearing w capacity F := { ring := ring }

inductive Choice (F : Type*)
  | ring (k : Spsc.Choice F)
  | clear
  | clearing (i : ℕ) (cas : Bool)

/-- Pushes and pops are not called while the ring is cleared, nor the other way round. -/
def admits (s : Clearing w capacity F) : Choice F → Bool
  | .ring (.push _) | .ring .pop => s.clears.isEmpty
  | .clear => s.producer.isNone && s.consumer.isNone
  | _ => true

variable [NeZero capacity]

def move (s : Clearing w capacity F) : Choice F → Option (Clearing w capacity F)
  | .ring k => (s.toSpsc.next k).map fun spsc => { s with toSpsc := spsc }
  | .clear => some { s with clears := s.clears ++ [.loadHead] }
  | .clearing i cas => s.clears[i]?.map fun pc =>
    { s with
      ring := (pc.step s.ring cas).1
      clears := resume s.clears i (pc.step s.ring cas).2 }

def next : Clearing w capacity F → Choice F → Option (Clearing w capacity F) := guarded admits move

/-! ### What a run adds up to -/

/-- How often a step counts an event. -/
def counted (counter : Counter) (s : Clearing w capacity F) : Choice F → ℕ
  | .ring (.producer _) => counter.once (s.producer.bind PushPc.counted)
  | .ring .consumer => counter.once (s.consumer.bind PopPc.counted)
  | .ring (.record what n) => if what.counter = counter then n.toNat else 0
  | _ => 0

/-- What the resets take from a counter. -/
def taken (counter : Counter) (s : Clearing w capacity F) : Choice F → BitVec 64
  | .ring (.observer i _) => match s.observers[i]? with
    | some (.snapshotAndReset, pc) => pc.takes s.ring counter
    | _ => 0
  | .clearing i _ => (s.clears[i]?.map (·.takes s.ring counter)).getD 0
  | _ => 0

/-- What the resets return for a counter. -/
def reported (counter : Counter) (s : Clearing w capacity F) : Choice F → BitVec 64
  | .ring (.observer i cas) => match s.observers[i]? with
    | some (.snapshotAndReset, pc) => pc.reports s.ring cas counter
    | _ => 0
  | .clearing i cas => (s.clears[i]?.map (·.reports s.ring cas counter)).getD 0
  | _ => 0

/-- The frames that a step discards. -/
def discarded (s : Clearing w capacity F) : Choice F → ℕ
  | .clearing i _ => (s.clears[i]?.map (·.discards s.ring)).getD 0
  | _ => 0

/-- Nothing is in progress. -/
structure Quiescent (s : Clearing w capacity F) : Prop where
  producer : s.producer = none
  consumer : s.consumer = none
  observers : s.observers = []
  clears : s.clears = []

/-! ### What every run keeps -/

variable {s t : Clearing w capacity F} {k : Choice F} {ks : List (Choice F)}

structure Kept (s : Clearing w capacity F) : Prop where
  level : s.Levelled
  alone : s.clears ≠ [] → s.producer = none ∧ s.consumer = none
  clears : ∀ pc ∈ s.clears, pc.Knows s.ring
  observers : ∀ o ∈ s.observers, o.2.Unread

omit [NeZero capacity] in
theorem idle_kept {ring : FrameRing w capacity F} (empty : ring.head = ring.tail) :
    (idle ring).Kept :=
  ⟨Spsc.idle_levelled empty, by simp [idle], by simp [idle], by simp [idle]⟩

/-- While the ring is cleared, its pushes and pops rest, and the head stays. -/
theorem ring_alone {spsc : Spsc w capacity F} {k : Spsc.Choice F}
    (h : s.clears ≠ [] → s.producer = none ∧ s.consumer = none)
    (admitted : s.admits (.ring k) = true) (step : s.toSpsc.next k = some spsc)
    (clearing : s.clears ≠ []) :
    spsc.producer = none ∧ spsc.consumer = none ∧ spsc.ring.head = s.ring.head := by
  obtain ⟨noPush, noPop⟩ := h clearing
  cases k with
  | push frame => exact absurd (List.isEmpty_iff.mp admitted) clearing
  | producer cas =>
    obtain ⟨pc, hpc, -⟩ := Option.map_eq_some_iff.mp step
    rw [noPush] at hpc
    cases hpc
  | pop => exact absurd (List.isEmpty_iff.mp admitted) clearing
  | consumer =>
    obtain ⟨pc, hpc, -⟩ := Option.map_eq_some_iff.mp step
    rw [noPop] at hpc
    cases hpc
  | snapshot operation =>
    obtain rfl := Option.some.inj step
    exact ⟨noPush, noPop, rfl⟩
  | observer i cas =>
    obtain ⟨⟨operation, pc⟩, -, rfl⟩ := Option.map_eq_some_iff.mp step
    exact ⟨noPush, noPop, (pc.step_same operation s.ring cas).head⟩
  | record what n =>
    obtain rfl := Option.some.inj step
    exact ⟨noPush, noPop, (s.ring.record_same n what).head⟩

theorem ring_observers {spsc : Spsc w capacity F} {k : Spsc.Choice F}
    (h : ∀ o ∈ s.observers, o.2.Unread) (step : s.toSpsc.next k = some spsc) :
    ∀ o ∈ spsc.observers, o.2.Unread := by
  cases k with
  | push frame =>
    obtain ⟨-, step⟩ := Option.ite_none_right_eq_some.mp step
    obtain rfl := Option.some.inj step
    exact h
  | producer cas =>
    obtain ⟨pc, -, rfl⟩ := Option.map_eq_some_iff.mp step
    exact h
  | pop =>
    obtain ⟨-, step⟩ := Option.ite_none_right_eq_some.mp step
    obtain rfl := Option.some.inj step
    exact h
  | consumer =>
    obtain ⟨pc, -, rfl⟩ := Option.map_eq_some_iff.mp step
    exact h
  | snapshot operation =>
    obtain rfl := Option.some.inj step
    intro o mem
    rcases List.mem_append.mp mem with old | new
    · exact h o old
    · obtain rfl := List.mem_singleton.mp new
      trivial
  | observer i cas =>
    obtain ⟨⟨operation, pc⟩, found, rfl⟩ := Option.map_eq_some_iff.mp step
    intro o mem
    rcases mem_of_mem_resume found mem with old | own
    · exact h o old
    · have unread := SnapshotPc.step_unread s.ring (h _ (List.mem_of_getElem? found)) operation cas
      cases control : (pc.step operation s.ring cas).2 with
      | next pc' =>
        rw [control, Control.call_next, Control.live_next, List.mem_singleton] at own
        obtain rfl := own
        exact unread pc' (by rw [control]; exact List.mem_singleton_self _)
      | ret result => simp [control] at own
  | record what n =>
    obtain rfl := Option.some.inj step
    exact h

theorem next_kept (small : capacity < 2 ^ w) (h : s.Kept) (step : next s k = some t) : t.Kept := by
  obtain ⟨admitted, step⟩ := guarded_eq_some.mp step
  cases k with
  | ring k =>
    obtain ⟨spsc, moved, rfl⟩ := Option.map_eq_some_iff.mp step
    have alone := ring_alone h.alone admitted moved
    refine ⟨(Spsc.next_levelled small h.level moved).1, ?_, ?_, ring_observers h.observers moved⟩
    · intro clearing
      exact ⟨(alone clearing).1, (alone clearing).2.1⟩
    · intro pc mem
      exact (h.clears pc mem).of_head (alone (List.ne_nil_of_mem mem)).2.2
  | clear =>
    obtain rfl := Option.some.inj step
    obtain ⟨noPush, noPop⟩ := Bool.and_eq_true_iff.mp admitted
    refine ⟨h.level, ?_, ?_, h.observers⟩
    · intro _
      exact ⟨Option.isNone_iff_eq_none.mp noPush, Option.isNone_iff_eq_none.mp noPop⟩
    · intro pc mem
      rcases List.mem_append.mp mem with old | new
      · exact h.clears pc old
      · obtain rfl := List.mem_singleton.mp new
        trivial
  | clearing i cas =>
    obtain ⟨pc, found, rfl⟩ := Option.map_eq_some_iff.mp step
    have mem := List.mem_of_getElem? found
    obtain ⟨noPush, noPop⟩ := h.alone (List.ne_nil_of_mem mem)
    obtain ⟨head, shallower⟩ := ClearPc.step_depth (h.clears pc mem) cas
    refine ⟨⟨?_, ?_, ?_⟩, fun _ => ⟨noPush, noPop⟩, ?_, h.observers⟩
    · have within := h.level.within
      show (pc.step s.ring cas).1.depth ≤ capacity
      omega
    · show PushPc.Fits _ s.producer
      rw [noPush]
      trivial
    · show PopPc.Fits _ s.consumer
      rw [noPop]
      trivial
    · intro pc' mem'
      rcases mem_of_mem_resume found mem' with old | own
      · exact (h.clears pc' old).of_head head
      · exact ClearPc.step_knows (h.clears pc mem) cas pc' own

/-! ### Each counter -/

/-- The step of a reset moves a value out of the counter, every other step only counts. -/
theorem next_counter (counter : Counter) (step : next s k = some t) :
    s.ring.counters counter + ((counted counter s k : ℕ) : BitVec 64) =
      taken counter s k + t.ring.counters counter := by
  obtain ⟨-, step⟩ := guarded_eq_some.mp step
  cases k with
  | ring k =>
    obtain ⟨spsc, moved, rfl⟩ := Option.map_eq_some_iff.mp step
    cases k with
    | push frame =>
      obtain ⟨-, moved⟩ := Option.ite_none_right_eq_some.mp moved
      obtain rfl := Option.some.inj moved
      simp [counted, taken]
    | producer cas =>
      obtain ⟨pc, hpc, rfl⟩ := Option.map_eq_some_iff.mp moved
      have counts := pc.step_counters s.ring cas counter
      simpa [counted, taken, hpc] using counts.symm
    | pop =>
      obtain ⟨-, moved⟩ := Option.ite_none_right_eq_some.mp moved
      obtain rfl := Option.some.inj moved
      simp [counted, taken]
    | consumer =>
      obtain ⟨pc, hpc, rfl⟩ := Option.map_eq_some_iff.mp moved
      have counts := pc.step_counters s.ring counter
      simpa [counted, taken, hpc] using counts.symm
    | snapshot operation =>
      obtain rfl := Option.some.inj moved
      simp [counted, taken]
    | observer i cas =>
      obtain ⟨⟨operation, pc⟩, found, rfl⟩ := Option.map_eq_some_iff.mp moved
      cases operation with
      | snapshot => simp [counted, taken, found, pc.step_counters_snapshot]
      | snapshotAndReset =>
        have takes := pc.step_counters s.ring cas counter
        simpa [counted, taken, found] using takes
    | record what n =>
      obtain rfl := Option.some.inj moved
      have counts := s.ring.record_counters n what counter
      simpa [counted, taken] using counts.symm
  | clear =>
    obtain rfl := Option.some.inj step
    simp [counted, taken]
  | clearing i cas =>
    obtain ⟨pc, found, rfl⟩ := Option.map_eq_some_iff.mp step
    have takes := pc.step_counters s.ring cas counter
    simpa [counted, taken, found] using takes

/-- The value that an observer has taken and not returned yet. -/
def heldBy (counter : Counter) : StatisticsOperation × SnapshotPc w → BitVec 64
  | (.snapshotAndReset, pc) => pc.holds counter
  | (.snapshot, _) => 0

omit [NeZero capacity] in
/-- What an observer takes stays with it until it returns it. -/
theorem sum_heldBy (ring : FrameRing w capacity F) (counter : Counter)
    {pool : List (StatisticsOperation × SnapshotPc w)} {i : ℕ} {operation : StatisticsOperation}
    {pc : SnapshotPc w} (found : pool[i]? = some (operation, pc)) (unread : pc.Unread)
    (cas : Bool) :
    (pool.map (heldBy counter)).sum +
        (match operation with
          | .snapshotAndReset => pc.takes ring counter
          | .snapshot => 0) =
      (match operation with
        | .snapshotAndReset => pc.reports ring cas counter
        | .snapshot => 0) +
        ((resume pool i ((pc.step operation ring cas).2.call (operation, ·)
          (.ret : Statistics → Control _ Statistics))).map (heldBy counter)).sum := by
  have moves := sum_resume (heldBy counter) found
    ((pc.step operation ring cas).2.call (operation, ·) (.ret : Statistics → Control _ Statistics))
  cases operation with
  | snapshot =>
    have nothing : (((pc.step .snapshot ring cas).2.call (StatisticsOperation.snapshot, ·)
        .ret : Control _ Statistics).live.map (heldBy counter)).sum = 0 := by
      cases (pc.step .snapshot ring cas).2 <;> simp [heldBy]
    have still : heldBy counter (StatisticsOperation.snapshot, pc) = 0 := rfl
    linear_combination moves - nothing + still
  | snapshotAndReset =>
    have reports := SnapshotPc.step_reports ring unread cas counter
    have live : (((pc.step .snapshotAndReset ring cas).2.call
        (StatisticsOperation.snapshotAndReset, ·) .ret : Control _ Statistics).live.map
          (heldBy counter)).sum =
        ((pc.step .snapshotAndReset ring cas).2.live.map (·.holds counter)).sum := by
      cases (pc.step .snapshotAndReset ring cas).2 <;> simp [heldBy]
    have own : heldBy counter (StatisticsOperation.snapshotAndReset, pc) = pc.holds counter := rfl
    linear_combination moves + reports - live + own

/-- The value that the resets in progress have taken and not returned yet. -/
def held (counter : Counter) (s : Clearing w capacity F) : BitVec 64 :=
  (s.observers.map (heldBy counter)).sum + (s.clears.map (·.holds counter)).sum

theorem next_reported (counter : Counter) (h : s.Kept) (step : next s k = some t) :
    held counter s + taken counter s k = reported counter s k + held counter t := by
  obtain ⟨-, step⟩ := guarded_eq_some.mp step
  have idle {spsc : Spsc w capacity F} (observers : spsc.observers = s.observers) :
      held counter s + 0 = 0 + held counter { s with toSpsc := spsc } := by
    rw [add_zero, zero_add, held, held, observers]
  cases k with
  | ring k =>
    obtain ⟨spsc, moved, rfl⟩ := Option.map_eq_some_iff.mp step
    cases k with
    | push frame =>
      obtain ⟨-, moved⟩ := Option.ite_none_right_eq_some.mp moved
      obtain rfl := Option.some.inj moved
      exact idle rfl
    | producer cas =>
      obtain ⟨pc, -, rfl⟩ := Option.map_eq_some_iff.mp moved
      exact idle rfl
    | pop =>
      obtain ⟨-, moved⟩ := Option.ite_none_right_eq_some.mp moved
      obtain rfl := Option.some.inj moved
      exact idle rfl
    | consumer =>
      obtain ⟨pc, -, rfl⟩ := Option.map_eq_some_iff.mp moved
      exact idle rfl
    | snapshot operation =>
      obtain rfl := Option.some.inj moved
      cases operation <;> simp [held, taken, reported, heldBy, SnapshotPc.holds]
    | observer i cas =>
      obtain ⟨⟨operation, pc⟩, found, rfl⟩ := Option.map_eq_some_iff.mp moved
      have unread := h.observers _ (List.mem_of_getElem? found)
      have moves := sum_heldBy s.ring counter found unread cas
      simp only [held, taken, reported, found]
      cases operation <;> linear_combination moves
    | record what n =>
      obtain rfl := Option.some.inj moved
      exact idle rfl
  | clear =>
    obtain rfl := Option.some.inj step
    simp [held, taken, reported, ClearPc.holds]
  | clearing i cas =>
    obtain ⟨pc, found, rfl⟩ := Option.map_eq_some_iff.mp step
    have reports := ClearPc.step_reports (h.clears pc (List.mem_of_getElem? found)) cas counter
    have moves := sum_resume (ClearPc.holds counter) found (pc.step s.ring cas).2
    simp only [held, taken, reported, found, Option.map_some, Option.getD_some]
    linear_combination moves + reports

/-! ### The cumulative totals -/

/-- The frames that a step adds to the queue. -/
def adds (s : Clearing w capacity F) : Choice F → ℕ
  | .ring k => s.toSpsc.adds k
  | _ => 0

/-- The frames that a step takes out of the queue for a pop. -/
def takes (s : Clearing w capacity F) : Choice F → ℕ
  | .ring k => s.toSpsc.takes k
  | _ => 0

/-- The books for one step of the system. -/
structure Books (s : Clearing w capacity F) (k : Choice F) (t : Clearing w capacity F) : Prop where
  received : inProgress PushPc.undecidedCount s.producer + counted .framesReceived s k =
    (counted .framesQueued s k + counted .framesDropped s k) +
      inProgress PushPc.undecidedCount t.producer
  dropped : inProgress PushPc.overflowing s.producer + counted .framesDropped s k =
    counted .queueOverflows s k + inProgress PushPc.overflowing t.producer
  published : inProgress PushPc.publishing s.producer + adds s k =
    counted .framesQueued s k + inProgress PushPc.publishing t.producer
  delivered : inProgress PopPc.delivering s.consumer + takes s k =
    counted .framesDelivered s k + inProgress PopPc.delivering t.consumer
  depth : s.ring.depth + adds s k = (takes s k + discarded s k) + t.ring.depth

omit [NeZero capacity] in
/-- A step that counts no event of the queue and moves no frame. -/
theorem Books.of_idle (producer : t.producer = s.producer) (consumer : t.consumer = s.consumer)
    (counts : ∀ counter ∈ [Counter.framesReceived, .framesQueued, .framesDelivered, .framesDropped,
      .queueOverflows], counted counter s k = 0)
    (still : adds s k = 0 ∧ takes s k = 0) (depth : s.ring.depth = discarded s k + t.ring.depth) :
    Books s k t := by
  simp only [List.forall_mem_cons] at counts
  obtain ⟨received, queued, delivered, dropped, overflows, -⟩ := counts
  obtain ⟨adds, takes⟩ := still
  constructor <;> simp only [producer, consumer, received, queued, delivered, dropped, overflows,
    adds, takes, depth] <;> omega

theorem next_books (small : capacity < 2 ^ w) (h : s.Kept) (step : next s k = some t) :
    Books s k t := by
  obtain ⟨-, step⟩ := guarded_eq_some.mp step
  cases k with
  | ring k =>
    obtain ⟨spsc, moved, rfl⟩ := Option.map_eq_some_iff.mp step
    have depth := (Spsc.next_levelled small h.level moved).2
    have depth : s.ring.depth + adds s (.ring k) =
        (takes s (.ring k) + discarded s (.ring k)) + spsc.ring.depth := depth
    cases k with
    | push frame =>
      obtain ⟨free, moved⟩ := Option.ite_none_right_eq_some.mp moved
      obtain rfl := Option.some.inj moved
      have free : s.producer = none := Option.isNone_iff_eq_none.mp free
      refine ⟨?_, ?_, ?_, ?_, depth⟩
      · rw [free]
        rfl
      · rw [free]
        rfl
      · rw [free]
        rfl
      · exact Nat.add_comm _ _
    | producer cas =>
      obtain ⟨pc, hpc, rfl⟩ := Option.map_eq_some_iff.mp moved
      have books := pc.step_books s.ring cas
      have notDelivered : Counter.framesDelivered.once pc.counted = 0 := by cases pc <;> rfl
      refine ⟨?_, ?_, ?_, ?_, depth⟩
      · simpa [counted, hpc] using books.received
      · simpa [counted, hpc] using books.dropped
      · simpa [counted, adds, Spsc.adds, hpc] using books.published
      · simpa [counted, takes, Spsc.takes, hpc] using notDelivered
    | pop =>
      obtain ⟨free, moved⟩ := Option.ite_none_right_eq_some.mp moved
      obtain rfl := Option.some.inj moved
      have free : s.consumer = none := Option.isNone_iff_eq_none.mp free
      refine ⟨?_, ?_, ?_, ?_, depth⟩
      · exact Nat.add_comm _ _
      · exact Nat.add_comm _ _
      · exact Nat.add_comm _ _
      · rw [free]
        rfl
    | consumer =>
      obtain ⟨pc, hpc, rfl⟩ := Option.map_eq_some_iff.mp moved
      have books := pc.step_books s.ring
      refine ⟨?_, ?_, ?_, ?_, depth⟩
      · cases pc <;> simp [counted, hpc, PopPc.counted, Counter.once]
      · cases pc <;> simp [counted, hpc, PopPc.counted, Counter.once]
      · cases pc <;> simp [counted, adds, Spsc.adds, hpc, PopPc.counted, Counter.once]
      · simpa [counted, takes, Spsc.takes, hpc] using books
    | snapshot operation =>
      obtain rfl := Option.some.inj moved
      exact .of_idle rfl rfl (by simp [counted]) ⟨rfl, rfl⟩ (Nat.zero_add _).symm
    | observer i cas =>
      obtain ⟨⟨operation, pc⟩, -, rfl⟩ := Option.map_eq_some_iff.mp moved
      have same := pc.step_same operation s.ring cas
      refine .of_idle rfl rfl (by simp [counted]) ⟨rfl, rfl⟩ ?_
      exact same.depth.symm.trans (Nat.zero_add _).symm
    | record what n =>
      obtain rfl := Option.some.inj moved
      have same := s.ring.record_same n what
      refine .of_idle rfl rfl ?_ ⟨rfl, rfl⟩ (same.depth.symm.trans (Nat.zero_add _).symm)
      cases what <;> simp [counted, Recorded.counter]
  | clear =>
    obtain rfl := Option.some.inj step
    exact .of_idle rfl rfl (by simp [counted]) ⟨rfl, rfl⟩ (Nat.zero_add _).symm
  | clearing i cas =>
    obtain ⟨pc, found, rfl⟩ := Option.map_eq_some_iff.mp step
    obtain ⟨-, shallower⟩ := ClearPc.step_depth (h.clears pc (List.mem_of_getElem? found)) cas
    refine .of_idle rfl rfl (by simp [counted]) ⟨rfl, rfl⟩ ?_
    simpa [discarded, found] using shallower

/-- The number of events that a run has counted. -/
abbrev events (s : Clearing w capacity F) (ks : List (Choice F)) (counter : Counter) : ℕ :=
  total next (counted counter) s ks

/-- What the resets took and what the counter shows is what was counted, modulo `2 ^ 64`. -/
theorem taken_counted (counter : Counter) (run : exec next s ks = some t) :
    s.ring.counters counter + BitVec.ofNat 64 (events s ks counter) =
      total next (taken counter) s ks + t.ring.counters counter := by
  have balance := total_balance (P := fun _ => True)
    (fun s k t _ step => ⟨trivial, next_counter counter step⟩) trivial run
  have cast : BitVec.ofNat 64 (events s ks counter) =
      total next (fun s k => ((counted counter s k : ℕ) : BitVec 64)) s ks :=
    total_map (Nat.castAddMonoidHom (BitVec 64)) (counted counter) s ks
  rw [cast]
  exact balance

/-- Once no reset is in progress, the resets have returned all they took. -/
theorem reported_taken (small : capacity < 2 ^ w) (counter : Counter) (h : s.Kept)
    (run : exec next s ks = some t) :
    held counter s + total next (taken counter) s ks =
      total next (reported counter) s ks + held counter t :=
  total_balance (fun _ _ _ h step => ⟨next_kept small h step, next_reported counter h step⟩) h run

/-- The totals of a run between two states in which no push and no pop is in progress. -/
theorem totals_agree (small : capacity < 2 ^ w) (h : s.Kept) (run : exec next s ks = some t)
    (before : s.producer = none ∧ s.consumer = none)
    (after : t.producer = none ∧ t.consumer = none) :
    events s ks .framesReceived = events s ks .framesQueued + events s ks .framesDropped ∧
      events s ks .framesDropped = events s ks .queueOverflows ∧
      s.ring.depth + events s ks .framesQueued =
        events s ks .framesDelivered + t.ring.depth + total next discarded s ks := by
  have keeps (s : Clearing w capacity F) (k : Choice F) (t : Clearing w capacity F) (h : s.Kept)
      (step : next s k = some t) := next_kept small h step
  have received := total_balance
    (fun s k t h step => ⟨keeps s k t h step, (next_books small h step).received⟩) h run
  have dropped := total_balance
    (fun s k t h step => ⟨keeps s k t h step, (next_books small h step).dropped⟩) h run
  have published := total_balance
    (fun s k t h step => ⟨keeps s k t h step, (next_books small h step).published⟩) h run
  have delivered := total_balance
    (fun s k t h step => ⟨keeps s k t h step, (next_books small h step).delivered⟩) h run
  have depth := total_balance
    (fun s k t h step => ⟨keeps s k t h step, (next_books small h step).depth⟩) h run
  simp only [before.1, before.2, after.1, after.2, inProgress_none, total_add] at *
  simp only [events]
  omega

/-! ### The books of the ring -/

/-- The choices by which a snapshot or a reset runs. -/
def Choice.isSnapshot : Choice F → Bool
  | .ring (.snapshot _) | .ring (.observer _ _) => true
  | _ => false

theorem snapshot_same (step : next s k = some t) (snapshot : k.isSnapshot = true) :
    FrameRing.Same s.ring t.ring := by
  obtain ⟨-, step⟩ := guarded_eq_some.mp step
  cases k with
  | ring k =>
    obtain ⟨spsc, moved, rfl⟩ := Option.map_eq_some_iff.mp step
    cases k with
    | snapshot operation =>
      obtain rfl := Option.some.inj moved
      exact .refl _
    | observer i cas =>
      obtain ⟨⟨operation, pc⟩, -, rfl⟩ := Option.map_eq_some_iff.mp moved
      exact pc.step_same operation s.ring cas
    | _ => cases snapshot
  | _ => cases snapshot

/-- Resets lose nothing and count nothing twice, the cumulative totals agree whenever nothing
is in progress, and statistics leave the queue alone. -/
theorem statistics_conserved (small : capacity < 2 ^ w) {ring : FrameRing w capacity F}
    (empty : ring.head = ring.tail) (zero : ∀ counter, ring.counters counter = 0)
    (run : exec next (idle ring) ks = some s) :
    (∀ counter, total next (taken counter) (idle ring) ks + s.ring.counters counter =
        BitVec.ofNat 64 (events (idle ring) ks counter)) ∧
      (s.observers = [] → s.clears = [] → ∀ counter,
        total next (reported counter) (idle ring) ks = total next (taken counter) (idle ring) ks) ∧
      (s.Quiescent →
        events (idle ring) ks .framesReceived =
            events (idle ring) ks .framesQueued + events (idle ring) ks .framesDropped ∧
          events (idle ring) ks .framesDropped = events (idle ring) ks .queueOverflows ∧
          events (idle ring) ks .framesQueued =
            events (idle ring) ks .framesDelivered + distance s.ring.head s.ring.tail +
              total next discarded (idle ring) ks) ∧
      ∀ k t, next s k = some t → k.isSnapshot = true → FrameRing.Same s.ring t.ring := by
  have start : (idle ring).Kept := idle_kept empty
  refine ⟨?_, ?_, ?_, fun k t step => snapshot_same step⟩
  · intro counter
    rw [← taken_counted counter run]
    show ring.counters counter + _ = _
    rw [zero counter]
    exact zero_add _
  · intro noObserver noClear counter
    have balance := reported_taken small counter start run
    have before : held counter (idle ring) = 0 := by simp [held, idle]
    have after : held counter s = 0 := by simp [held, noObserver, noClear]
    rw [before, after, zero_add, add_zero] at balance
    exact balance.symm
  · intro quiet
    obtain ⟨received, dropped, queued⟩ :=
      totals_agree small start run ⟨rfl, rfl⟩ ⟨quiet.producer, quiet.consumer⟩
    have nothing : (idle ring).ring.depth = 0 := distance_eq_zero.mpr empty
    rw [nothing, Nat.zero_add] at queued
    exact ⟨received, dropped, queued⟩

/-- A reset that runs while a frame is pushed; then `clear` discards the frame. -/
def clearedRun : List (Choice (BitVec 8)) :=
  .ring (.push 7) :: List.replicate 3 (.ring (.producer true)) ++
    .ring (.snapshot .snapshotAndReset) :: List.replicate 5 (.ring (.observer 0 true)) ++
    List.replicate 5 (.ring (.producer true)) ++ List.replicate 13 (.ring (.observer 0 true)) ++
    .clear :: List.replicate 20 (.clearing 0 true)

def uncleared : Clearing 32 4 (BitVec 8) := idle { frames := fun _ => 0 }

theorem statistics_conserved_cleared :
    total next discarded uncleared clearedRun = 1 ∧
      events uncleared clearedRun .framesQueued =
        events uncleared clearedRun .framesDelivered + 0 + 1 := by
  have run := exec_eq_final next uncleared clearedRun (by decide)
  have producer : (final next uncleared clearedRun).producer.isNone = true := by decide
  have consumer : (final next uncleared clearedRun).consumer.isNone = true := by decide
  have observers : (final next uncleared clearedRun).observers.isEmpty = true := by decide
  have clears : (final next uncleared clearedRun).clears.isEmpty = true := by decide
  have quiet : (final next uncleared clearedRun).Quiescent :=
    ⟨Option.isNone_iff_eq_none.mp producer, Option.isNone_iff_eq_none.mp consumer,
      List.isEmpty_iff.mp observers, List.isEmpty_iff.mp clears⟩
  have discards : total next discarded uncleared clearedRun = 1 := by decide
  have empty : distance (final next uncleared clearedRun).ring.head
      (final next uncleared clearedRun).ring.tail = 0 := by decide
  have books := statistics_conserved (by decide) rfl (fun _ => rfl) run
  have queued := (books.2.2.1 quiet).2.2
  rw [empty] at queued
  exact ⟨discards, queued.trans (congrArg _ discards)⟩

end Clearing

end CanTelemetry.CanBus
