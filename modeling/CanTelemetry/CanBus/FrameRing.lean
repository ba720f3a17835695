import CanTelemetry.Foundation.RingIndex
import CanTelemetry.Foundation.Threads
import Mathlib.Logic.Function.Basic

/-! The fixed-capacity single-producer single-consumer frame ring. Each public
operation is a procedure whose steps are its atomic loads and stores and its slot
accesses; the tests on local copies belong to the load before them. The counters are
one table, since every operation treats them alike. -/

namespace CanTelemetry.CanBus

open RingIndex Threads

/-- The interval counters, in the order in which a snapshot reads them. -/
inductive Counter
  | framesReceived | framesQueued | framesDelivered | framesDropped | queueOverflows
  | busErrors | driverRxMissed | controllerResets | busOffEvents
  deriving DecidableEq, Repr

def Counter.all : List Counter :=
  [.framesReceived, .framesQueued, .framesDelivered, .framesDropped, .queueOverflows,
    .busErrors, .driverRxMissed, .controllerResets, .busOffEvents]

structure Statistics where
  counters : Counter → BitVec 64 := fun _ => 0
  queueDepth : BitVec 32 := 0
  queueHighWatermark : BitVec 32 := 0
  queueCapacity : BitVec 32 := 64

inductive StatisticsOperation
  | snapshot | snapshotAndReset
  deriving DecidableEq, Repr

/-- Indices have the width `w` of `size_t`. -/
structure FrameRing (w capacity : ℕ) (F : Type*) where
  frames : Fin capacity → F
  head : BitVec w := 0
  tail : BitVec w := 0
  counters : Counter → BitVec 64 := fun _ => 0
  queueHighWatermark : BitVec 32 := 0

variable {w capacity : ℕ} {F : Type*}

instance [Inhabited F] : Inhabited (FrameRing w capacity F) := ⟨{ frames := fun _ => default }⟩

namespace FrameRing

/-- One `fetch_add` on a counter. -/
def count (ring : FrameRing w capacity F) (counter : Counter) (n : BitVec 64 := 1) :
    FrameRing w capacity F :=
  { ring with counters := Function.update ring.counters counter (ring.counters counter + n) }

def recordBusError (ring : FrameRing w capacity F) (n : BitVec 64 := 1) : FrameRing w capacity F :=
  ring.count .busErrors n

def recordDriverRxMissed (ring : FrameRing w capacity F) (n : BitVec 64 := 1) :
    FrameRing w capacity F :=
  ring.count .driverRxMissed n

def recordControllerReset (ring : FrameRing w capacity F) (n : BitVec 64 := 1) :
    FrameRing w capacity F :=
  ring.count .controllerResets n

def recordBusOff (ring : FrameRing w capacity F) (n : BitVec 64 := 1) : FrameRing w capacity F :=
  ring.count .busOffEvents n

/-- What the ring holds apart from its statistics. -/
structure Same (ring ring' : FrameRing w capacity F) : Prop where
  frames : ring'.frames = ring.frames
  head : ring'.head = ring.head
  tail : ring'.tail = ring.tail

theorem Same.refl (ring : FrameRing w capacity F) : Same ring ring := ⟨rfl, rfl, rfl⟩

theorem count_same (ring : FrameRing w capacity F) (counter : Counter) (n : BitVec 64) :
    Same ring (ring.count counter n) := ⟨rfl, rfl, rfl⟩

@[simp] theorem count_frames (ring : FrameRing w capacity F) (counter : Counter) (n : BitVec 64) :
    (ring.count counter n).frames = ring.frames := rfl

@[simp] theorem count_head (ring : FrameRing w capacity F) (counter : Counter) (n : BitVec 64) :
    (ring.count counter n).head = ring.head := rfl

@[simp] theorem count_tail (ring : FrameRing w capacity F) (counter : Counter) (n : BitVec 64) :
    (ring.count counter n).tail = ring.tail := rfl

end FrameRing

/-! ### The watermark -/

/-- The loop that `update_watermark` and `ensure_watermark_at_least` share. -/
inductive WatermarkPc
  | load (depth : BitVec 32)
  | exchange (depth watermark : BitVec 32)
  deriving DecidableEq

namespace WatermarkPc

/-- The loop test on the local copy. -/
def test (depth watermark : BitVec 32) : Control WatermarkPc Unit :=
  if depth > watermark then .next (.exchange depth watermark) else .ret ()

/-- A weak exchange may also fail when the value is the expected one: then `cas` is false. -/
def step (ring : FrameRing w capacity F) (cas : Bool) :
    WatermarkPc → FrameRing w capacity F × Control WatermarkPc Unit
  | .load depth => (ring, test depth ring.queueHighWatermark)
  | .exchange depth watermark =>
    if cas ∧ ring.queueHighWatermark = watermark then
      ({ ring with queueHighWatermark := depth }, .ret ())
    else (ring, test depth ring.queueHighWatermark)

def update (depth : BitVec 32) : WatermarkPc := .load depth

def ensureAtLeast (depth : BitVec 32) : WatermarkPc := .load depth

theorem step_same (ring : FrameRing w capacity F) (cas : Bool) (pc : WatermarkPc) :
    FrameRing.Same ring (step ring cas pc).1 := by
  cases pc with
  | load depth => exact .refl ring
  | exchange depth watermark =>
    by_cases won : cas = true ∧ ring.queueHighWatermark = watermark
    · simp only [step, if_pos won]
      exact ⟨rfl, rfl, rfl⟩
    · simp only [step, if_neg won]
      exact .refl ring

end WatermarkPc

/-! ### The producer -/

inductive PushPc (w : ℕ) (F : Type*)
  | countReceived (frame : F)
  | loadHead (frame : F)
  | loadTail (frame : F) (head : BitVec w)
  | countDropped
  | countOverflow
  | writeSlot (frame : F) (head tail : BitVec w)
  | storeHead (frame : F) (head tail : BitVec w)
  | updateWatermark (pc : WatermarkPc)
  | countQueued
  deriving DecidableEq

namespace PushPc

variable [NeZero capacity]

/-- `push`. The test for a full ring uses the tail just loaded, which may be stale later. -/
def step (ring : FrameRing w capacity F) (cas : Bool) :
    PushPc w F → FrameRing w capacity F × Control (PushPc w F) Bool
  | .countReceived frame => (ring.count .framesReceived, .next (.loadHead frame))
  | .loadHead frame => (ring, .next (.loadTail frame ring.head))
  | .loadTail frame head =>
    (ring, .next (if distance head ring.tail ≥ capacity then .countDropped
      else .writeSlot frame head ring.tail))
  | .countDropped => (ring.count .framesDropped, .next .countOverflow)
  | .countOverflow => (ring.count .queueOverflows, .ret false)
  | .writeSlot frame head tail =>
    ({ ring with frames := Function.update ring.frames (slot capacity head) frame },
      .next (.storeHead frame head tail))
  | .storeHead _ head tail =>
    ({ ring with head := head + 1 },
      .next (.updateWatermark (.update ((head + 1 - tail).setWidth 32))))
  | .updateWatermark pc =>
    let (ring, control) := pc.step ring cas
    (ring, control.call .updateWatermark fun _ => .next .countQueued)
  | .countQueued => (ring.count .framesQueued, .ret true)

end PushPc

/-! ### The consumer -/

inductive PopPc (w : ℕ) (F : Type*)
  | loadTail
  | loadHead (tail : BitVec w)
  | readSlot (tail : BitVec w)
  | storeTail (frame : F) (tail : BitVec w)
  | countDelivered (frame : F)
  deriving DecidableEq

namespace PopPc

variable [NeZero capacity]

/-- `pop`; the frame is returned in place of the out parameter. -/
def step (ring : FrameRing w capacity F) :
    PopPc w F → FrameRing w capacity F × Control (PopPc w F) (Option F)
  | .loadTail => (ring, .next (.loadHead ring.tail))
  | .loadHead tail =>
    (ring, if tail = ring.head then .ret none else .next (.readSlot tail))
  | .readSlot tail => (ring, .next (.storeTail (ring.frames (slot capacity tail)) tail))
  | .storeTail frame tail => ({ ring with tail := tail + 1 }, .next (.countDelivered frame))
  | .countDelivered frame => (ring.count .framesDelivered, .ret (some frame))

end PopPc

/-! ### Statistics -/

/-- One turn of `coherent_depth`: the tail is read on both sides of the head. -/
inductive DepthPc (w : ℕ)
  | loadTailBefore
  | loadHead (tailBefore : BitVec w)
  | loadTailAfter (tailBefore head : BitVec w)
  deriving DecidableEq

def DepthPc.step (ring : FrameRing w capacity F) : DepthPc w → Control (DepthPc w) (BitVec 32)
  | .loadTailBefore => .next (.loadHead ring.tail)
  | .loadHead tailBefore => .next (.loadTailAfter tailBefore ring.head)
  | .loadTailAfter tailBefore head =>
    if tailBefore = ring.tail ∧ distance head ring.tail ≤ capacity then
      .ret ((head - ring.tail).setWidth 32)
    else .next .loadTailBefore

inductive SnapshotPc (w : ℕ)
  | depth (pc : DepthPc w)
  /-- The counters still to be read; after the last of them the watermark is. -/
  | counters (remaining : List Counter) (result : Statistics)
  | depthAfterReset (pc : DepthPc w) (result : Statistics)
  | ensureWatermark (pc : WatermarkPc) (result : Statistics)

namespace SnapshotPc

def step (operation : StatisticsOperation) (ring : FrameRing w capacity F) (cas : Bool) :
    SnapshotPc w → FrameRing w capacity F × Control (SnapshotPc w) Statistics
  | .depth pc =>
    (ring, (pc.step ring).call .depth fun depth => .next (.counters Counter.all
      { queueDepth := depth, queueCapacity := BitVec.ofNat 32 capacity }))
  | .counters (counter :: remaining) result =>
    let read := { result with
      counters := Function.update result.counters counter (ring.counters counter) }
    match operation with
    | .snapshot => (ring, .next (.counters remaining read))
    | .snapshotAndReset =>
      ({ ring with counters := Function.update ring.counters counter 0 },
        .next (.counters remaining read))
  | .counters [] result =>
    let read := { result with queueHighWatermark := ring.queueHighWatermark }
    match operation with
    | .snapshot => (ring, .ret read)
    | .snapshotAndReset =>
      ({ ring with queueHighWatermark := result.queueDepth },
        .next (.depthAfterReset .loadTailBefore read))
  | .depthAfterReset pc result =>
    (ring, (pc.step ring).call (.depthAfterReset · result) fun depth =>
      .next (.ensureWatermark (.ensureAtLeast depth) result))
  | .ensureWatermark pc result =>
    let (ring, control) := pc.step ring cas
    (ring, control.call (.ensureWatermark · result) fun _ => .ret result)

theorem step_same (operation : StatisticsOperation) (ring : FrameRing w capacity F) (cas : Bool)
    (pc : SnapshotPc w) : FrameRing.Same ring (step operation ring cas pc).1 := by
  cases pc with
  | depth pc => exact .refl ring
  | counters remaining result =>
    cases remaining <;> cases operation <;> exact ⟨rfl, rfl, rfl⟩
  | depthAfterReset pc result => exact .refl ring
  | ensureWatermark pc result => exact pc.step_same ring cas

end SnapshotPc

inductive ClearPc (w : ℕ)
  | loadHead
  | storeTail (head : BitVec w)
  | snapshot (pc : SnapshotPc w)
  | resetWatermark

/-- `clear` drops the queued frames and resets the statistics. -/
def ClearPc.step (ring : FrameRing w capacity F) (cas : Bool) :
    ClearPc w → FrameRing w capacity F × Control (ClearPc w) Unit
  | .loadHead => (ring, .next (.storeTail ring.head))
  | .storeTail head => ({ ring with tail := head }, .next (.snapshot (.depth .loadTailBefore)))
  | .snapshot pc =>
    let (ring, control) := pc.step .snapshotAndReset ring cas
    (ring, control.call .snapshot fun _ => .next .resetWatermark)
  | .resetWatermark => ({ ring with queueHighWatermark := 0 }, .ret ())

end CanTelemetry.CanBus
