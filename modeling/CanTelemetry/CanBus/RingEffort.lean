import CanTelemetry.CanBus.BusOff
import CanTelemetry.Foundation.Effort

/-! How many steps the operations of the ring take at most. The weak exchanges of the watermark
and the loop of `coherent_depth` start over only when somebody else has changed the watermark
or the tail in the meantime, or when an exchange fails for no reason. -/

namespace CanTelemetry.CanBus

open RingIndex Threads

variable {w capacity : ℕ} {F : Type*}

/-- An exchange that may fail for no reason has done so. -/
def missed (exchanges cas : Bool) : ℕ := if exchanges && !cas then 1 else 0

/-- The threads of a kind start over when a value has changed. -/
def changed {α : Type*} [DecidableEq α] (before after : α) (cost : ℕ) : ℕ :=
  if after = before then 0 else cost

theorem changed_self {α : Type*} [DecidableEq α] (value : α) (cost : ℕ) :
    changed value value cost = 0 := if_pos rfl

/-! ### The watermark -/

def WatermarkPc.exchanges : WatermarkPc → Bool
  | .load _ => false
  | .exchange _ _ => true

theorem WatermarkPc.spends (ring : FrameRing w capacity F) (cas : Bool) (pc : WatermarkPc) :
    1 + ((pc.step ring cas).2.live.map (variant (pc.step ring cas).1.queueHighWatermark)).sum ≤
      pc.variant ring.queueHighWatermark + missed pc.exchanges cas := by
  have tested (depth : BitVec 32) : ((test depth ring.queueHighWatermark).live.map
      (variant ring.queueHighWatermark)).sum ≤ 1 := by
    unfold test
    split <;> simp [variant]
  cases pc with
  | load depth =>
    have after := tested depth
    simp only [step, variant]
    omega
  | exchange depth expected =>
    have after := tested depth
    by_cases won : cas = true ∧ ring.queueHighWatermark = expected
    · simp [step, won, variant]
    · simp only [step, if_neg won, variant, missed, exchanges, Bool.true_and]
      by_cases same : ring.queueHighWatermark = expected
      · have lost : cas = false := by simpa [same] using won
        simp only [same, lost, if_true, Bool.not_false] at after ⊢
        omega
      · rw [if_neg same]
        omega

theorem WatermarkPc.disturbed (before after : BitVec 32) (pc : WatermarkPc) :
    pc.variant after ≤ pc.variant before + changed before after 1 := by
  unfold changed
  split
  case isTrue same => rw [same, Nat.add_zero]
  case isFalse other =>
    cases pc with
    | load depth => exact Nat.le_succ 2
    | exchange depth expected =>
      simp only [variant]
      split <;> split <;> omega

/-! ### coherent_depth -/

/-- How many steps are left at most while the tail stays where it is. -/
def DepthPc.left (ring : FrameRing w capacity F) : DepthPc w → ℕ
  | .loadTailBefore => 3
  | .loadHead tailBefore => if tailBefore = ring.tail then 2 else 5
  | .loadTailAfter tailBefore head =>
    if tailBefore = ring.tail ∧ distance head ring.tail ≤ capacity then 1 else 4

theorem DepthPc.spends {ring : FrameRing w capacity F}
    (fits : distance ring.head ring.tail ≤ capacity) (pc : DepthPc w) :
    1 + ((pc.step ring).live.map (left ring)).sum ≤ pc.left ring := by
  cases pc with
  | loadTailBefore => simp [step, left]
  | loadHead tailBefore =>
    simp only [step, left, Control.live_next, List.map_cons, List.map_nil, List.sum_singleton, fits,
      and_true]
    split <;> omega
  | loadTailAfter tailBefore head =>
    simp only [step, left]
    split <;> simp [left]

/-- A change of the tail costs one turn of the loop. -/
theorem DepthPc.disturbed (ring ring' : FrameRing w capacity F) (pc : DepthPc w) :
    pc.left ring' ≤ pc.left ring + changed ring.tail ring'.tail 3 := by
  unfold changed
  split
  case isTrue same =>
    cases pc <;> simp only [left, same, Nat.add_zero, Nat.le_refl]
  case isFalse other =>
    cases pc with
    | loadTailBefore => exact Nat.le_add_right 3 3
    | loadHead tailBefore | loadTailAfter tailBefore head =>
      simp only [left]
      split <;> split <;> omega

/-! ### snapshot and clear -/

namespace SnapshotPc

def left (ring : FrameRing w capacity F) : SnapshotPc w → ℕ
  | .depth pc => pc.left ring + 15
  | .counters remaining _ => remaining.length + 6
  | .depthAfterReset pc _ => pc.left ring + 2
  | .ensureWatermark pc _ => pc.variant ring.queueHighWatermark

def exchanges : SnapshotPc w → Bool
  | .ensureWatermark pc _ => pc.exchanges
  | _ => false

theorem spends {ring : FrameRing w capacity F} (fits : distance ring.head ring.tail ≤ capacity)
    (operation : StatisticsOperation) (cas : Bool) (pc : SnapshotPc w) :
    1 + ((pc.step operation ring cas).2.live.map (left (pc.step operation ring cas).1)).sum ≤
      pc.left ring + missed pc.exchanges cas := by
  cases pc with
  | depth pc =>
    exact spends_call ((pc.spends fits).trans (Nat.le_add_right _ _)) (fun _ => Nat.le_refl _)
      fun _ _ => by simp [left, Counter.all]
  | counters remaining result =>
    cases remaining with
    | nil =>
      cases operation with
      | snapshot =>
        simp only [step, left, Control.live_ret, List.map_nil, List.sum_nil, List.length_nil]
        omega
      | snapshotAndReset => simp [step, left, DepthPc.left]
    | cons counter rest =>
      cases operation <;> simp only [step, left, Control.live_next, List.map_cons, List.map_nil,
        List.sum_singleton, List.length_cons] <;> omega
  | depthAfterReset pc result =>
    exact spends_call ((pc.spends fits).trans (Nat.le_add_right _ _)) (fun _ => Nat.le_refl _)
      fun _ _ => by simp [left, WatermarkPc.ensureAtLeast, WatermarkPc.variant]
  | ensureWatermark pc result =>
    exact spends_call (n := 0) (pc.spends ring cas) (fun _ => Nat.le_refl _) fun _ _ => by simp

theorem disturbed (ring ring' : FrameRing w capacity F) (pc : SnapshotPc w) :
    pc.left ring' ≤ pc.left ring + (changed ring.tail ring'.tail 3 +
      changed ring.queueHighWatermark ring'.queueHighWatermark 1) := by
  cases pc with
  | depth pc | depthAfterReset pc result =>
    have inner := pc.disturbed ring ring'
    simp only [left]
    omega
  | counters remaining result => exact Nat.le_add_right _ _
  | ensureWatermark pc result =>
    have inner := pc.disturbed ring.queueHighWatermark ring'.queueHighWatermark
    simp only [left]
    omega

end SnapshotPc

namespace ClearPc

def left (ring : FrameRing w capacity F) : ClearPc w → ℕ
  | .resetWatermark => 1
  | .snapshot pc => pc.left ring + 1
  | .storeTail _ => 20
  | .loadHead => 21

def exchanges : ClearPc w → Bool
  | .snapshot pc => pc.exchanges
  | _ => false

theorem spends {ring : FrameRing w capacity F} {pc : ClearPc w}
    (fits : ∀ inner, pc = .snapshot inner → distance ring.head ring.tail ≤ capacity) (cas : Bool) :
    1 + ((pc.step ring cas).2.live.map (left (pc.step ring cas).1)).sum ≤
      pc.left ring + missed pc.exchanges cas := by
  cases pc with
  | loadHead => simp [step, left]
  | storeTail head => simp [step, left, SnapshotPc.left, DepthPc.left]
  | snapshot pc =>
    exact spends_call (pc.spends (fits pc rfl) .snapshotAndReset cas) (fun _ => Nat.le_refl _)
      fun _ _ => by simp [left]
  | resetWatermark => simp [step, left]

theorem disturbed (ring ring' : FrameRing w capacity F) (pc : ClearPc w) :
    pc.left ring' ≤ pc.left ring + (changed ring.tail ring'.tail 3 +
      changed ring.queueHighWatermark ring'.queueHighWatermark 1) := by
  cases pc with
  | snapshot pc =>
    have inner := pc.disturbed ring ring'
    simp only [left]
    omega
  | _ => exact Nat.le_add_right _ _

end ClearPc

/-! ### push and pop -/

def PushPc.exchanges : PushPc w F → Bool
  | .updateWatermark pc => pc.exchanges
  | _ => false

theorem PushPc.spends (ring : FrameRing w queueCapacity VehicleCore.RawCanFrame) (cas : Bool)
    (pc : PushPc w VehicleCore.RawCanFrame) :
    1 + ((pc.step ring cas).2.live.map (variant (pc.step ring cas).1.queueHighWatermark)).sum ≤
      pc.variant ring.queueHighWatermark + missed pc.exchanges cas := by
  cases pc with
  | updateWatermark pc =>
    refine (spends_call (n := 1) (pc.spends ring cas) ?_ ?_).trans ?_
    · intro pc
      simp only [step, variant]
      omega
    · intro _ _
      simp [variant]
    · simp only [variant, exchanges]
      omega
  | loadTail frame head =>
    simp only [step, Control.live_next, List.map_cons, List.map_nil, List.sum_singleton]
    split <;> simp only [variant] <;> omega
  | _ => simp [step, variant, WatermarkPc.update, WatermarkPc.variant, missed, exchanges]

theorem PushPc.disturbed (before after : BitVec 32) (pc : PushPc w VehicleCore.RawCanFrame) :
    pc.variant after ≤ pc.variant before + changed before after 1 := by
  cases pc with
  | updateWatermark pc =>
    have inner := pc.disturbed before after
    simp only [variant]
    omega
  | _ => exact Nat.le_add_right _ _

/-- pop() has no loop. -/
def PopPc.left : PopPc w F → ℕ
  | .loadTail => 5
  | .loadHead _ => 4
  | .readSlot _ => 3
  | .storeTail _ _ => 2
  | .countDelivered _ => 1

theorem PopPc.spends [NeZero capacity] (ring : FrameRing w capacity F) (pc : PopPc w F) :
    1 + ((pc.step ring).2.live.map left).sum ≤ pc.left := by
  cases pc with
  | loadHead tail =>
    simp only [step]
    split <;> simp [left]
  | _ => simp [step, left]

end CanTelemetry.CanBus
