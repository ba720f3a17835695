import CanTelemetry.CanBus.Depth
import CanTelemetry.Foundation.Monitor

/-! The high watermark of the ring. A push publishes its frame before it raises the
watermark, and a reset swaps in a depth that may be out of date before it looks at the depth
again. Whenever the watermark is below the depth, some thread is still bound to raise it
far enough; which thread that is may change with every push and every reset. -/

namespace CanTelemetry.CanBus

open Execution RingIndex Threads

variable {w capacity : ℕ} {F : Type*}

/-! ### Raising the watermark -/

namespace WatermarkPc

/-- The depth that the loop raises the watermark to. -/
def depth : WatermarkPc → BitVec 32
  | .load depth | .exchange depth _ => depth

/-- The depth is a depth of the ring, and an exchange raises the watermark. -/
structure Bounded (capacity : ℕ) (pc : WatermarkPc) : Prop where
  depth : pc.depth.toNat ≤ capacity
  raises : ∀ depth watermark, pc = .exchange depth watermark → watermark < depth

/-- What a step of the loop does: it goes on with the same depth, or has reached it. -/
structure Raises (pc : WatermarkPc) (ring ring' : FrameRing w capacity F)
    (control : Control WatermarkPc Unit) : Prop where
  mono : ring.queueHighWatermark.toNat ≤ ring'.queueHighWatermark.toNat
  within : ring'.queueHighWatermark.toNat ≤ capacity
  goesOn : ∀ pc', control = .next pc' → pc'.Bounded capacity ∧ pc'.depth = pc.depth
  reached : ∀ u, control = .ret u → pc.depth.toNat ≤ ring'.queueHighWatermark.toNat

theorem test_raises {ring : FrameRing w capacity F} {pc : WatermarkPc} (h : pc.Bounded capacity)
    (within : ring.queueHighWatermark.toNat ≤ capacity) :
    pc.Raises ring ring (test pc.depth ring.queueHighWatermark) := by
  refine ⟨le_refl _, within, ?_, ?_⟩
  · intro pc' goesOn
    unfold test at goesOn
    split at goesOn
    case isTrue above =>
      obtain rfl := Control.next.inj goesOn
      refine ⟨⟨h.depth, ?_⟩, rfl⟩
      rintro depth watermark ⟨⟩
      exact above
    case isFalse => cases goesOn
  · intro u stops
    unfold test at stops
    split at stops
    case isTrue => cases stops
    case isFalse below => exact BitVec.le_def.mp (BitVec.not_lt.mp below)

theorem step_raises {ring : FrameRing w capacity F} {pc : WatermarkPc} (h : pc.Bounded capacity)
    (within : ring.queueHighWatermark.toNat ≤ capacity) (cas : Bool) :
    pc.Raises ring (pc.step ring cas).1 (pc.step ring cas).2 := by
  cases pc with
  | load depth => exact test_raises h within
  | exchange depth watermark =>
    by_cases won : cas = true ∧ ring.queueHighWatermark = watermark
    · simp only [step, if_pos won]
      refine ⟨?_, h.depth, by simp, fun _ _ => le_refl _⟩
      rw [won.2]
      exact (BitVec.lt_def.mp (h.raises depth watermark rfl)).le
    · simp only [step, if_neg won]
      exact test_raises h within

theorem load_bounded {depth : BitVec 32} (within : depth.toNat ≤ capacity) :
    (load depth).Bounded capacity := ⟨within, by simp⟩

end WatermarkPc

/-- A distance that is read as a 32-bit depth stays within the capacity. -/
theorem setWidth_distance_le {head tail : BitVec w} (within : distance head tail ≤ capacity) :
    ((head - tail).setWidth 32).toNat ≤ capacity := by
  rw [BitVec.toNat_setWidth]
  exact (Nat.mod_le _ _).trans within

theorem setWidth_distance {head tail : BitVec w} (fits : capacity < 2 ^ 32)
    (within : distance head tail ≤ capacity) :
    ((head - tail).setWidth 32).toNat = distance head tail := by
  rw [BitVec.toNat_setWidth]
  exact Nat.mod_eq_of_lt (lt_of_le_of_lt within fits)

/-! ### The bounds of each thread -/

def PushPc.Bounded (capacity : ℕ) : Option (PushPc w F) → Prop
  | some (.updateWatermark pc) => pc.Bounded capacity
  | _ => True

namespace SnapshotPc

/-- What a snapshot is going to return, or to put into the ring, is within the capacity. -/
def Bounded (capacity : ℕ) : SnapshotPc w → Prop
  | .depth _ => True
  | .counters _ result => result.queueDepth.toNat ≤ capacity
  | .depthAfterReset _ result =>
    result.queueDepth.toNat ≤ capacity ∧ result.queueHighWatermark.toNat ≤ capacity
  | .ensureWatermark pc result => pc.Bounded capacity ∧
    result.queueDepth.toNat ≤ capacity ∧ result.queueHighWatermark.toNat ≤ capacity

/-- A reset between its exchange of the watermark and the end of its reconciliation. -/
def reconciles : SnapshotPc w → Bool
  | .depthAfterReset _ _ | .ensureWatermark _ _ => true
  | _ => false

/-- The depth sample in progress. -/
def sampling : SnapshotPc w → Option (DepthPc w)
  | .depth pc | .depthAfterReset pc _ => some pc
  | _ => none

def startsSample (pc : SnapshotPc w) : Bool := pc.sampling = some .loadTailBefore

def endsSample (pc : SnapshotPc w) : Bool :=
  match pc.sampling with
  | some (.loadTailAfter _ _) => true
  | _ => false

/-- What a step of a snapshot keeps: the bounds, and the watermark unless it is reset. -/
structure Keeps (ring ring' : FrameRing w capacity F) (control : Control (SnapshotPc w) Statistics) :
    Prop where
  within : ring'.queueHighWatermark.toNat ≤ capacity
  goesOn : ∀ pc', control = .next pc' → pc'.Bounded capacity
  returns : ∀ result, control = .ret result →
    result.queueDepth.toNat ≤ capacity ∧ result.queueHighWatermark.toNat ≤ capacity
  mono : ring.queueHighWatermark.toNat ≤ ring'.queueHighWatermark.toNat ∨
    ∃ result, control = .next (.depthAfterReset .loadTailBefore result)

theorem step_keeps {ring : FrameRing w capacity F} {pc : SnapshotPc w} (h : pc.Bounded capacity)
    (within : ring.queueHighWatermark.toNat ≤ capacity) (operation : StatisticsOperation)
    (cas : Bool) : Keeps ring (pc.step operation ring cas).1 (pc.step operation ring cas).2 := by
  -- a sample that is accepted has checked its distance
  have sampled (pc : DepthPc w) (depth : BitVec 32) (ends : pc.step ring = .ret depth) :
      depth.toNat ≤ capacity := by
    cases pc with
    | loadTailAfter tailBefore head =>
      simp only [DepthPc.step] at ends
      split at ends
      case isTrue coherent =>
        obtain rfl := Control.ret.inj ends
        exact setWidth_distance_le coherent.2
      case isFalse => cases ends
    | _ => cases ends
  cases pc with
  | depth pc =>
    simp only [step]
    cases sample : pc.step ring with
    | next pc' => exact ⟨within, by simp [Bounded], by simp, .inl (le_refl _)⟩
    | ret depth =>
      refine ⟨within, ?_, by simp, .inl (le_refl _)⟩
      rintro _ ⟨⟩
      exact sampled pc depth sample
  | counters remaining result =>
    cases remaining with
    | nil =>
      cases operation with
      | snapshot =>
        refine ⟨within, by simp [step], ?_, .inl (le_refl _)⟩
        rintro _ ⟨⟩
        exact ⟨h, within⟩
      | snapshotAndReset =>
        refine ⟨h, ?_, by simp [step], .inr ⟨_, rfl⟩⟩
        rintro _ ⟨⟩
        exact ⟨h, within⟩
    | cons counter remaining =>
      cases operation <;> exact ⟨within, by rintro _ ⟨⟩; exact h, by simp [step], .inl (le_refl _)⟩
  | depthAfterReset pc result =>
    simp only [step]
    cases sample : pc.step ring with
    | next pc' =>
      refine ⟨within, ?_, by simp, .inl (le_refl _)⟩
      rintro _ ⟨⟩
      exact h
    | ret depth =>
      refine ⟨within, ?_, by simp, .inl (le_refl _)⟩
      rintro _ ⟨⟩
      exact ⟨WatermarkPc.load_bounded (sampled pc depth sample), h⟩
  | ensureWatermark pc result =>
    obtain ⟨bounded, returned⟩ := h
    have raises := WatermarkPc.step_raises bounded within cas
    simp only [step]
    cases control : (pc.step ring cas).2 with
    | next pc' =>
      refine ⟨raises.within, ?_, by simp, .inl raises.mono⟩
      rintro _ ⟨⟩
      exact ⟨(raises.goesOn pc' control).1, returned⟩
    | ret u =>
      refine ⟨raises.within, by simp, ?_, .inl raises.mono⟩
      rintro _ ⟨⟩
      exact returned

end SnapshotPc

/-! ### Every depth and watermark is within the capacity -/

section Bounds

variable [NeZero capacity]

theorem PushPc.step_bounded (small : capacity < 2 ^ w) {ring : FrameRing w capacity F}
    {pc : PushPc w F} (known : PushPc.Fits ring (some pc))
    (bounded : PushPc.Bounded capacity (some pc))
    (within : ring.queueHighWatermark.toNat ≤ capacity) (cas : Bool) :
    (pc.step ring cas).1.queueHighWatermark.toNat ≤ capacity ∧
      PushPc.Bounded capacity (pc.step ring cas).2.pc? := by
  cases pc with
  | loadTail frame head =>
    refine ⟨within, ?_⟩
    by_cases full : distance head ring.tail ≥ capacity
    · simp only [step, if_pos full]
      trivial
    · simp only [step, if_neg full]
      trivial
  | storeHead frame head tail =>
    have room : distance head tail < capacity := known.2.2
    have deeper : distance (head + 1) tail = distance head tail + 1 :=
      distance_head_succ (by omega)
    exact ⟨within, WatermarkPc.load_bounded (setWidth_distance_le (by omega))⟩
  | updateWatermark pc =>
    have raises := WatermarkPc.step_raises bounded within cas
    refine ⟨raises.within, ?_⟩
    simp only [step]
    cases control : (pc.step ring cas).2 with
    | next pc' => exact (raises.goesOn pc' control).1
    | ret u => trivial
  | _ => exact ⟨within, trivial⟩

theorem PopPc.step_watermark (ring : FrameRing w capacity F) (pc : PopPc w F) :
    (pc.step ring).1.queueHighWatermark = ring.queueHighWatermark := by
  cases pc <;> rfl

namespace Spsc

variable {s t : Spsc w capacity F} {k : Choice F}

structure Bounded (s : Spsc w capacity F) : Prop where
  level : s.Levelled
  within : s.ring.queueHighWatermark.toNat ≤ capacity
  producer : PushPc.Bounded capacity s.producer
  observers : ∀ o ∈ s.observers, o.2.Bounded capacity

omit [NeZero capacity] in
theorem idle_bounded {ring : FrameRing w capacity F} (empty : ring.head = ring.tail)
    (within : ring.queueHighWatermark.toNat ≤ capacity) : (idle ring).Bounded :=
  ⟨idle_levelled empty, within, trivial, by simp [idle]⟩

theorem next_bounded (small : capacity < 2 ^ w) (h : s.Bounded) (step : next s k = some t) :
    t.Bounded := by
  have level := (next_levelled small h.level step).1
  cases k with
  | push frame =>
    obtain ⟨-, step⟩ := Option.ite_none_right_eq_some.mp step
    obtain rfl := Option.some.inj step
    exact ⟨level, h.within, trivial, h.observers⟩
  | producer cas =>
    obtain ⟨pc, hpc, rfl⟩ := Option.map_eq_some_iff.mp step
    have known := h.level.producer
    have bounded := h.producer
    rw [hpc] at known bounded
    obtain ⟨within, producer⟩ := PushPc.step_bounded small known bounded h.within cas
    exact ⟨level, within, producer, h.observers⟩
  | pop =>
    obtain ⟨-, step⟩ := Option.ite_none_right_eq_some.mp step
    obtain rfl := Option.some.inj step
    exact ⟨level, h.within, h.producer, h.observers⟩
  | consumer =>
    obtain ⟨pc, -, rfl⟩ := Option.map_eq_some_iff.mp step
    refine ⟨level, ?_, h.producer, h.observers⟩
    rw [PopPc.step_watermark]
    exact h.within
  | snapshot operation =>
    obtain rfl := Option.some.inj step
    refine ⟨level, h.within, h.producer, ?_⟩
    intro o mem
    rcases List.mem_append.mp mem with old | new
    · exact h.observers o old
    · obtain rfl := List.mem_singleton.mp new
      trivial
  | observer i cas =>
    obtain ⟨⟨operation, pc⟩, found, rfl⟩ := Option.map_eq_some_iff.mp step
    have keeps := SnapshotPc.step_keeps (h.observers _ (List.mem_of_getElem? found)) h.within
      operation cas
    refine ⟨level, keeps.within, h.producer, ?_⟩
    intro o mem
    rcases mem_of_mem_resume found mem with old | own
    · exact h.observers o old
    · cases control : (pc.step operation s.ring cas).2 with
      | next pc' =>
        rw [control, Control.call_next, Control.live_next, List.mem_singleton] at own
        obtain rfl := own
        exact keeps.goesOn pc' control
      | ret result => simp [control] at own
  | record what n =>
    obtain rfl := Option.some.inj step
    refine ⟨level, ?_, h.producer, h.observers⟩
    cases what <;> exact h.within

/-- The statistics that a step returns. -/
def reported (s : Spsc w capacity F) : Choice F → List Statistics
  | .observer i cas => match s.observers[i]? with
    | some (operation, pc) => (pc.step operation s.ring cas).2.value?.toList
    | none => []
  | _ => []

omit [NeZero capacity] in
theorem reported_bounded (h : s.Bounded) {result : Statistics} (returned : result ∈ s.reported k) :
    result.queueDepth.toNat ≤ capacity ∧ result.queueHighWatermark.toNat ≤ capacity := by
  unfold reported at returned
  split at returned
  case h_2 => cases returned
  case h_1 i cas =>
    split at returned
    case h_2 => cases returned
    case h_1 operation pc found =>
      have keeps := SnapshotPc.step_keeps (h.observers _ (List.mem_of_getElem? found)) h.within
        operation cas
      cases control : (pc.step operation s.ring cas).2 with
      | next pc' => simp [control] at returned
      | ret value =>
        rw [control, Control.value?_ret, Option.toList_some, List.mem_singleton] at returned
        obtain rfl := returned
        exact keeps.returns result control

end Spsc

end Bounds

/-! ### Who raises the watermark to the depth -/

/-- What a depth sample knows when the tail has moved `age` times since the sample began. -/
def DepthPc.Samples (ring : FrameRing w capacity F) (age : ℕ) : DepthPc w → Prop
  | .loadTailBefore => True
  | .loadHead tailBefore => ring.tail = tailBefore + BitVec.ofNat w age
  | .loadTailAfter tailBefore head => ring.tail = tailBefore + BitVec.ofNat w age ∧
    (age = 0 → ring.depth ≤ distance head tailBefore)

/-- The snapshot is still going to raise the watermark to the depth of the ring. -/
def SnapshotPc.Covers (ring : FrameRing w capacity F) (age : ℕ) : SnapshotPc w → Prop
  | .depthAfterReset pc _ => pc.Samples ring age
  | .ensureWatermark pc _ => ring.depth ≤ pc.depth.toNat
  | _ => False

section Cover

variable {ring ring' : FrameRing w capacity F} {age : ℕ}

theorem DepthPc.Samples.of_still {pc : DepthPc w} (h : pc.Samples ring age)
    (tail : ring'.tail = ring.tail) (depth : ring'.depth = ring.depth) :
    pc.Samples ring' age := by
  cases pc with
  | loadTailBefore => trivial
  | loadHead tailBefore => exact tail.trans h
  | loadTailAfter tailBefore head => exact ⟨tail.trans h.1, by rw [depth]; exact h.2⟩

theorem SnapshotPc.Covers.of_still {pc : SnapshotPc w} (h : pc.Covers ring age)
    (tail : ring'.tail = ring.tail) (depth : ring'.depth = ring.depth) :
    pc.Covers ring' age := by
  cases pc with
  | depth pc => exact h
  | counters remaining result => exact h
  | depthAfterReset pc result => exact DepthPc.Samples.of_still h tail depth
  | ensureWatermark pc result =>
    rw [Covers, depth]
    exact h

/-- A pop that moves the tail makes the samples one older. -/
theorem SnapshotPc.Covers.older {pc : SnapshotPc w} (h : pc.Covers ring age)
    (tail : ring'.tail = ring.tail + 1) (depth : ring'.depth ≤ ring.depth) :
    pc.Covers ring' (age + 1) := by
  have moved (tailBefore : BitVec w) (known : ring.tail = tailBefore + BitVec.ofNat w age) :
      ring'.tail = tailBefore + BitVec.ofNat w (age + 1) := by
    rw [tail, known, ← index_succ, add_assoc]
  cases pc with
  | depth pc => exact h
  | counters remaining result => exact h
  | depthAfterReset pc result =>
    cases pc with
    | loadTailBefore => trivial
    | loadHead tailBefore => exact moved tailBefore h
    | loadTailAfter tailBefore head => exact ⟨moved tailBefore h.1, by simp⟩
  | ensureWatermark pc result => exact depth.trans h

/-- An accepted sample is the depth itself: the tail did not move meanwhile, as it cannot
have moved by a whole circle. -/
theorem DepthPc.step_samples (fits : capacity < 2 ^ 32) {pc : DepthPc w} (h : pc.Samples ring age)
    (circle : (∃ tailBefore head, pc = .loadTailAfter tailBefore head) → age < 2 ^ w) :
    (∀ pc', pc.step ring = .next pc' →
        pc'.Samples ring (if pc = .loadTailBefore then 0 else age)) ∧
      ∀ depth, pc.step ring = .ret depth → ring.depth ≤ depth.toNat := by
  cases pc with
  | loadTailBefore =>
    refine ⟨?_, by simp [step]⟩
    rintro _ ⟨⟩
    exact (BitVec.add_zero ring.tail).symm
  | loadHead tailBefore =>
    refine ⟨?_, by simp [step]⟩
    rintro _ ⟨⟩
    refine ⟨h, ?_⟩
    intro fresh
    rw [if_neg (by simp)] at fresh
    have still : ring.tail = tailBefore := by
      have moved : ring.tail = tailBefore + BitVec.ofNat w age := h
      rw [moved, fresh]
      exact BitVec.add_zero tailBefore
    rw [FrameRing.depth, still]
  | loadTailAfter tailBefore head =>
    obtain ⟨moved, deep⟩ := h
    refine ⟨?_, ?_⟩
    · intro pc' again
      simp only [step] at again
      split at again
      case isTrue => cases again
      case isFalse =>
        obtain rfl := Control.next.inj again
        trivial
    · intro depth sampled
      simp only [step] at sampled
      split at sampled
      case isFalse => cases sampled
      case isTrue coherent =>
        obtain ⟨still, within⟩ := coherent
        obtain rfl := Control.ret.inj sampled
        have none : BitVec.ofNat w age = 0 := by
          rw [← still] at moved
          exact add_eq_left.mp moved.symm
        have fresh : age = 0 := by
          have value := congrArg BitVec.toNat none
          rw [BitVec.toNat_ofNat, Nat.mod_eq_of_lt (circle ⟨_, _, rfl⟩)] at value
          exact value.trans BitVec.toNat_zero
        rw [setWidth_distance fits within, ← still]
        exact deep fresh

/-- A covering snapshot goes on to cover until it has raised the watermark. -/
theorem SnapshotPc.step_covers (fits : capacity < 2 ^ 32) {pc : SnapshotPc w}
    (bounded : pc.Bounded capacity) (within : ring.queueHighWatermark.toNat ≤ capacity)
    (h : pc.Covers ring age) (circle : pc.endsSample = true → age < 2 ^ w)
    (operation : StatisticsOperation) (cas : Bool) :
    (∀ pc', (pc.step operation ring cas).2 = .next pc' →
        pc'.Covers (pc.step operation ring cas).1 (if pc.startsSample then 0 else age)) ∧
      ∀ result, (pc.step operation ring cas).2 = .ret result →
        ring.depth ≤ (pc.step operation ring cas).1.queueHighWatermark.toNat := by
  cases pc with
  | depth pc => exact h.elim
  | counters remaining result => exact h.elim
  | depthAfterReset pc result =>
    have ends : (∃ tailBefore head, pc = .loadTailAfter tailBefore head) → age < 2 ^ w := by
      rintro ⟨tailBefore, head, rfl⟩
      exact circle rfl
    obtain ⟨goesOn, sampled⟩ := DepthPc.step_samples fits h ends
    have starts : (SnapshotPc.depthAfterReset pc result).startsSample =
        decide (pc = .loadTailBefore) := by
      simp [startsSample, sampling]
    simp only [step, starts, decide_eq_true_eq]
    cases sample : pc.step ring with
    | next pc' =>
      refine ⟨?_, by simp⟩
      rintro _ ⟨⟩
      exact goesOn pc' sample
    | ret depth =>
      refine ⟨?_, by simp⟩
      rintro _ ⟨⟩
      exact sampled depth sample
  | ensureWatermark pc result =>
    have raises := WatermarkPc.step_raises bounded.1 within cas
    have same := pc.step_same ring cas
    have deep : ring.depth ≤ pc.depth.toNat := h
    simp only [step]
    cases control : (pc.step ring cas).2 with
    | next pc' =>
      refine ⟨?_, by simp⟩
      rintro _ ⟨⟩
      show (pc.step ring cas).1.depth ≤ pc'.depth.toNat
      rw [same.depth, (raises.goesOn pc' control).2]
      exact deep
    | ret u => exact ⟨by simp, fun _ _ => deep.trans (raises.reached u control)⟩

end Cover

/-- The watermark has reached the depth, or a thread is bound to raise it that far. -/
inductive Covered (ring : FrameRing w capacity F) (producer : Option (PushPc w F))
    (observers : List ((StatisticsOperation × SnapshotPc w) × ℕ)) : Prop
  | reached (deep : ring.depth ≤ ring.queueHighWatermark.toNat)
  | raising (pc : WatermarkPc) (push : producer = some (.updateWatermark pc))
    (deep : ring.depth ≤ pc.depth.toNat)
  | resetting (o : (StatisticsOperation × SnapshotPc w) × ℕ) (mem : o ∈ observers)
    (covers : o.1.2.Covers ring o.2)

namespace Covered

variable {ring ring' : FrameRing w capacity F} {producer producer' : Option (PushPc w F)}
  {observers observers' : List ((StatisticsOperation × SnapshotPc w) × ℕ)}

/-- A step that moves no index keeps the cover, if it keeps the thread that gives it. -/
theorem of_still (h : Covered ring producer observers) (tail : ring'.tail = ring.tail)
    (depth : ring'.depth = ring.depth)
    (watermark : ring.queueHighWatermark.toNat ≤ ring'.queueHighWatermark.toNat)
    (push : ∀ pc, producer = some (.updateWatermark pc) → producer' = some (.updateWatermark pc))
    (mem : ∀ o ∈ observers, o ∈ observers') : Covered ring' producer' observers' := by
  rcases h with deep | ⟨raise, raising, deep⟩ | ⟨o, found, covers⟩
  · exact .reached (by rw [depth]; exact deep.trans watermark)
  · exact .raising raise (push raise raising) (by rw [depth]; exact deep)
  · exact .resetting o (mem o found) (covers.of_still tail depth)

/-- The steps of a push: publishing the frame hands the cover to the push itself. -/
theorem producer_step [NeZero capacity] (fits : capacity < 2 ^ 32) (small : capacity < 2 ^ w)
    {pc : PushPc w F} {consumer : Option (PopPc w F)} (h : Covered ring (some pc) observers)
    (level : Level ring (some pc) consumer) (bounded : PushPc.Bounded capacity (some pc))
    (within : ring.queueHighWatermark.toNat ≤ capacity) (cas : Bool) :
    Covered (pc.step ring cas).1 (pc.step ring cas).2.pc? observers := by
  cases pc with
  | storeHead frame head tail =>
    -- the tail loaded by the push is not ahead of the ring's
    obtain ⟨-, behind, room⟩ : head = ring.head ∧ ring.depth ≤ distance head tail ∧
      distance head tail < capacity := level.producer
    have deeper : distance (head + 1) tail = distance head tail + 1 :=
      distance_head_succ (by omega)
    obtain ⟨-, more⟩ := level.producer_step small cas
    refine .raising (.load ((head + 1 - tail).setWidth 32)) rfl ?_
    rw [more, WatermarkPc.depth, setWidth_distance fits (by omega), deeper, PushPc.adds]
    omega
  | updateWatermark pc =>
    have raises := WatermarkPc.step_raises bounded within cas
    have same := pc.step_same ring cas
    simp only [PushPc.step]
    rcases h with deep | ⟨raise, push, deep⟩ | ⟨o, mem, covers⟩
    · exact .reached (by rw [same.depth]; exact deep.trans raises.mono)
    · obtain rfl := PushPc.updateWatermark.inj (Option.some.inj push)
      cases control : (pc.step ring cas).2 with
      | next pc' =>
        refine .raising pc' rfl ?_
        rw [same.depth, (raises.goesOn pc' control).2]
        exact deep
      | ret u =>
        refine .reached ?_
        rw [same.depth]
        exact deep.trans (raises.reached u control)
    · exact .resetting o mem (covers.of_still same.tail same.depth)
  | _ => exact h.of_still rfl rfl (le_refl _) (by simp) fun _ mem => mem

/-- A pop makes the ring less deep and the samples older. -/
theorem consumer_step [NeZero capacity] {pc : PopPc w F}
    {ages : List ℕ} {pool : List (StatisticsOperation × SnapshotPc w)}
    (h : Covered ring producer (pool.zip ages)) (level : Level ring producer (some pc)) :
    Covered (pc.step ring).1 producer (pool.zip (ages.map (· + pc.takes))) := by
  obtain ⟨-, shallower⟩ := level.consumer_step
  rcases h with deep | ⟨raise, push, deep⟩ | ⟨o, mem, covers⟩
  · refine .reached ?_
    rw [PopPc.step_watermark]
    omega
  · exact .raising raise push (by omega)
  · have aged : (o.1, o.2 + pc.takes) ∈ pool.zip (ages.map (· + pc.takes)) := by
      rw [List.zip_map_right]
      exact List.mem_map.mpr ⟨o, mem, rfl⟩
    refine .resetting _ aged ?_
    cases pc with
    | storeTail frame tail =>
      obtain ⟨rfl, -⟩ : tail = ring.tail ∧ 0 < ring.depth := level.consumer
      exact covers.older rfl (by omega)
    | _ => exact covers.of_still rfl rfl

/-- The steps of a snapshot: resetting the watermark hands the cover to the snapshot, which
keeps it until the watermark is high enough again. -/
theorem observer_step (fits : capacity < 2 ^ 32) {i age : ℕ}
    {operation : StatisticsOperation} {pc : SnapshotPc w}
    (h : Covered ring producer observers) (found : observers[i]? = some ((operation, pc), age))
    (bounded : pc.Bounded capacity) (within : ring.queueHighWatermark.toNat ≤ capacity)
    (circle : pc.endsSample = true → age < 2 ^ w) (cas : Bool) :
    Covered (pc.step operation ring cas).1 producer
      (resume observers i ((pc.step operation ring cas).2.call
        (fun pc' => ((operation, pc'), if pc.startsSample then 0 else age)) .ret)) := by
  have same := pc.step_same operation ring cas
  rcases h with deep | ⟨raise, push, deep⟩ | ⟨o, mem, covers⟩
  · rcases (SnapshotPc.step_keeps bounded within operation cas).mono with mono | ⟨result, resets⟩
    · exact .reached (by rw [same.depth]; exact deep.trans mono)
    · refine .resetting _ (mem_resume_live found (by rw [resets]; exact List.mem_singleton_self _)) ?_
      trivial
  · exact .raising raise push (by rw [same.depth]; exact deep)
  · by_cases own : o = ((operation, pc), age)
    · subst own
      obtain ⟨goesOn, reached⟩ :=
        SnapshotPc.step_covers fits bounded within covers circle operation cas
      cases control : (pc.step operation ring cas).2 with
      | next pc' =>
        refine .resetting _ (mem_resume_live found (List.mem_singleton_self _)) ?_
        exact goesOn pc' control
      | ret result => exact .reached (by rw [same.depth]; exact reached result control)
    · exact .resetting o (mem_resume_of_ne _ found mem own) (covers.of_still same.tail same.depth)

end Covered

namespace Spsc

variable [NeZero capacity] {s t : Spsc w capacity F} {k : Choice F}

/-- How often the tail has moved since each observer began its latest depth sample. -/
def sampleAges (s : Spsc w capacity F) : Choice F → List ℕ → List ℕ
  | .snapshot _, ages => ages ++ [0]
  | .observer i cas, ages => match s.observers[i]? with
    | some (operation, pc) =>
      let age := if pc.startsSample then 0 else ages.getD i 0
      resume ages i ((pc.step operation s.ring cas).2.call (fun _ => age) .ret)
    | none => ages
  | k, ages => ages.map (· + s.takes k)

/-- Fewer than `2 ^ w` pops take place inside one depth sample. -/
def samplesWithin (p : Spsc w capacity F × List ℕ) : Choice F → Bool
  | .observer i _ => match p.1.observers[i]? with
    | some (_, pc) => !pc.endsSample || p.2.getD i 0 < 2 ^ w
    | none => true
  | _ => true

/-- One age for each observer, and a watermark that somebody looks after. -/
structure Tracked (p : Spsc w capacity F × List ℕ) : Prop where
  bounded : p.1.Bounded
  ages : p.2.length = p.1.observers.length
  covered : Covered p.1.ring p.1.producer (p.1.observers.zip p.2)

omit [NeZero capacity] in
theorem zip_getElem? {p : Spsc w capacity F × List ℕ} (h : p.2.length = p.1.observers.length)
    {i : ℕ} {o : StatisticsOperation × SnapshotPc w} (found : p.1.observers[i]? = some o) :
    (p.1.observers.zip p.2)[i]? = some (o, p.2.getD i 0) := by
  have within : i < p.2.length := by
    rw [h]
    exact (List.getElem?_eq_some_iff.mp found).1
  rw [List.getElem?_zip_eq_some, List.getD_eq_getElem?_getD, List.getElem?_eq_getElem within]
  exact ⟨found, rfl⟩

theorem next_tracked (small : capacity < 2 ^ w) (fits : capacity < 2 ^ 32)
    {p q : Spsc w capacity F × List ℕ} (h : Tracked p)
    (step : guarded samplesWithin (watched next sampleAges) p k = some q) : Tracked q := by
  obtain ⟨circle, step⟩ := guarded_eq_some.mp step
  obtain ⟨step, ages⟩ := watched_eq_some.mp step
  obtain ⟨s, marks⟩ := p
  obtain ⟨t, marks'⟩ := q
  obtain rfl : marks' = sampleAges s k marks := ages
  have bounded := next_bounded small h.bounded step
  have length := h.ages
  have covered := h.covered
  cases k with
  | push frame =>
    obtain ⟨free, step⟩ := Option.ite_none_right_eq_some.mp step
    obtain rfl := Option.some.inj step
    have still : sampleAges s (.push frame) marks = marks := by simp [sampleAges, takes]
    rw [still]
    refine ⟨bounded, length, covered.of_still rfl rfl (le_refl _) ?_ fun _ mem => mem⟩
    intro raise push
    rw [Option.isNone_iff_eq_none.mp free] at push
    cases push
  | producer cas =>
    obtain ⟨pc, hpc, rfl⟩ := Option.map_eq_some_iff.mp step
    have still : sampleAges s (.producer cas) marks = marks := by simp [sampleAges, takes]
    have level := h.bounded.level
    have raises := h.bounded.producer
    rw [Levelled, hpc] at level
    rw [hpc] at raises covered
    rw [still]
    exact ⟨bounded, length, covered.producer_step fits small level raises h.bounded.within cas⟩
  | pop =>
    obtain ⟨-, step⟩ := Option.ite_none_right_eq_some.mp step
    obtain rfl := Option.some.inj step
    have still : sampleAges s .pop marks = marks := by simp [sampleAges, takes]
    rw [still]
    exact ⟨bounded, length, covered.of_still rfl rfl (le_refl _) (fun _ => id) fun _ mem => mem⟩
  | consumer =>
    obtain ⟨pc, hpc, rfl⟩ := Option.map_eq_some_iff.mp step
    have popping : s.consumer = some pc := hpc
    have older : sampleAges s .consumer marks = marks.map (· + pc.takes) := by
      simp [sampleAges, takes, popping]
    have level := h.bounded.level
    rw [Levelled, hpc] at level
    rw [older]
    exact ⟨bounded, by simpa using length, covered.consumer_step level⟩
  | snapshot operation =>
    obtain rfl := Option.some.inj step
    refine ⟨bounded, by simpa [sampleAges] using length, ?_⟩
    refine covered.of_still rfl rfl (le_refl _) (fun _ => id) ?_
    intro o mem
    simp only [sampleAges, List.zip_append length.symm]
    exact List.mem_append_left _ mem
  | observer i cas =>
    obtain ⟨⟨operation, pc⟩, found, rfl⟩ := Option.map_eq_some_iff.mp step
    have paired := zip_getElem? length found
    have circle : pc.endsSample = true → marks.getD i 0 < 2 ^ w := by
      intro ends
      simpa [samplesWithin, found, ends] using circle
    have stepped := covered.observer_step fits paired (h.bounded.observers _ (List.mem_of_getElem? found))
      h.bounded.within circle cas
    have within : i < marks.length := by
      rw [length]
      exact (List.getElem?_eq_some_iff.mp found).1
    have aged : sampleAges s (.observer i cas) marks = resume marks i
        ((pc.step operation s.ring cas).2.call
          (fun _ => if pc.startsSample then 0 else marks.getD i 0) .ret) := by
      simp [sampleAges, found]
    rw [aged]
    generalize (if pc.startsSample then 0 else marks.getD i 0) = age at stepped ⊢
    have lengths := resume_length_eq length i
      ((pc.step operation s.ring cas).2.call (operation, ·) .ret) age
    have zipped := resume_zip s.observers marks i
      ((pc.step operation s.ring cas).2.call (operation, ·) .ret) age
    rw [Control.call_call] at lengths zipped
    rw [Control.call_call] at zipped
    refine ⟨bounded, lengths, ?_⟩
    rw [← zipped] at stepped
    exact stepped
  | record what n =>
    obtain rfl := Option.some.inj step
    have same := s.ring.record_same n what
    have still : sampleAges s (.record what n) marks = marks := by simp [sampleAges, takes]
    have watermark : (s.ring.record n what).queueHighWatermark = s.ring.queueHighWatermark := by
      cases what <;> rfl
    rw [still]
    refine ⟨bounded, length, covered.of_still same.tail same.depth ?_ (fun _ => id) fun _ mem => mem⟩
    show s.ring.queueHighWatermark.toNat ≤ (s.ring.record n what).queueHighWatermark.toNat
    rw [watermark]

/-- Every depth and every watermark is within the capacity, and whenever no push and no
reset is on its way to raise it, the watermark is not below the depth of the ring. -/
theorem watermark_covers_depth (small : capacity < 2 ^ w) {ring : FrameRing w capacity F}
    (empty : ring.head = ring.tail) (low : ring.queueHighWatermark.toNat ≤ capacity)
    {ks : List (Choice F)} {ages : List ℕ}
    (run : exec (guarded samplesWithin (watched next sampleAges)) (idle ring, []) ks =
      some (s, ages)) :
    s.ring.queueHighWatermark.toNat ≤ capacity ∧
      (∀ k, ∀ result ∈ s.reported k,
        result.queueDepth.toNat ≤ capacity ∧ result.queueHighWatermark.toNat ≤ capacity) ∧
      (capacity < 2 ^ 32 → (∀ pc, s.producer ≠ some (.updateWatermark pc)) →
        (∀ o ∈ s.observers, o.2.reconciles = false) →
        distance s.ring.head s.ring.tail ≤ s.ring.queueHighWatermark.toNat) := by
  have start : (idle ring).Bounded := idle_bounded empty low
  have bounded : s.Bounded := by
    refine exec_invariant (P := fun p : Spsc w capacity F × List ℕ => p.1.Bounded) ?_ run start
    intro p k q h step
    exact next_bounded small h (watched_eq_some.mp (guarded_eq_some.mp step).2).1
  refine ⟨bounded.within, fun k result => reported_bounded bounded, ?_⟩
  intro fits noPush noReset
  have tracked : Tracked (s, ages) := by
    refine exec_invariant (fun p k q h step => next_tracked small fits h step) run ?_
    refine ⟨start, rfl, .reached ?_⟩
    show distance ring.head ring.tail ≤ _
    rw [distance_eq_zero.mpr empty]
    exact Nat.zero_le _
  rcases tracked.covered with deep | ⟨raise, push, -⟩ | ⟨o, mem, covers⟩
  · exact deep
  · exact absurd push (noPush raise)
  · have idle := noReset o.1 (List.of_mem_zip mem).1
    generalize o.1.2 = pc at covers idle
    cases pc with
    | depth pc => exact covers.elim
    | counters remaining result => exact covers.elim
    | depthAfterReset pc result => cases idle
    | ensureWatermark pc result => cases idle

/-- A reset samples the empty ring; then a frame is pushed; then the reset ends. -/
def overtakenReset : List (Choice (BitVec 8)) :=
  .snapshot .snapshotAndReset :: List.replicate 3 (.observer 0 true) ++
    .push 7 :: List.replicate 8 (.producer true) ++ List.replicate 15 (.observer 0 true)

def overtaken : Spsc 32 64 (BitVec 8) × List ℕ :=
  final (guarded samplesWithin (watched next sampleAges)) (idle { frames := fun _ => 0 }, [])
    overtakenReset

theorem watermark_covers_depth_overtaken :
    overtaken.1.observers.length = 0 ∧
      distance overtaken.1.ring.head overtaken.1.ring.tail = 1 ∧
      1 ≤ overtaken.1.ring.queueHighWatermark.toNat := by
  have run := exec_eq_final (guarded samplesWithin (watched next sampleAges))
    ((idle { frames := fun _ => 0 } : Spsc 32 64 (BitVec 8)), []) overtakenReset (by decide)
  have none : overtaken.1.observers.length = 0 := by decide
  have resting : overtaken.1.producer.isNone = true := by decide
  have deep : distance overtaken.1.ring.head overtaken.1.ring.tail = 1 := by decide
  refine ⟨none, deep, ?_⟩
  rw [← deep]
  refine (watermark_covers_depth (by decide) rfl (by decide) run).2.2 (by decide) ?_ ?_
  · intro pc raising
    have raising : overtaken.1.producer = some (.updateWatermark pc) := raising
    rw [raising] at resting
    cases resting
  · intro o mem
    have mem : o ∈ overtaken.1.observers := mem
    rw [List.length_eq_zero_iff.mp none] at mem
    cases mem

end Spsc

end CanTelemetry.CanBus
