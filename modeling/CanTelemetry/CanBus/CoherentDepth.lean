import CanTelemetry.CanBus.Watermark

/-! `coherent_depth` as one atomic read. A monitor beside the run counts the queued frames
and notes, for each observer, how many of them there were at its latest read of the head.
A turn whose two reads of the tail agree returns that number: the tail cannot have come
back to its place with fewer than `2 ^ w` pops in between. -/

namespace CanTelemetry.CanBus

open Execution RingIndex Threads

variable {w capacity : ℕ} {F : Type*}

/-- What the monitor remembers of one observer: how often the tail has moved since the first
read of its turn, and how many frames were queued at its latest read of the head. -/
structure SampleMark where
  age : ℕ := 0
  depth : ℕ := 0

/-- The mark after a step of its own observer, with `queued` frames in the queue. -/
def SnapshotPc.marked (pc : SnapshotPc w) (queued : ℕ) (mark : SampleMark) : SampleMark :=
  match pc.sampling with
  | some .loadTailBefore => { mark with age := 0 }
  | some (.loadHead _) => { mark with depth := queued }
  | _ => mark

/-- The number of frames published and not yet taken out, and a mark for each observer. -/
structure DepthRecord where
  queued : ℕ := 0
  marks : List SampleMark := []

/-- What an observer relies on within a turn. -/
def DepthPc.Recalls (ring : FrameRing w capacity F) (mark : SampleMark) : DepthPc w → Prop
  | .loadTailBefore => True
  | .loadHead tailBefore => ring.tail = tailBefore + BitVec.ofNat w mark.age
  | .loadTailAfter tailBefore head =>
    ring.tail = tailBefore + BitVec.ofNat w mark.age ∧
      (mark.age = 0 → distance head tailBefore = mark.depth ∧ mark.depth ≤ capacity)

def SnapshotPc.Recalls (ring : FrameRing w capacity F) (mark : SampleMark) (pc : SnapshotPc w) :
    Prop :=
  ∀ sample, pc.sampling = some sample → sample.Recalls ring mark

section Turn

variable {ring ring' : FrameRing w capacity F} {mark : SampleMark}

theorem DepthPc.Recalls.of_still {pc : DepthPc w} (h : pc.Recalls ring mark)
    (tail : ring'.tail = ring.tail) : pc.Recalls ring' mark := by
  cases pc with
  | loadTailBefore => trivial
  | loadHead tailBefore => exact tail.trans h
  | loadTailAfter tailBefore head => exact ⟨tail.trans h.1, h.2⟩

/-- A pop that moves the tail makes the turn one older. -/
theorem DepthPc.Recalls.older {pc : DepthPc w} (h : pc.Recalls ring mark)
    (tail : ring'.tail = ring.tail + 1) :
    pc.Recalls ring' { mark with age := mark.age + 1 } := by
  have moved (tailBefore : BitVec w)
      (known : ring.tail = tailBefore + BitVec.ofNat w mark.age) :
      ring'.tail = tailBefore + BitVec.ofNat w (mark.age + 1) := by
    rw [tail, known, ← index_succ, add_assoc]
  cases pc with
  | loadTailBefore => trivial
  | loadHead tailBefore => exact moved tailBefore h
  | loadTailAfter tailBefore head => exact ⟨moved tailBefore h.1, by simp⟩

end Turn

namespace Spsc

variable [NeZero capacity] {s t : Spsc w capacity F} {k : Choice F}

/-- The monitor: it sees a step in the state it is made in. -/
def recorded (s : Spsc w capacity F) : Choice F → DepthRecord → DepthRecord
  | .snapshot _, m => { m with marks := m.marks ++ [{}] }
  | .observer i cas, m => match s.observers[i]? with
    | some (operation, pc) =>
      { m with marks := resume m.marks i ((pc.step operation s.ring cas).2.call
          (fun _ => pc.marked m.queued (m.marks.getD i {})) .ret) }
    | none => m
  | k, m =>
    { queued := m.queued + s.adds k - s.takes k
      marks := m.marks.map fun mark => { mark with age := mark.age + s.takes k } }

/-- The count is the depth of the ring, and every observer relies on its own mark. -/
structure Recalled (p : Spsc w capacity F × DepthRecord) : Prop where
  level : p.1.Levelled
  queued : p.2.queued = p.1.ring.depth
  marks : p.2.marks.length = p.1.observers.length
  recalls : ∀ o ∈ p.1.observers.zip p.2.marks, o.1.2.Recalls p.1.ring o.2

/-- What a step that is no observer's does to the tail. -/
theorem next_tail (level : s.Levelled) (step : next s k = some t)
    (apart : ∀ operation, k ≠ .snapshot operation) (apart' : ∀ i cas, k ≠ .observer i cas) :
    t.observers = s.observers ∧
      ((s.takes k = 0 ∧ t.ring.tail = s.ring.tail) ∨
        (s.takes k = 1 ∧ t.ring.tail = s.ring.tail + 1)) := by
  cases k with
  | push frame =>
    obtain ⟨-, step⟩ := Option.ite_none_right_eq_some.mp step
    obtain rfl := Option.some.inj step
    exact ⟨rfl, .inl ⟨rfl, rfl⟩⟩
  | producer cas =>
    obtain ⟨pc, -, rfl⟩ := Option.map_eq_some_iff.mp step
    refine ⟨rfl, .inl ⟨rfl, ?_⟩⟩
    cases pc with
    | updateWatermark pc => exact (pc.step_same s.ring cas).tail
    | _ => rfl
  | pop =>
    obtain ⟨-, step⟩ := Option.ite_none_right_eq_some.mp step
    obtain rfl := Option.some.inj step
    exact ⟨rfl, .inl ⟨rfl, rfl⟩⟩
  | consumer =>
    obtain ⟨pc, hpc, rfl⟩ := Option.map_eq_some_iff.mp step
    refine ⟨rfl, ?_⟩
    cases pc with
    | storeTail frame tail =>
      have known := level.consumer
      rw [hpc] at known
      obtain rfl : tail = s.ring.tail := known.1
      exact .inr ⟨by simp [takes, hpc, PopPc.takes], rfl⟩
    | _ => exact .inl ⟨by simp [takes, hpc, PopPc.takes], rfl⟩
  | snapshot operation => exact absurd rfl (apart operation)
  | observer i cas => exact absurd rfl (apart' i cas)
  | record what n =>
    obtain rfl := Option.some.inj step
    exact ⟨rfl, .inl ⟨rfl, (s.ring.record_same n what).tail⟩⟩

/-- Pushes, pops and records: the marks age with the tail. -/
theorem Recalled.aged {m : DepthRecord} (h : Recalled (s, m)) (step : next s k = some t)
    (apart : ∀ operation, k ≠ .snapshot operation) (apart' : ∀ i cas, k ≠ .observer i cas) :
    ∀ o ∈ t.observers.zip (m.marks.map fun mark => { mark with age := mark.age + s.takes k }),
      o.1.2.Recalls t.ring o.2 := by
  obtain ⟨same, tail⟩ := next_tail h.level step apart apart'
  rw [same, List.zip_map_right]
  intro aged mem
  obtain ⟨o, known, rfl⟩ := List.mem_map.mp mem
  intro sample sampling
  have known := h.recalls o known sample sampling
  rcases tail with ⟨none, still⟩ | ⟨one, moved⟩
  · simp only [Prod.map_snd, none, Nat.add_zero]
    exact known.of_still still
  · simp only [Prod.map_snd, one]
    exact known.older moved

/-- An observer reads the tail; a frame is pushed; it reads the head; another is pushed. -/
def overtakenTurn : List (Choice (BitVec 8)) :=
  .snapshot .snapshot :: .observer 0 true :: .push 7 :: List.replicate 5 (.producer true) ++
    .observer 0 true :: List.replicate 3 (.producer true) ++
    .push 8 :: List.replicate 5 (.producer true)

def pushing : Spsc 32 16 (BitVec 8) × DepthRecord :=
  final (watched next recorded) (idle { frames := fun _ => 0#8 }, {}) overtakenTurn

end Spsc

end CanTelemetry.CanBus
