import CanTelemetry.CanBus.Spsc

/-! The number of queued frames, followed without the slots they lie in. What the two sides
know of it bounds it by the capacity whatever the capacity is; that the capacity divides
`2 ^ w` matters only for the frames themselves. -/

namespace CanTelemetry.CanBus

open Execution RingIndex Threads

variable {w capacity : ℕ} {F : Type*}

/-- The queue depth. -/
def FrameRing.depth (ring : FrameRing w capacity F) : ℕ := distance ring.head ring.tail

theorem FrameRing.Same.depth {ring ring' : FrameRing w capacity F} (same : Same ring ring') :
    ring'.depth = ring.depth := by
  rw [FrameRing.depth, same.head, same.tail, FrameRing.depth]

/-- The tail a push has loaded may only be behind the ring's. -/
def PushPc.Fits (ring : FrameRing w capacity F) : Option (PushPc w F) → Prop
  | some (.loadTail _ head) => head = ring.head
  | some (.writeSlot _ head tail) | some (.storeHead _ head tail) =>
    head = ring.head ∧ ring.depth ≤ distance head tail ∧ distance head tail < capacity
  | _ => True

def PopPc.Fits (ring : FrameRing w capacity F) : Option (PopPc w F) → Prop
  | some (.loadHead tail) => tail = ring.tail
  | some (.readSlot tail) | some (.storeTail _ tail) => tail = ring.tail ∧ 0 < ring.depth
  | _ => True

/-- The frames that the step of a push adds to the queue. -/
def PushPc.adds : PushPc w F → ℕ
  | .storeHead _ _ _ => 1
  | _ => 0

/-- The frames that the step of a pop takes out of it. -/
def PopPc.takes : PopPc w F → ℕ
  | .storeTail _ _ => 1
  | _ => 0

/-- The depth is within the capacity, and both sides know what they rely on. -/
structure Level (ring : FrameRing w capacity F) (producer : Option (PushPc w F))
    (consumer : Option (PopPc w F)) : Prop where
  within : ring.depth ≤ capacity
  producer : PushPc.Fits ring producer
  consumer : PopPc.Fits ring consumer

namespace Level

variable {ring ring' : FrameRing w capacity F} {producer : Option (PushPc w F)}
  {consumer : Option (PopPc w F)}

theorem of_same (h : Level ring producer consumer) (same : FrameRing.Same ring ring') :
    Level ring' producer consumer := by
  refine ⟨?_, ?_, ?_⟩
  · rw [same.depth]
    exact h.within
  · have known := h.producer
    unfold PushPc.Fits at known ⊢
    rw [same.head, same.depth]
    exact known
  · have known := h.consumer
    unfold PopPc.Fits at known ⊢
    rw [same.tail, same.depth]
    exact known

theorem of_empty (empty : ring.head = ring.tail) : Level ring none none := by
  refine ⟨?_, trivial, trivial⟩
  rw [FrameRing.depth, distance_eq_zero.mpr empty]
  exact Nat.zero_le _

variable [NeZero capacity]

theorem producer_step (small : capacity < 2 ^ w) {pc : PushPc w F}
    (h : Level ring (some pc) consumer) (cas : Bool) :
    Level (pc.step ring cas).1 (pc.step ring cas).2.pc? consumer ∧
      (pc.step ring cas).1.depth = ring.depth + pc.adds := by
  have known := h.producer
  have front (counter : Counter) : PopPc.Fits (ring.count counter) consumer :=
    (h.of_same (ring.count_same counter 1)).consumer
  cases pc with
  | countReceived frame => exact ⟨⟨h.within, trivial, front _⟩, rfl⟩
  | loadHead frame => exact ⟨⟨h.within, rfl, h.consumer⟩, rfl⟩
  | loadTail frame head =>
    obtain rfl : head = ring.head := known
    refine ⟨⟨h.within, ?_, h.consumer⟩, rfl⟩
    by_cases full : distance ring.head ring.tail ≥ capacity
    · simp only [PushPc.step, if_pos full]
      trivial
    · simp only [PushPc.step, if_neg full]
      exact ⟨rfl, le_refl _, Nat.lt_of_not_le full⟩
  | countDropped => exact ⟨⟨h.within, trivial, front _⟩, rfl⟩
  | countOverflow => exact ⟨⟨h.within, trivial, front _⟩, rfl⟩
  | writeSlot frame head tail => exact ⟨⟨h.within, known, h.consumer⟩, rfl⟩
  | storeHead frame head tail =>
    obtain ⟨rfl, behind, room⟩ : head = ring.head ∧ ring.depth ≤ distance head tail ∧
      distance head tail < capacity := known
    have deeper : distance (ring.head + 1) ring.tail = ring.depth + 1 :=
      distance_head_succ (by rw [FrameRing.depth] at behind; omega)
    refine ⟨⟨?_, trivial, ?_⟩, deeper⟩
    · show distance (ring.head + 1) ring.tail ≤ capacity
      omega
    · have reading := h.consumer
      unfold PopPc.Fits at reading ⊢
      split
      · exact reading
      · exact ⟨reading.1, by show 0 < distance (ring.head + 1) ring.tail; omega⟩
      · exact ⟨reading.1, by show 0 < distance (ring.head + 1) ring.tail; omega⟩
      · trivial
  | updateWatermark pc =>
    have same := pc.step_same ring cas
    refine ⟨⟨(h.of_same same).within, ?_, (h.of_same same).consumer⟩, same.depth⟩
    show PushPc.Fits _ ((pc.step ring cas).2.call PushPc.updateWatermark _).pc?
    generalize (pc.step ring cas).2 = control
    cases control <;> trivial
  | countQueued => exact ⟨⟨h.within, trivial, front _⟩, rfl⟩

theorem consumer_step {pc : PopPc w F} (h : Level ring producer (some pc)) :
    Level (pc.step ring).1 producer (pc.step ring).2.pc? ∧
      ring.depth = (pc.step ring).1.depth + pc.takes := by
  have known := h.consumer
  cases pc with
  | loadTail => exact ⟨⟨h.within, h.producer, rfl⟩, rfl⟩
  | loadHead tail =>
    obtain rfl : tail = ring.tail := known
    refine ⟨⟨h.within, h.producer, ?_⟩, rfl⟩
    by_cases empty : ring.tail = ring.head
    · simp only [PopPc.step, if_pos empty]
      trivial
    · simp only [PopPc.step, if_neg empty]
      exact ⟨rfl, Nat.pos_of_ne_zero fun zero => empty (distance_eq_zero.mp zero).symm⟩
  | readSlot tail => exact ⟨⟨h.within, h.producer, known⟩, rfl⟩
  | storeTail frame tail =>
    obtain ⟨rfl, nonempty⟩ : tail = ring.tail ∧ 0 < ring.depth := known
    have shallower : ring.depth = distance ring.head (ring.tail + 1) + 1 :=
      distance_tail_succ nonempty
    have within := h.within
    refine ⟨⟨?_, ?_, trivial⟩, shallower⟩
    · show distance ring.head (ring.tail + 1) ≤ capacity
      omega
    · have room := h.producer
      unfold PushPc.Fits at room ⊢
      split
      · exact room
      · refine ⟨room.1, ?_, room.2.2⟩
        show distance ring.head (ring.tail + 1) ≤ _
        have behind := room.2.1
        omega
      · refine ⟨room.1, ?_, room.2.2⟩
        show distance ring.head (ring.tail + 1) ≤ _
        have behind := room.2.1
        omega
      · trivial
  | countDelivered frame =>
    exact ⟨⟨h.within, (h.of_same (ring.count_same _ _)).producer, trivial⟩, rfl⟩

end Level

namespace Spsc

variable [NeZero capacity] {s t : Spsc w capacity F} {k : Choice F}

abbrev Levelled (s : Spsc w capacity F) : Prop := Level s.ring s.producer s.consumer

/-- The frames that a step adds to the queue. -/
def adds (s : Spsc w capacity F) : Choice F → ℕ
  | .producer _ => (s.producer.map PushPc.adds).getD 0
  | _ => 0

/-- The frames that a step takes out of it. -/
def takes (s : Spsc w capacity F) : Choice F → ℕ
  | .consumer => (s.consumer.map PopPc.takes).getD 0
  | _ => 0

omit [NeZero capacity] in
theorem idle_levelled {ring : FrameRing w capacity F} (empty : ring.head = ring.tail) :
    (idle ring).Levelled := .of_empty empty

/-- The depth is what the pushes have added and the pops have not taken. -/
theorem next_levelled (small : capacity < 2 ^ w) (h : s.Levelled) (step : next s k = some t) :
    t.Levelled ∧ s.ring.depth + s.adds k = s.takes k + t.ring.depth := by
  cases k with
  | push frame =>
    obtain ⟨-, step⟩ := Option.ite_none_right_eq_some.mp step
    obtain rfl := Option.some.inj step
    exact ⟨⟨h.within, trivial, h.consumer⟩, Nat.add_comm _ _⟩
  | producer cas =>
    obtain ⟨pc, hpc, rfl⟩ := Option.map_eq_some_iff.mp step
    rw [Levelled, hpc] at h
    obtain ⟨level, deeper⟩ := h.producer_step small cas
    refine ⟨level, ?_⟩
    simp only [adds, takes, hpc, Option.map_some, Option.getD_some]
    omega
  | pop =>
    obtain ⟨-, step⟩ := Option.ite_none_right_eq_some.mp step
    obtain rfl := Option.some.inj step
    exact ⟨⟨h.within, h.producer, trivial⟩, Nat.add_comm _ _⟩
  | consumer =>
    obtain ⟨pc, hpc, rfl⟩ := Option.map_eq_some_iff.mp step
    rw [Levelled, hpc] at h
    obtain ⟨level, shallower⟩ := h.consumer_step
    refine ⟨level, ?_⟩
    simp only [adds, takes, hpc, Option.map_some, Option.getD_some]
    omega
  | snapshot operation =>
    obtain rfl := Option.some.inj step
    exact ⟨h, Nat.add_comm _ _⟩
  | observer i cas =>
    obtain ⟨⟨operation, pc⟩, -, rfl⟩ := Option.map_eq_some_iff.mp step
    have same := pc.step_same operation s.ring cas
    refine ⟨h.of_same same, ?_⟩
    simp only [adds, takes, same.depth]
    omega
  | record what n =>
    obtain rfl := Option.some.inj step
    have same := s.ring.record_same n what
    refine ⟨h.of_same same, ?_⟩
    simp only [adds, takes, same.depth]
    omega

end Spsc

end CanTelemetry.CanBus
