import CanTelemetry.CanBus.FrameRing
import CanTelemetry.Foundation.BoundedFifo

/-! The frame ring as a bounded queue. `Holds` says which queue the ring represents;
what the producer and the consumer know at each of their steps is stated beside it,
and one lemma for each side says which queue operation its step amounts to. -/

namespace CanTelemetry.CanBus

open Execution RingIndex Threads

variable {w capacity : ℕ} [NeZero capacity] {F : Type*}

namespace FrameRing

/-- The queued frames, oldest first. -/
def queued (ring : FrameRing w capacity F) : List F :=
  (List.range (distance ring.head ring.tail)).map fun j =>
    ring.frames (slot capacity (ring.tail + BitVec.ofNat w j))

/-- The ring represents `queue`, whose first frame is the one pushed at `position`. -/
structure Holds (ring : FrameRing w capacity F) (position : ℕ) (queue : List F) : Prop where
  head : ring.head = BitVec.ofNat w (position + queue.length)
  tail : ring.tail = BitVec.ofNat w position
  fits : queue.length ≤ capacity
  frames : ∀ j (h : j < queue.length),
    ring.frames (slot capacity (BitVec.ofNat w (position + j))) = queue[j]

namespace Holds

variable {ring ring' : FrameRing w capacity F} {position : ℕ} {queue : List F} {frame : F}

theorem of_same (h : ring.Holds position queue) (same : Same ring ring') :
    ring'.Holds position queue :=
  ⟨same.head.trans h.head, same.tail.trans h.tail, h.fits,
    fun j hj => (congrFun same.frames _).trans (h.frames j hj)⟩

theorem of_empty (empty : ring.head = ring.tail) : ring.Holds ring.tail.toNat [] := by
  refine ⟨?_, ?_, Nat.zero_le _, ?_⟩
  · simp [empty]
  · simp
  · intro j hj
    cases hj

theorem distance_eq (small : capacity < 2 ^ w) (h : ring.Holds position queue) :
    distance ring.head ring.tail = queue.length := by
  have fits := h.fits
  rw [h.head, h.tail, distance_index (by omega) (by omega)]
  omega

theorem queued_eq (small : capacity < 2 ^ w) (h : ring.Holds position queue) :
    ring.queued = queue := by
  apply List.ext_getElem
  · simp [queued, h.distance_eq small]
  · intro j hj hj'
    simp only [queued, List.getElem_map, List.getElem_range, h.tail]
    rw [← BitVec.ofNat_add]
    exact h.frames j hj'

theorem tail_eq_head_iff (small : capacity < 2 ^ w) (h : ring.Holds position queue) :
    ring.tail = ring.head ↔ queue = [] := by
  have fits := h.fits
  rw [h.head, h.tail, index_eq_iff (by omega) (by omega), ← List.length_eq_zero_iff]
  omega

/-- The slot at the head is not one of a queued frame. -/
theorem head_slot_free (divides : capacity ∣ 2 ^ w) (h : ring.Holds position queue)
    (room : queue.length < capacity) {j : ℕ} (hj : j < queue.length) :
    slot capacity (BitVec.ofNat w (position + j)) ≠ slot capacity ring.head := by
  rw [h.head]
  exact (slot_ne divides (by omega) (by omega)).symm

theorem write (divides : capacity ∣ 2 ^ w) (h : ring.Holds position queue)
    (room : queue.length < capacity) :
    { ring with frames := Function.update ring.frames (slot capacity ring.head) frame }.Holds
      position queue := by
  refine ⟨h.head, h.tail, h.fits, ?_⟩
  intro j hj
  show Function.update _ _ _ _ = _
  rw [Function.update_of_ne (h.head_slot_free divides room hj)]
  exact h.frames j hj

theorem publish (h : ring.Holds position queue) (room : queue.length < capacity)
    (written : ring.frames (slot capacity ring.head) = frame) :
    { ring with head := ring.head + 1 }.Holds position (queue ++ [frame]) := by
  refine ⟨?_, h.tail, ?_, ?_⟩
  · show ring.head + 1 = _
    rw [h.head, index_succ, List.length_append, List.length_singleton, Nat.add_assoc]
  · rw [List.length_append, List.length_singleton]
    omega
  · intro j hj
    rw [List.length_append, List.length_singleton] at hj
    by_cases old : j < queue.length
    · rw [List.getElem_append_left old]
      exact h.frames j old
    · obtain rfl : j = queue.length := by omega
      rw [List.getElem_concat_length rfl, ← written, ← h.head]

theorem advance (h : ring.Holds position (frame :: queue)) :
    { ring with tail := ring.tail + 1 }.Holds (position + 1) queue := by
  refine ⟨?_, ?_, ?_, ?_⟩
  · show ring.head = _
    rw [h.head, List.length_cons]
    congr 1
    omega
  · show ring.tail + 1 = _
    rw [h.tail, index_succ]
  · have fits := h.fits
    rw [List.length_cons] at fits
    omega
  · intro j hj
    have later := h.frames (j + 1) (by rw [List.length_cons]; omega)
    rw [List.getElem_cons_succ] at later
    rw [← later, Nat.add_assoc, Nat.add_comm 1 j]

theorem oldest (h : ring.Holds position (frame :: queue)) :
    ring.frames (slot capacity ring.tail) = frame := by
  rw [h.tail]
  exact h.frames 0 (by simp)

end Holds

end FrameRing

/-! ### What each side knows -/

/-- The producer's local head is current, and the room it saw is still there. -/
def PushPc.At (ring : FrameRing w capacity F) (queue : List F) : Option (PushPc w F) → Prop
  | some (.loadTail _ head) => head = ring.head
  | some (.writeSlot _ head _) => head = ring.head ∧ queue.length < capacity
  | some (.storeHead frame head _) =>
    head = ring.head ∧ queue.length < capacity ∧ ring.frames (slot capacity head) = frame
  | _ => True

/-- The consumer's local tail is current, and the frame it saw is still the oldest. -/
def PopPc.At (ring : FrameRing w capacity F) (queue : List F) : Option (PopPc w F) → Prop
  | some (.loadHead tail) => tail = ring.tail
  | some (.readSlot tail) => tail = ring.tail ∧ queue ≠ []
  | some (.storeTail frame tail) => tail = ring.tail ∧ queue.head? = some frame
  | _ => True

/-- A push that has not been told that there is room. -/
def PushPc.undecided : PushPc w F → Bool
  | .countReceived _ | .loadHead _ | .loadTail _ _ | .countDropped | .countOverflow => true
  | _ => false

/-- The queue operation that a step of a push amounts to. -/
def PushPc.ops (ring : FrameRing w capacity F) : PushPc w F → List (BoundedFifo.Op F)
  | .loadTail frame head => if distance head ring.tail ≥ capacity then [.refuse frame] else []
  | .storeHead frame _ _ => [.enqueue frame]
  | _ => []

/-- The queue operation that a step of a pop amounts to. -/
def PopPc.ops (ring : FrameRing w capacity F) : PopPc w F → List (BoundedFifo.Op F)
  | .loadHead tail => if tail = ring.head then [.miss] else []
  | .storeTail _ _ => [.dequeue]
  | _ => []

omit [NeZero capacity] in
theorem PushPc.ops_take_nothing (ring : FrameRing w capacity F) (queue : List F) (pc : PushPc w F) :
    trace (BoundedFifo.next capacity) BoundedFifo.left queue (pc.ops ring) = [] := by
  cases pc with
  | loadTail frame head =>
    by_cases full : distance head ring.tail ≥ capacity
    · simp only [PushPc.ops, if_pos full]
      exact trace_single _ _ _
    · simp only [PushPc.ops, if_neg full]
      rfl
  | storeHead frame head tail => exact trace_single _ _ _
  | _ => rfl

/-- The frame that a step of a pop takes out of the queue. -/
def PopPc.dequeued : PopPc w F → List F
  | .storeTail frame _ => [frame]
  | _ => []

/-- Ring, producer and consumer agree on the queue. -/
structure Agreement (ring : FrameRing w capacity F) (producer : Option (PushPc w F))
    (consumer : Option (PopPc w F)) (position : ℕ) (queue : List F) : Prop where
  holds : ring.Holds position queue
  producer : PushPc.At ring queue producer
  consumer : PopPc.At ring queue consumer

namespace Agreement

variable {ring ring' : FrameRing w capacity F} {producer : Option (PushPc w F)}
  {consumer : Option (PopPc w F)} {position : ℕ} {queue : List F}

theorem of_same (h : Agreement ring producer consumer position queue)
    (same : FrameRing.Same ring ring') : Agreement ring' producer consumer position queue := by
  refine ⟨h.holds.of_same same, ?_, ?_⟩
  · have known := h.producer
    unfold PushPc.At at known ⊢
    rw [same.head, same.frames]
    exact known
  · have known := h.consumer
    unfold PopPc.At at known ⊢
    rw [same.tail]
    exact known

theorem of_empty (empty : ring.head = ring.tail) :
    Agreement ring none none ring.tail.toNat [] :=
  ⟨.of_empty empty, trivial, trivial⟩

theorem begin_push (h : Agreement ring producer consumer position queue) (frame : F) :
    Agreement ring (some (.countReceived frame)) consumer position queue :=
  ⟨h.holds, trivial, h.consumer⟩

theorem begin_pop (h : Agreement ring producer consumer position queue) :
    Agreement ring producer (some .loadTail) position queue :=
  ⟨h.holds, h.producer, trivial⟩

/-- One step of the producer is at most one queue operation, the one it stands for. -/
theorem producer_step (small : capacity < 2 ^ w) (divides : capacity ∣ 2 ^ w)
    {pc : PushPc w F} (h : Agreement ring (some pc) consumer position queue) (cas : Bool) :
    ∃ queue', Agreement (pc.step ring cas).1 (pc.step ring cas).2.pc? consumer position queue' ∧
      exec (BoundedFifo.next capacity) queue (pc.ops ring) = some queue' := by
  have known := h.producer
  cases pc with
  | countReceived frame =>
    exact ⟨queue, ⟨h.holds.of_same (ring.count_same _ _), trivial, h.consumer⟩, rfl⟩
  | loadHead frame => exact ⟨queue, ⟨h.holds, rfl, h.consumer⟩, rfl⟩
  | loadTail frame head =>
    obtain rfl : head = ring.head := known
    refine ⟨queue, ⟨h.holds, ?_, h.consumer⟩, ?_⟩
    · by_cases full : distance ring.head ring.tail ≥ capacity
      · simp [PushPc.step, PushPc.At, full]
      · rw [h.holds.distance_eq small] at full
        simp [PushPc.step, PushPc.At, h.holds.distance_eq small, full]
        omega
    · by_cases full : distance ring.head ring.tail ≥ capacity
      · have refused : capacity ≤ queue.length := by
          rw [← h.holds.distance_eq small]
          exact full
        simp [PushPc.ops, full, exec, BoundedFifo.next, refused]
      · simp [PushPc.ops, full]
  | countDropped =>
    exact ⟨queue, ⟨h.holds.of_same (ring.count_same _ _), trivial, h.consumer⟩, rfl⟩
  | countOverflow =>
    exact ⟨queue, ⟨h.holds.of_same (ring.count_same _ _), trivial, h.consumer⟩, rfl⟩
  | writeSlot frame head tail =>
    obtain ⟨rfl, room⟩ : head = ring.head ∧ queue.length < capacity := known
    refine ⟨queue, ⟨h.holds.write divides room, ⟨rfl, room, ?_⟩, h.consumer⟩, rfl⟩
    exact Function.update_self _ _ _
  | storeHead frame head tail =>
    obtain ⟨rfl, room, written⟩ :
      head = ring.head ∧ queue.length < capacity ∧ ring.frames (slot capacity head) = frame := known
    refine ⟨queue ++ [frame], ⟨h.holds.publish room written, trivial, ?_⟩, ?_⟩
    · -- the consumer's knowledge is about the front of the queue, which stays
      have front := h.consumer
      unfold PopPc.At at front ⊢
      split
      · exact front
      · exact ⟨front.1, by simp⟩
      · exact ⟨front.1, by simp [front.2]⟩
      · trivial
    · simp [PushPc.ops, exec, BoundedFifo.next, room]
  | updateWatermark pc =>
    have same := pc.step_same ring cas
    refine ⟨queue, ⟨h.holds.of_same same, ?_, (h.of_same same).consumer⟩, rfl⟩
    show PushPc.At _ _ ((pc.step ring cas).2.call PushPc.updateWatermark _).pc?
    generalize (pc.step ring cas).2 = control
    cases control <;> trivial
  | countQueued =>
    exact ⟨queue, ⟨h.holds.of_same (ring.count_same _ _), trivial, h.consumer⟩, rfl⟩

/-- One step of the consumer is at most one queue operation, and the frame it takes is
the one the queue gives up. -/
theorem consumer_step (small : capacity < 2 ^ w) {pc : PopPc w F}
    (h : Agreement ring producer (some pc) position queue) :
    ∃ queue', Agreement (pc.step ring).1 producer (pc.step ring).2.pc?
        (position + pc.dequeued.length) queue' ∧
      exec (BoundedFifo.next capacity) queue (pc.ops ring) = some queue' ∧
      trace (BoundedFifo.next capacity) BoundedFifo.left queue (pc.ops ring) = pc.dequeued := by
  have known := h.consumer
  cases pc with
  | loadTail => exact ⟨queue, ⟨h.holds, h.producer, rfl⟩, rfl, rfl⟩
  | loadHead tail =>
    obtain rfl : tail = ring.tail := known
    refine ⟨queue, ?_⟩
    by_cases empty : ring.tail = ring.head
    · have none := (h.holds.tail_eq_head_iff small).mp empty
      simp only [PopPc.step, PopPc.ops, if_pos empty, none]
      refine ⟨⟨by rw [← none]; exact h.holds, by rw [← none]; exact h.producer, trivial⟩, rfl, rfl⟩
    · have some := mt (h.holds.tail_eq_head_iff small).mpr empty
      simp only [PopPc.step, PopPc.ops, if_neg empty]
      exact ⟨⟨h.holds, h.producer, rfl, some⟩, rfl, rfl⟩
  | readSlot tail =>
    obtain ⟨rfl, nonempty⟩ : tail = ring.tail ∧ queue ≠ [] := known
    obtain ⟨frame, rest, rfl⟩ := List.exists_cons_of_ne_nil nonempty
    refine ⟨frame :: rest, ⟨h.holds, h.producer, rfl, ?_⟩, rfl, rfl⟩
    rw [h.holds.oldest]
    rfl
  | storeTail frame tail =>
    obtain ⟨rfl, oldest⟩ : tail = ring.tail ∧ queue.head? = some frame := known
    obtain ⟨rest, rfl⟩ := List.head?_eq_some_iff.mp oldest
    refine ⟨rest, ⟨h.holds.advance, ?_, trivial⟩, rfl, rfl⟩
    have room := h.producer
    unfold PushPc.At at room ⊢
    split
    · exact room
    · exact ⟨room.1, by have shorter := room.2; rw [List.length_cons] at shorter; omega⟩
    · exact ⟨room.1, by have shorter := room.2.1; rw [List.length_cons] at shorter; omega, room.2.2⟩
    · trivial
  | countDelivered frame =>
    exact ⟨queue, ⟨h.holds.of_same (ring.count_same _ _), h.producer, trivial⟩, rfl, rfl⟩

end Agreement

end CanTelemetry.CanBus
