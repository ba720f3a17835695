import CanTelemetry.CanBus.RingQueue

/-! The ring in use: one producer calling push, one consumer calling pop, any number of
threads taking statistics, and the record operations. Every run refines the bounded
queue, also past the wraparound of the indices. -/

namespace CanTelemetry.CanBus

open Execution RingIndex Threads

variable {w capacity : ℕ} {F : Type*}

/-- The operations that only count something. -/
inductive Recorded
  | busError | driverRxMissed | controllerReset | busOff
  deriving DecidableEq, Repr

def FrameRing.record (ring : FrameRing w capacity F) (n : BitVec 64) :
    Recorded → FrameRing w capacity F
  | .busError => ring.recordBusError n
  | .driverRxMissed => ring.recordDriverRxMissed n
  | .controllerReset => ring.recordControllerReset n
  | .busOff => ring.recordBusOff n

theorem FrameRing.record_same (ring : FrameRing w capacity F) (n : BitVec 64) (what : Recorded) :
    Same ring (ring.record n what) := by
  cases what <;> exact ring.count_same _ _

/-- A push that has stored the head. -/
def PushPc.stored : PushPc w F → Bool
  | .updateWatermark _ | .countQueued => true
  | _ => false

structure Spsc (w capacity : ℕ) (F : Type*) where
  ring : FrameRing w capacity F
  producer : Option (PushPc w F) := none
  consumer : Option (PopPc w F) := none
  observers : List (StatisticsOperation × SnapshotPc w) := []

namespace Spsc

/-- A ring on which no operation is in progress. -/
def idle (ring : FrameRing w capacity F) : Spsc w capacity F := { ring := ring }

inductive Choice (F : Type*)
  | push (frame : F)
  | producer (cas : Bool)
  | pop
  | consumer
  | snapshot (operation : StatisticsOperation)
  | observer (i : ℕ) (cas : Bool)
  | record (what : Recorded) (n : BitVec 64)
  deriving DecidableEq

def Choice.isPush : Choice F → Bool
  | .push _ => true
  | _ => false

variable [NeZero capacity]

def next (s : Spsc w capacity F) : Choice F → Option (Spsc w capacity F)
  | .push frame =>
    if s.producer.isNone then some { s with producer := some (.countReceived frame) } else none
  | .producer cas => s.producer.map fun pc =>
    { s with ring := (pc.step s.ring cas).1, producer := (pc.step s.ring cas).2.pc? }
  | .pop => if s.consumer.isNone then some { s with consumer := some .loadTail } else none
  | .consumer => s.consumer.map fun pc =>
    { s with ring := (pc.step s.ring).1, consumer := (pc.step s.ring).2.pc? }
  | .snapshot operation =>
    some { s with observers := s.observers ++ [(operation, .depth .loadTailBefore)] }
  | .observer i cas => s.observers[i]?.map fun (operation, pc) =>
    { s with
      ring := (pc.step operation s.ring cas).1
      observers := resume s.observers i ((pc.step operation s.ring cas).2.call (operation, ·) .ret) }
  | .record what n => some { s with ring := s.ring.record n what }

/-! ### What a run shows -/

/-- The queue operations of a step. -/
def ops (s : Spsc w capacity F) : Choice F → List (BoundedFifo.Op F)
  | .producer _ => (s.producer.map (·.ops s.ring)).getD []
  | .consumer => (s.consumer.map (·.ops s.ring)).getD []
  | _ => []

/-- The frame that a step of a push publishes. -/
def published (s : Spsc w capacity F) : Choice F → List F
  | .producer _ => match s.producer with
    | some (.storeHead frame _ _) => [frame]
    | _ => []
  | _ => []

/-- The frame that a step of a pop releases from the ring. -/
def dequeued (s : Spsc w capacity F) : Choice F → List F
  | .consumer => (s.consumer.map PopPc.dequeued).getD []
  | _ => []

/-- The frame that a successful pop returns. -/
def returned (s : Spsc w capacity F) : Choice F → List F
  | .consumer => match s.consumer with
    | some pc => ((pc.step s.ring).2.value?.join).toList
    | none => []
  | _ => []

/-- The slot a push is about to write. -/
def writes (s : Spsc w capacity F) : Option (Fin capacity) :=
  match s.producer with
  | some (.writeSlot _ head _) => some (slot capacity head)
  | _ => none

/-- The slot a pop is reading, or is about to read once it finds the ring not empty. -/
def reads (s : Spsc w capacity F) : Option (Fin capacity) :=
  match s.consumer with
  | some (.loadHead tail) => if tail = s.ring.head then none else some (slot capacity tail)
  | some (.readSlot tail) => some (slot capacity tail)
  | _ => none

/-- The step that makes a push return false. -/
def rejects (s : Spsc w capacity F) : Choice F → Bool
  | .producer cas => match s.producer with
    | some pc => (pc.step s.ring cas).2.value? = some false
    | none => false
  | _ => false

/-- The frame that a push is called with. -/
def offered (_ : Spsc w capacity F) : Choice F → List F
  | .push frame => [frame]
  | _ => []

/-- What a push returns. -/
def answered (s : Spsc w capacity F) : Choice F → List Bool
  | .producer cas => match s.producer with
    | some pc => (pc.step s.ring cas).2.value?.toList
    | none => []
  | _ => []

/-- The answer that a push in progress is bound to give: true, once it has stored the head. -/
def bound (s : Spsc w capacity F) : List Bool :=
  match s.producer with
  | some pc => if pc.stored then [true] else []
  | none => []

/-- The arguments of the pushes whose answer is true; the answers are in the order of
the calls. -/
def admitted (frames : List F) (answers : List Bool) : List F :=
  ((frames.zip answers).filter (·.2)).map (·.1)

/-- The system represents `queue` with everything its threads know. -/
abbrev Represents (s : Spsc w capacity F) (position : ℕ) (queue : List F) : Prop :=
  Agreement s.ring s.producer s.consumer position queue

variable {s t u : Spsc w capacity F} {k : Choice F} {ks : List (Choice F)} {position : ℕ}
  {queue : List F}

theorem idle_represents {ring : FrameRing w capacity F} (empty : ring.head = ring.tail) :
    (idle ring).Represents ring.tail.toNat [] := .of_empty empty

theorem next_represents (small : capacity < 2 ^ w) (divides : capacity ∣ 2 ^ w)
    (agree : s.Represents position queue) (step : next s k = some t) :
    ∃ queue', t.Represents (position + (dequeued s k).length) queue' ∧
      exec (BoundedFifo.next capacity) queue (ops s k) = some queue' ∧
      trace (BoundedFifo.next capacity) BoundedFifo.left queue (ops s k) = dequeued s k := by
  cases k with
  | push frame =>
    obtain ⟨-, step⟩ := Option.ite_none_right_eq_some.mp step
    obtain rfl := Option.some.inj step
    exact ⟨queue, agree.begin_push frame, rfl, rfl⟩
  | producer cas =>
    obtain ⟨pc, hpc, rfl⟩ := Option.map_eq_some_iff.mp step
    rw [Represents, hpc] at agree
    obtain ⟨queue', agree', run⟩ := agree.producer_step small divides cas
    refine ⟨queue', agree', ?_, ?_⟩
    · simpa [ops, hpc] using run
    · simpa [ops, dequeued, hpc] using pc.ops_take_nothing s.ring queue
  | pop =>
    obtain ⟨-, step⟩ := Option.ite_none_right_eq_some.mp step
    obtain rfl := Option.some.inj step
    exact ⟨queue, agree.begin_pop, rfl, rfl⟩
  | consumer =>
    obtain ⟨pc, hpc, rfl⟩ := Option.map_eq_some_iff.mp step
    rw [Represents, hpc] at agree
    obtain ⟨queue', agree', run, taken⟩ := agree.consumer_step small
    refine ⟨queue', ?_, ?_, ?_⟩
    · simpa [dequeued, hpc] using agree'
    · simpa [ops, hpc] using run
    · simpa [ops, dequeued, hpc] using taken
  | snapshot operation =>
    obtain rfl := Option.some.inj step
    exact ⟨queue, agree, rfl, rfl⟩
  | observer i cas =>
    obtain ⟨⟨operation, pc⟩, -, rfl⟩ := Option.map_eq_some_iff.mp step
    exact ⟨queue, agree.of_same (pc.step_same operation s.ring cas), rfl, rfl⟩
  | record what n =>
    obtain rfl := Option.some.inj step
    exact ⟨queue, agree.of_same (s.ring.record_same n what), rfl, rfl⟩

/-- Every run of the ring is a run of the bounded queue with the same frames taken out. -/
theorem exec_represents (small : capacity < 2 ^ w) (divides : capacity ∣ 2 ^ w)
    (h : s.Represents position queue) (run : exec next s ks = some t) :
    ∃ queue', t.Represents (position + (trace next dequeued s ks).length) queue' ∧
      exec (BoundedFifo.next capacity) queue (trace next ops s ks) = some queue' ∧
      trace (BoundedFifo.next capacity) BoundedFifo.left queue (trace next ops s ks) =
        trace next dequeued s ks := by
  induction ks generalizing s position queue with
  | nil =>
    obtain rfl := Option.some.inj run
    exact ⟨queue, h, rfl, rfl⟩
  | cons k ks ih =>
    obtain ⟨u, step, run⟩ := exec_cons_eq_some.mp run
    obtain ⟨middle, hu, first, taken⟩ := next_represents small divides h step
    obtain ⟨queue', ht, rest, later⟩ := ih hu run
    refine ⟨queue', ?_, ?_, ?_⟩
    · rw [trace_cons step, List.length_append, ← Nat.add_assoc]
      exact ht
    · rw [trace_cons step]
      exact exec_trans first rest
    · rw [trace_cons step, trace_cons step, trace_append first, taken, later]

/-! ### Frames in and frames out -/

/-- A frame that was released from the ring and not returned yet. -/
def pending (s : Spsc w capacity F) : List F :=
  match s.consumer with
  | some (.countDelivered frame) => [frame]
  | _ => []

theorem next_returned (step : next s k = some t) :
    pending s ++ dequeued s k = returned s k ++ pending t := by
  cases k with
  | consumer =>
    obtain ⟨pc, hpc, rfl⟩ := Option.map_eq_some_iff.mp step
    cases pc with
    | loadHead tail =>
      by_cases empty : tail = s.ring.head <;>
        simp [pending, dequeued, returned, hpc, PopPc.step, PopPc.dequeued, empty]
    | _ => simp [pending, dequeued, returned, hpc, PopPc.step, PopPc.dequeued]
  | pop =>
    obtain ⟨free, step⟩ := Option.ite_none_right_eq_some.mp step
    obtain rfl := Option.some.inj step
    simp [pending, dequeued, returned, Option.isNone_iff_eq_none.mp free]
  | push frame =>
    obtain ⟨-, step⟩ := Option.ite_none_right_eq_some.mp step
    obtain rfl := Option.some.inj step
    simp [pending, dequeued, returned]
  | producer cas =>
    obtain ⟨pc, -, rfl⟩ := Option.map_eq_some_iff.mp step
    simp [pending, dequeued, returned]
  | snapshot operation =>
    obtain rfl := Option.some.inj step
    simp [pending, dequeued, returned]
  | observer i cas =>
    obtain ⟨⟨operation, pc⟩, -, rfl⟩ := Option.map_eq_some_iff.mp step
    simp [pending, dequeued, returned]
  | record what n =>
    obtain rfl := Option.some.inj step
    simp [pending, dequeued, returned]

omit [NeZero capacity] in
theorem entered_ops (s : Spsc w capacity F) (k : Choice F) :
    (ops s k).flatMap BoundedFifo.entered = published s k := by
  cases k with
  | producer cas =>
    cases hpc : s.producer with
    | none => simp [ops, published, hpc]
    | some pc =>
      cases pc with
      | loadTail frame head =>
        by_cases full : distance head s.ring.tail ≥ capacity <;>
          simp [ops, published, hpc, PushPc.ops, full, BoundedFifo.entered]
      | _ => simp [ops, published, hpc, PushPc.ops, BoundedFifo.entered]
  | consumer =>
    cases hpc : s.consumer with
    | none => simp [ops, published, hpc]
    | some pc =>
      cases pc with
      | loadHead tail =>
        by_cases empty : tail = s.ring.head <;>
          simp [ops, published, hpc, PopPc.ops, empty, BoundedFifo.entered]
      | _ => simp [ops, published, hpc, PopPc.ops, BoundedFifo.entered]
  | _ => rfl

theorem entered_trace (s : Spsc w capacity F) (ks : List (Choice F)) :
    (trace next ops s ks).flatMap BoundedFifo.entered = trace next published s ks := by
  rw [trace_flatMap]
  congr 1
  funext s k
  exact entered_ops s k

/-- The frames returned by successful pops, against those published. -/
theorem returned_prefix_published (small : capacity < 2 ^ w) (divides : capacity ∣ 2 ^ w)
    (h : s.Represents position []) (consumer : s.consumer = none) (run : exec next s ks = some t) :
    trace next returned s ks <+: trace next published s ks := by
  obtain ⟨queue, -, fifo, taken⟩ := exec_represents small divides h run
  have into : trace next returned s ks <+: trace next dequeued s ks := by
    have balance := trace_balance (fun _ _ _ => next_returned) run
    have nothing : pending s = [] := by simp [pending, consumer]
    rw [nothing, List.nil_append] at balance
    rw [balance]
    exact List.prefix_append _ _
  have out := BoundedFifo.left_prefix_entered fifo
  rw [taken, entered_trace] at out
  exact into.trans out

/-- The slot being written is neither the consumer's nor that of any queued frame. -/
theorem writes_free (divides : capacity ∣ 2 ^ w) (h : s.Represents position queue) {i : Fin capacity}
    (writing : s.writes = some i) :
    s.reads ≠ some i ∧ ∀ j < queue.length, slot capacity (s.ring.tail + BitVec.ofNat w j) ≠ i := by
  have known := h.producer
  have front := h.consumer
  unfold writes at writing
  split at writing
  case h_2 => cases writing
  case h_1 frame head tail hp =>
    obtain rfl := Option.some.inj writing
    rw [hp] at known
    obtain ⟨rfl, room⟩ := known
    have free : ∀ j < queue.length,
        slot capacity (s.ring.tail + BitVec.ofNat w j) ≠ slot capacity s.ring.head := by
      intro j hj
      rw [h.holds.tail, ← BitVec.ofNat_add]
      exact h.holds.head_slot_free divides room hj
    refine ⟨?_, free⟩
    intro reading
    unfold reads at reading
    have first : queue ≠ [] → slot capacity s.ring.tail ≠ slot capacity s.ring.head := by
      intro nonempty
      have oldest := free 0 (List.length_pos_iff.mpr nonempty)
      simpa using oldest
    split at reading
    case h_1 tail' hc =>
      rw [hc] at front
      obtain rfl := front
      split at reading
      · cases reading
      · rename_i apart
        have nonempty : queue ≠ [] := by
          rintro rfl
          exact apart (by simp [h.holds.head, h.holds.tail])
        exact first nonempty (Option.some.inj reading)
    case h_2 tail' hc =>
      rw [hc] at front
      obtain ⟨rfl, nonempty⟩ := front
      exact first nonempty (Option.some.inj reading)
    case h_3 => cases reading

/-! ### Calls and answers -/

theorem admitted_concat {frames : List F} {answers : List Bool}
    (paired : frames.length = answers.length) (frame : F) (answer : Bool) :
    admitted (frames ++ [frame]) (answers ++ [answer]) =
      admitted frames answers ++ if answer then [frame] else [] := by
  unfold admitted
  rw [List.zip_append paired, List.filter_append, List.map_append]
  cases answer <;> rfl

/-- A call without an answer does not count. -/
theorem admitted_unanswered {frames : List F} {answers : List Bool}
    (paired : frames.length = answers.length) (frame : F) :
    admitted (frames ++ [frame]) answers = admitted frames answers := by
  have same : (frames ++ [frame]).zip (answers ++ []) = frames.zip answers ++ [frame].zip [] :=
    List.zip_append paired
  rw [List.append_nil, List.zip_nil_right, List.append_nil] at same
  rw [admitted, same, admitted]

end Spsc

namespace PushPc

/-- What a push in progress knows of its argument. -/
def Serves (frame : F) : PushPc w F → Prop
  | .countReceived own | .loadHead own | .loadTail own _ | .writeSlot own _ _
  | .storeHead own _ _ => own = frame
  | _ => True

/-- What a push has published of its argument so far. -/
def made (frame : F) (pc : PushPc w F) : List F :=
  if pc.stored then [frame] else []

/-- The frame that the step at a program counter publishes. -/
def publishes : PushPc w F → List F
  | .storeHead frame _ _ => [frame]
  | _ => []

/-- A push publishes its own argument, once, and exactly if it returns true. -/
theorem step_publishes [NeZero capacity] {frame : F} (pc : PushPc w F) (serves : pc.Serves frame)
    (ring : FrameRing w capacity F) (cas : Bool) :
    (∀ pc', (pc.step ring cas).2 = .next pc' →
      pc'.Serves frame ∧ pc.made frame ++ pc.publishes = pc'.made frame) ∧
    ∀ answer, (pc.step ring cas).2 = .ret answer →
      pc.made frame ++ pc.publishes = if answer then [frame] else [] := by
  cases pc with
  | loadTail own head =>
    obtain rfl : own = frame := serves
    refine ⟨?_, fun answer returned => by cases returned⟩
    intro pc' next
    obtain rfl := Control.next.inj next
    by_cases full : distance head ring.tail ≥ capacity
    · simp [full, Serves, made, publishes, stored]
    · simp [full, Serves, made, publishes, stored]
  | updateWatermark pc =>
    simp only [step]
    cases (pc.step ring cas).2 with
    | next pc' =>
      refine ⟨?_, fun answer returned => by cases returned⟩
      intro pc' next
      obtain rfl := Control.next.inj next
      exact ⟨trivial, rfl⟩
    | ret value =>
      refine ⟨?_, fun answer returned => by cases returned⟩
      intro pc' next
      obtain rfl := Control.next.inj next
      exact ⟨trivial, rfl⟩
  | countOverflow =>
    refine ⟨fun pc' next => (by cases next), ?_⟩
    intro answer returned
    obtain rfl := Control.ret.inj returned
    rfl
  | countQueued =>
    refine ⟨fun pc' next => (by cases next), ?_⟩
    intro answer returned
    obtain rfl := Control.ret.inj returned
    rfl
  | storeHead own head tail =>
    obtain rfl : own = frame := serves
    refine ⟨?_, fun answer returned => by cases returned⟩
    intro pc' next
    obtain rfl := Control.next.inj next
    exact ⟨trivial, rfl⟩
  | _ =>
    refine ⟨?_, fun answer returned => by cases returned⟩
    intro pc' next
    obtain rfl := Control.next.inj next
    exact ⟨serves, rfl⟩

end PushPc

namespace Spsc

variable [NeZero capacity] {s t u : Spsc w capacity F} {k : Choice F} {ks : List (Choice F)}
  {position : ℕ} {queue : List F}

/-- The pushes so far, the last of which may be in progress: their arguments, their
answers and the frames they have published. -/
def Ledger (s : Spsc w capacity F) (frames : List F) (answers : List Bool)
    (made : List F) : Prop :=
  match s.producer with
  | none => frames.length = answers.length ∧ made = admitted frames answers
  | some pc => ∃ earlier frame, frames = earlier ++ [frame] ∧ earlier.length = answers.length ∧
      pc.Serves frame ∧ made = admitted earlier answers ++ pc.made frame

omit [NeZero capacity] in
theorem Ledger.of_producer {frames : List F} {answers : List Bool} {made : List F}
    (h : s.Ledger frames answers made) (same : t.producer = s.producer) :
    t.Ledger frames answers made := by
  unfold Ledger at h ⊢
  rw [same]
  exact h

omit [NeZero capacity] in
theorem published_producer {pc : PushPc w F} (hpc : s.producer = some pc) (cas : Bool) :
    published s (.producer cas) = pc.publishes := by
  cases pc <;> simp only [published, hpc, PushPc.publishes]

/-- One step keeps the account of the pushes. -/
theorem Ledger.next {frames : List F} {answers : List Bool} {made : List F}
    (h : s.Ledger frames answers made) (step : next s k = some t) :
    t.Ledger (frames ++ offered s k) (answers ++ answered s k) (made ++ published s k) := by
  have still (same : t.producer = s.producer)
      (nothing : offered s k = [] ∧ answered s k = [] ∧ published s k = []) :
      t.Ledger (frames ++ offered s k) (answers ++ answered s k) (made ++ published s k) := by
    rw [nothing.1, nothing.2.1, nothing.2.2, List.append_nil, List.append_nil, List.append_nil]
    exact h.of_producer same
  cases k with
  | push frame =>
    obtain ⟨free, step⟩ := Option.ite_none_right_eq_some.mp step
    obtain rfl := Option.some.inj step
    simp only [Ledger, Option.isNone_iff_eq_none.mp free] at h
    obtain ⟨paired, rfl⟩ := h
    have nothing : answered s (.push frame) = [] := rfl
    rw [nothing, List.append_nil]
    exact ⟨frames, frame, rfl, paired, rfl, rfl⟩
  | producer cas =>
    obtain ⟨pc, hpc, rfl⟩ := Option.map_eq_some_iff.mp step
    simp only [Ledger, hpc] at h
    obtain ⟨earlier, frame, rfl, paired, serves, rfl⟩ := h
    obtain ⟨goesOn, returns⟩ := pc.step_publishes serves s.ring cas
    rw [published_producer hpc, List.append_assoc (admitted earlier answers)]
    simp only [offered, List.append_nil, answered, hpc, Ledger]
    cases control : (pc.step s.ring cas).2 with
    | next pc' =>
      obtain ⟨serves', account⟩ := goesOn pc' control
      rw [Control.value?_next, Option.toList_none, List.append_nil, account]
      exact ⟨earlier, frame, rfl, paired, serves', rfl⟩
    | ret answer =>
      rw [returns answer control]
      refine ⟨?_, (admitted_concat paired frame answer).symm⟩
      rw [List.length_append, List.length_append, paired]
      rfl
  | pop =>
    obtain ⟨-, step⟩ := Option.ite_none_right_eq_some.mp step
    obtain rfl := Option.some.inj step
    exact still rfl ⟨rfl, rfl, rfl⟩
  | consumer =>
    obtain ⟨pc, -, rfl⟩ := Option.map_eq_some_iff.mp step
    exact still rfl ⟨rfl, rfl, rfl⟩
  | snapshot operation =>
    obtain rfl := Option.some.inj step
    exact still rfl ⟨rfl, rfl, rfl⟩
  | observer i cas =>
    obtain ⟨⟨operation, pc⟩, -, rfl⟩ := Option.map_eq_some_iff.mp step
    exact still rfl ⟨rfl, rfl, rfl⟩
  | record what n =>
    obtain rfl := Option.some.inj step
    exact still rfl ⟨rfl, rfl, rfl⟩

/-- The account of the pushes of a run that begins between two pushes. -/
theorem exec_ledger (idle : s.producer = none) (run : exec next s ks = some t) :
    t.Ledger (trace next offered s ks) (trace next answered s ks) (trace next published s ks) := by
  refine exec_history (P := fun ks t => t.Ledger (trace next offered s ks)
    (trace next answered s ks) (trace next published s ks)) ?_ ?_ run
  · simp only [Ledger, idle]
    exact ⟨rfl, rfl⟩
  · intro ks t k u before h step
    rw [trace_concat before, trace_concat before, trace_concat before]
    exact h.next step

/-- The published frames are the arguments of the pushes that returned true, and of the one
in progress once it has stored the head. -/
theorem published_eq_admitted (idle : s.producer = none) (run : exec next s ks = some t) :
    trace next published s ks =
      admitted (trace next offered s ks) (trace next answered s ks ++ t.bound) := by
  have h := exec_ledger idle run
  unfold Ledger at h
  unfold bound
  cases hpc : t.producer with
  | none =>
    simp only [hpc] at h ⊢
    rw [List.append_nil]
    exact h.2
  | some pc =>
    simp only [hpc] at h ⊢
    obtain ⟨earlier, frame, calls, paired, -, made⟩ := h
    rw [made, calls, PushPc.made]
    cases pc.stored with
    | true => exact (admitted_concat paired frame true).symm
    | false =>
      simp only [Bool.false_eq_true, if_false, List.append_nil]
      exact (admitted_unanswered paired frame).symm

/-- Every push but the one in progress has been answered. -/
theorem offered_length (idle : s.producer = none) (run : exec next s ks = some t) :
    (trace next offered s ks).length =
      (trace next answered s ks).length + if t.producer.isSome then 1 else 0 := by
  have h := exec_ledger idle run
  unfold Ledger at h
  cases hpc : t.producer with
  | none =>
    simp only [hpc] at h
    simpa using h.1
  | some pc =>
    simp only [hpc] at h
    obtain ⟨earlier, frame, calls, paired, -⟩ := h
    simp [calls, paired]

omit [NeZero capacity] in
theorem offered_of_not_push (notPush : k.isPush = false) (s : Spsc w capacity F) :
    offered s k = [] := by
  cases k with
  | push frame => cases notPush
  | _ => rfl

/-- The step that answers a push ends it. -/
theorem next_of_answered {answer : Bool} (returns : answered s k = [answer]) :
    ∃ t, next s k = some t ∧ t.producer = none ∧ k.isPush = false := by
  unfold answered at returns
  split at returns
  · rename_i cas
    split at returns
    · rename_i pc hpc
      refine ⟨_, by rw [next, hpc, Option.map_some], ?_, rfl⟩
      cases control : (pc.step s.ring cas).2 with
      | next pc' => simp [control] at returns
      | ret value => rfl
    · cases returns
  · cases returns

/-- A push that returns true has published its argument and nothing else; one that returns
false has published nothing. -/
theorem published_of_answered {frame : F} {answer : Bool}
    (run : exec next s (.push frame :: ks) = some t) (noPush : ∀ k ∈ ks, k.isPush = false)
    (returns : answered t k = [answer]) :
    trace next published s (.push frame :: ks ++ [k]) = if answer then [frame] else [] := by
  obtain ⟨u, last, ended, notPush⟩ := next_of_answered returns
  obtain ⟨pushed, step, -⟩ := exec_cons_eq_some.mp run
  have idle : s.producer = none :=
    Option.isNone_iff_eq_none.mp (Option.ite_none_right_eq_some.mp step).1
  have calls : trace next offered s (.push frame :: ks ++ [k]) = [frame] := by
    rw [trace_concat run, trace_cons step, offered_of_not_push notPush,
      trace_eq_nil fun k' mem => offered_of_not_push (noPush k' mem)]
    rfl
  have h := exec_ledger idle (exec_concat_eq_some.mpr ⟨t, run, last⟩)
  simp only [Ledger, ended] at h
  have answers : trace next answered s (.push frame :: ks ++ [k]) =
      trace next answered s (.push frame :: ks) ++ [answer] := by
    rw [trace_concat run, returns]
  rw [calls, answers] at h
  obtain ⟨paired, made⟩ := h
  have first : trace next answered s (.push frame :: ks) = [] := by
    rw [List.length_append] at paired
    exact List.length_eq_zero_iff.mp (Nat.succ.inj paired).symm
  rw [made, first]
  cases answer <;> rfl

/-! ### Refused frames -/

/-- The push in progress may still be the refusal of its frame. -/
def undecided (s : Spsc w capacity F) : Bool :=
  (s.producer.map PushPc.undecided).getD false

omit [NeZero capacity] in
theorem producer_of_undecided (h : s.undecided = true) :
    ∃ pc, s.producer = some pc ∧ pc.undecided = true := by
  unfold undecided at h
  cases hpc : s.producer with
  | none => simp [hpc] at h
  | some pc => exact ⟨pc, rfl, by simpa [hpc] using h⟩

theorem undecided_of_rejects (h : s.rejects k = true) : s.undecided = true := by
  cases k with
  | producer cas =>
    unfold rejects at h
    cases hpc : s.producer with
    | none => simp [hpc] at h
    | some pc =>
      cases pc with
      | updateWatermark pc =>
        rw [hpc] at h
        have returned := of_decide_eq_true h
        simp only [PushPc.step] at returned
        generalize (pc.step s.ring cas).2 = control at returned
        cases control <;> simp at returned
      | _ => simp_all [undecided, PushPc.undecided, PushPc.step]
  | _ => simp [rejects] at h

/-- Once a push has found room, only a new push can be refused. -/
theorem undecided_of_next (step : next s k = some t) (notPush : k.isPush = false)
    (h : t.undecided = true) : s.undecided = true := by
  cases k with
  | push frame => cases notPush
  | producer cas =>
    obtain ⟨pc, hpc, rfl⟩ := Option.map_eq_some_iff.mp step
    cases pc with
    | updateWatermark pc =>
      simp only [undecided, PushPc.step] at h
      generalize (pc.step s.ring cas).2 = control at h
      cases control <;> simp [PushPc.undecided] at h
    | _ => simp_all [undecided, PushPc.undecided, PushPc.step]
  | pop =>
    obtain ⟨-, step⟩ := Option.ite_none_right_eq_some.mp step
    obtain rfl := Option.some.inj step
    exact h
  | consumer =>
    obtain ⟨pc, -, rfl⟩ := Option.map_eq_some_iff.mp step
    exact h
  | snapshot operation =>
    obtain rfl := Option.some.inj step
    exact h
  | observer i cas =>
    obtain ⟨⟨operation, pc⟩, -, rfl⟩ := Option.map_eq_some_iff.mp step
    exact h
  | record what n =>
    obtain rfl := Option.some.inj step
    exact h

/-- Until a push finds room, nobody changes the frames or the head. -/
theorem next_undecided (h : s.undecided = true) (step : next s k = some t) :
    t.ring.frames = s.ring.frames ∧ t.ring.head = s.ring.head ∧ published s k = [] := by
  obtain ⟨pc, hpc, waiting⟩ := producer_of_undecided h
  cases k with
  | push frame =>
    obtain ⟨free, -⟩ := Option.ite_none_right_eq_some.mp step
    simp [hpc] at free
  | producer cas =>
    obtain ⟨pc', hpc', rfl⟩ := Option.map_eq_some_iff.mp step
    obtain rfl := Option.some.inj (hpc.symm.trans hpc')
    cases pc with
    | writeSlot frame head tail => cases waiting
    | storeHead frame head tail => cases waiting
    | updateWatermark pc => cases waiting
    | countQueued => cases waiting
    | _ => exact ⟨rfl, rfl, by simp [published, hpc]⟩
  | pop =>
    obtain ⟨-, step⟩ := Option.ite_none_right_eq_some.mp step
    obtain rfl := Option.some.inj step
    exact ⟨rfl, rfl, rfl⟩
  | consumer =>
    obtain ⟨pc', -, rfl⟩ := Option.map_eq_some_iff.mp step
    cases pc' <;> exact ⟨rfl, rfl, rfl⟩
  | snapshot operation =>
    obtain rfl := Option.some.inj step
    exact ⟨rfl, rfl, rfl⟩
  | observer i cas =>
    obtain ⟨⟨operation, pc'⟩, -, rfl⟩ := Option.map_eq_some_iff.mp step
    have same := pc'.step_same operation s.ring cas
    exact ⟨same.frames, same.head, rfl⟩
  | record what n =>
    obtain rfl := Option.some.inj step
    have same := s.ring.record_same n what
    exact ⟨same.frames, same.head, rfl⟩

theorem exec_undecided (run : exec next s ks = some t) (noPush : ∀ k ∈ ks, k.isPush = false)
    (h : t.undecided = true) :
    s.undecided = true ∧ t.ring.frames = s.ring.frames ∧ t.ring.head = s.ring.head ∧
      trace next published s ks = [] := by
  induction ks generalizing s with
  | nil =>
    obtain rfl := Option.some.inj run
    exact ⟨h, rfl, rfl, rfl⟩
  | cons k ks ih =>
    obtain ⟨u, step, run⟩ := exec_cons_eq_some.mp run
    obtain ⟨waiting, frames, head, nothing⟩ := ih run fun k hk => noPush k (List.mem_cons_of_mem _ hk)
    have before := undecided_of_next step (noPush k List.mem_cons_self) waiting
    obtain ⟨frames', head', nothing'⟩ := next_undecided before step
    refine ⟨before, frames.trans frames', head.trans head', ?_⟩
    rw [trace_cons step, nothing', nothing]
    rfl

/-- A push that returns false has changed neither the head nor a frame; what is gone
from the queue since it began is what the consumer has popped. -/
theorem rejected_push_unchanged (small : capacity < 2 ^ w) (divides : capacity ∣ 2 ^ w)
    (h : s.Represents position queue) {frame : F} (run : exec next s (.push frame :: ks) = some t)
    (noPush : ∀ k ∈ ks, k.isPush = false) (rejected : t.rejects k = true)
    (last : next t k = some u) :
    u.ring.frames = s.ring.frames ∧ u.ring.head = s.ring.head ∧
      u.ring.tail = s.ring.tail +
        BitVec.ofNat w (trace next dequeued s (.push frame :: ks)).length ∧
      s.ring.queued = trace next dequeued s (.push frame :: ks) ++ u.ring.queued := by
  have waiting := undecided_of_rejects rejected
  obtain ⟨pushed, step, rest⟩ := exec_cons_eq_some.mp run
  obtain ⟨-, frames, head, nothing⟩ := exec_undecided rest noPush waiting
  obtain ⟨frames', head', nothing'⟩ := next_undecided waiting last
  have begun : pushed.ring = s.ring := by
    obtain ⟨-, step⟩ := Option.ite_none_right_eq_some.mp step
    obtain rfl := Option.some.inj step
    rfl
  have still : trace next dequeued t [k] = [] := by
    rw [trace_single]
    cases k with
    | producer cas => rfl
    | _ => simp [rejects] at rejected
  have whole := exec_trans run (exec_single last)
  have taken : trace next dequeued s (.push frame :: ks ++ [k]) =
      trace next dequeued s (.push frame :: ks) := by
    rw [trace_append run, still, List.append_nil]
  obtain ⟨queue', h', fifo, left⟩ := exec_represents small divides h whole
  rw [taken] at h' left
  refine ⟨?_, ?_, ?_, ?_⟩
  · rw [frames', frames, begun]
  · rw [head', head, begun]
  · rw [h'.holds.tail, h.holds.tail, BitVec.ofNat_add]
  · have conserved := BoundedFifo.exec_conserves fifo
    have entered : trace next published s (.push frame :: ks ++ [k]) = [] := by
      rw [trace_append run, trace_cons step, trace_single, nothing, nothing']
      rfl
    rw [entered_trace, entered, List.append_nil, left] at conserved
    rw [h.holds.queued_eq small, h'.holds.queued_eq small]
    exact conserved

/-- The ring is a bounded queue that drops the newest frame, for every capacity that
divides `2 ^ w`, every run and every empty starting ring, wrapped indices included. The
frames it gives out are the arguments of the pushes that returned true, and of the one in
progress once it has stored the head. -/
theorem ring_refines_bounded_fifo (small : capacity < 2 ^ w) (divides : capacity ∣ 2 ^ w)
    {ring : FrameRing w capacity F} (empty : ring.head = ring.tail)
    (run : exec next (idle ring) ks = some s) :
    exec (BoundedFifo.next capacity) [] (trace next ops (idle ring) ks) = some s.ring.queued ∧
      trace next returned (idle ring) ks <+: trace next published (idle ring) ks ∧
      trace next published (idle ring) ks = admitted (trace next offered (idle ring) ks)
        (trace next answered (idle ring) ks ++ s.bound) ∧
      (trace next offered (idle ring) ks).length =
        (trace next answered (idle ring) ks).length + (if s.producer.isSome then 1 else 0) ∧
      distance s.ring.head s.ring.tail ≤ capacity ∧
      (∀ i, s.writes = some i → s.reads ≠ some i ∧
        ∀ j < distance s.ring.head s.ring.tail,
          slot capacity (s.ring.tail + BitVec.ofNat w j) ≠ i) ∧
      (∀ frame ls t k answer, exec next s (.push frame :: ls) = some t →
        (∀ k ∈ ls, k.isPush = false) → answered t k = [answer] →
        trace next published s (.push frame :: ls ++ [k]) = if answer then [frame] else []) ∧
      ∀ frame ls t k u, exec next s (.push frame :: ls) = some t →
        (∀ k ∈ ls, k.isPush = false) → t.rejects k = true → next t k = some u →
        u.ring.frames = s.ring.frames ∧ u.ring.head = s.ring.head ∧
          u.ring.tail = s.ring.tail +
            BitVec.ofNat w (trace next dequeued s (.push frame :: ls)).length ∧
          s.ring.queued = trace next dequeued s (.push frame :: ls) ++ u.ring.queued := by
  have start := idle_represents (w := w) (F := F) empty
  obtain ⟨queue, represents, fifo, -⟩ := exec_represents small divides start run
  refine ⟨?_, ?_, ?_, ?_, ?_, ?_, ?_, ?_⟩
  · rw [represents.holds.queued_eq small]
    exact fifo
  · exact returned_prefix_published small divides start rfl run
  · exact published_eq_admitted rfl run
  · exact offered_length rfl run
  · rw [represents.holds.distance_eq small]
    exact represents.holds.fits
  · intro i writing
    rw [represents.holds.distance_eq small]
    exact writes_free divides represents writing
  · intro frame ls t k answer pushes noPush returns
    exact published_of_answered pushes noPush returns
  · intro frame ls t k u pushes noPush rejected last
    exact rejected_push_unchanged small divides represents pushes noPush rejected last

/-- A frame pushed and popped while both indices wrap to zero. -/
def wrappingRun : List (Choice (BitVec 8)) :=
  .push 7 :: List.replicate 8 (.producer true) ++ .pop :: List.replicate 5 .consumer

theorem ring_refines_bounded_fifo_wrapping :
    let ring : FrameRing 32 64 (BitVec 8) :=
      { frames := fun _ => 0, head := 0xffffffff, tail := 0xffffffff }
    trace next returned (idle ring) wrappingRun = [7] ∧
      trace next answered (idle ring) wrappingRun = [true] ∧
      trace next returned (idle ring) wrappingRun <+:
        trace next published (idle ring) wrappingRun ∧
      trace next published (idle ring) wrappingRun =
        admitted (trace next offered (idle ring) wrappingRun)
          (trace next answered (idle ring) wrappingRun ++
            (final next (idle ring) wrappingRun).bound) := by
  intro ring
  have run := exec_eq_final next (idle ring) wrappingRun (by decide)
  have refined := ring_refines_bounded_fifo (by decide) (by decide) rfl run
  exact ⟨by decide, by decide, refined.2.1, refined.2.2.1⟩

end Spsc

end CanTelemetry.CanBus
