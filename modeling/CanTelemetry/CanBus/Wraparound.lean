import CanTelemetry.CanBus.Spsc

/-! Which capacities are safe. The indices wrap modulo `2 ^ w` and only the slot access
reduces them modulo the capacity. When the capacity divides `2 ^ w` the slots follow the
wrap; for every other capacity some pushes and pops bring the wrap inside the live window,
where a push writes over the oldest queued frame. -/

namespace CanTelemetry.CanBus

open Execution RingIndex

variable {w capacity : ℕ} [NeZero capacity] {F : Type*}

/-- A ring as it is constructed. -/
def FrameRing.fresh (w : ℕ) (frames : Fin capacity → F) : FrameRing w capacity F :=
  { frames := frames }

namespace Spsc

/-- One call at a time, and calls of push and pop only. -/
def oneCall (s : Spsc w capacity F) : Choice F → Bool
  | .push _ => s.consumer.isNone
  | .pop => s.producer.isNone
  | .producer _ | .consumer => true
  | _ => false

/-- What is to hold after a run: the live indices lie in distinct slots, a push is not about
to write into one of them, the frames accepted and not taken out are still in their slots,
and the frames popped are the accepted ones in their order. -/
structure Safe (ring : FrameRing w capacity F) (ks : List (Choice F)) (s : Spsc w capacity F) :
    Prop where
  distinct : ∀ i j, i < j → j < distance s.ring.head s.ring.tail →
    slot capacity (s.ring.tail + BitVec.ofNat w i) ≠ slot capacity (s.ring.tail + BitVec.ofNat w j)
  untouched : ∀ i, s.writes = some i → ∀ j < distance s.ring.head s.ring.tail,
    slot capacity (s.ring.tail + BitVec.ofNat w j) ≠ i
  queued : trace next published (idle ring) ks =
    trace next dequeued (idle ring) ks ++ s.ring.queued
  fifo : trace next returned (idle ring) ks <+: trace next published (idle ring) ks

variable {ring ring' : FrameRing w capacity F} {s t u : Spsc w capacity F} {ks : List (Choice F)}

theorem safe_of_divides (small : capacity < 2 ^ w) (divides : capacity ∣ 2 ^ w)
    (empty : ring.head = ring.tail) (run : exec next (idle ring) ks = some s) :
    Safe ring ks s := by
  have start := idle_represents (w := w) (F := F) empty
  obtain ⟨queue, represents, fifo, taken⟩ := exec_represents small divides start run
  have length := represents.holds.distance_eq small
  refine ⟨?_, ?_, ?_, returned_prefix_published small divides start rfl run⟩
  · intro i j before live
    have fits := represents.holds.fits
    rw [represents.holds.tail, ← BitVec.ofNat_add, ← BitVec.ofNat_add]
    exact (slot_ne divides (by omega) (by omega)).symm
  · intro i writing
    rw [length]
    exact (writes_free divides represents writing).2
  · have conserved := BoundedFifo.exec_conserves fifo
    rw [entered_trace, List.nil_append, taken] at conserved
    rw [represents.holds.queued_eq small]
    exact conserved

/-! ### Runs of whole calls -/

/-- Calls made one at a time lead from one state to another, with these frames accepted and
these returned. -/
def Leads (s t : Spsc w capacity F) (accepted popped : List F) : Prop :=
  ∃ ks, exec (guarded oneCall next) s ks = some t ∧
    trace next published s ks = accepted ∧ trace next returned s ks = popped

namespace Leads

variable {accepted popped accepted' popped' : List F}

theorem refl (s : Spsc w capacity F) : Leads s s [] [] := ⟨[], rfl, rfl, rfl⟩

theorem step {k : Choice F} (allowed : s.oneCall k = true) (step : next s k = some t) :
    Leads s t (s.published k) (s.returned k) :=
  ⟨[k], exec_single (guarded_eq_some.mpr ⟨allowed, step⟩), trace_single _ s k, trace_single _ s k⟩

theorem trans (first : Leads s t accepted popped) (second : Leads t u accepted' popped') :
    Leads s u (accepted ++ accepted') (popped ++ popped') := by
  obtain ⟨ks, run, rfl, rfl⟩ := first
  obtain ⟨ls, run', rfl, rfl⟩ := second
  refine ⟨ks ++ ls, exec_trans run run', ?_, ?_⟩
  · exact trace_append (exec_of_guarded run) ls
  · exact trace_append (exec_of_guarded run) ls

/-- A step of the push in progress. -/
theorem producer (pc : PushPc w F) {pc' : PushPc w F}
    (goesOn : (pc.step ring true).2.pc? = some pc') :
    Leads (⟨ring, some pc, none, []⟩ : Spsc w capacity F)
      ⟨(pc.step ring true).1, some pc', none, []⟩
      (published (⟨ring, some pc, none, []⟩ : Spsc w capacity F) (.producer true)) [] := by
  refine Leads.step (k := .producer true) rfl ?_
  simp [next, goesOn]

/-- A step of the pop in progress. -/
theorem consumer (pc : PopPc w F) {pc' : PopPc w F} (goesOn : (pc.step ring).2 = .next pc') :
    Leads (⟨ring, none, some pc, []⟩ : Spsc w capacity F)
      ⟨(pc.step ring).1, none, some pc', []⟩ [] [] := by
  have returns : Spsc.returned (⟨ring, none, some pc, []⟩ : Spsc w capacity F) .consumer = [] := by
    simp [Spsc.returned, goesOn]
  have steps : next (⟨ring, none, some pc, []⟩ : Spsc w capacity F) .consumer =
      some ⟨(pc.step ring).1, none, some pc', []⟩ := by
    simp [next, goesOn]
  have leads := Leads.step (k := .consumer) rfl steps
  rw [returns] at leads
  exact leads

end Leads

/-- A push that finds room is about to write the slot of the head. -/
theorem push_begins (room : distance ring.head ring.tail < capacity) (frame : F) :
    ∃ ring' : FrameRing w capacity F, FrameRing.Same ring ring' ∧
      Leads (idle ring) ⟨ring', some (.writeSlot frame ring.head ring.tail), none, []⟩ [] [] := by
  have free : ¬distance ring.head ring.tail ≥ capacity := by omega
  have begun : Leads (idle ring) ⟨ring, some (.countReceived frame), none, []⟩ [] [] :=
    Leads.step (k := .push frame) rfl rfl
  refine ⟨ring.count .framesReceived, ring.count_same _ _, ?_⟩
  have counted := begun.trans (Leads.producer (.countReceived frame) rfl)
  have loaded := counted.trans (Leads.producer (.loadHead frame) rfl)
  refine loaded.trans (Leads.producer (.loadTail frame ring.head) ?_)
  simp [PushPc.step, if_neg free]

/-- The loop that raises the watermark ends, as nobody else writes it. -/
theorem watermark_raised (ring : FrameRing w capacity F) (depth : BitVec 32) :
    ∃ ring' : FrameRing w capacity F, FrameRing.Same ring ring' ∧
      Leads (⟨ring, some (.updateWatermark (.load depth)), none, []⟩ : Spsc w capacity F)
        ⟨ring', some .countQueued, none, []⟩ [] [] := by
  by_cases raise : depth > ring.queueHighWatermark
  · have tested : Leads
        (⟨ring, some (.updateWatermark (.load depth)), none, []⟩ : Spsc w capacity F)
        ⟨ring, some (.updateWatermark (.exchange depth ring.queueHighWatermark)), none, []⟩
        [] [] :=
      Leads.producer (.updateWatermark (.load depth))
        (by simp [PushPc.step, WatermarkPc.step, WatermarkPc.test, raise])
    refine ⟨{ ring with queueHighWatermark := depth }, ⟨rfl, rfl, rfl⟩, tested.trans ?_⟩
    refine Leads.step (k := .producer true) rfl ?_
    simp [next, PushPc.step, WatermarkPc.step]
  · refine ⟨ring, .refl ring, ?_⟩
    exact Leads.producer (.updateWatermark (.load depth))
      (by simp [PushPc.step, WatermarkPc.step, WatermarkPc.test, raise])

/-- A push that finds room puts its frame into the slot of the head. -/
theorem push_call (room : distance ring.head ring.tail < capacity) (frame : F) :
    ∃ ring' : FrameRing w capacity F, Leads (idle ring) (idle ring') [frame] [] ∧
      ring'.head = ring.head + 1 ∧ ring'.tail = ring.tail ∧
      ring'.frames (slot capacity ring.head) = frame := by
  obtain ⟨before, same, begun⟩ := push_begins room frame
  have written := begun.trans
    (Leads.producer (.writeSlot frame ring.head ring.tail) rfl)
  have stored := written.trans
    (Leads.producer (.storeHead frame ring.head ring.tail) rfl)
  obtain ⟨raised, same', ends⟩ := watermark_raised
    { before with
      frames := Function.update before.frames (slot capacity ring.head) frame
      head := ring.head + 1 }
    ((ring.head + 1 - ring.tail).setWidth 32)
  have queued := stored.trans ends
  refine ⟨raised.count .framesQueued, ?_, ?_, ?_, ?_⟩
  · exact queued.trans (Leads.step (k := .producer true) rfl rfl)
  · rw [FrameRing.count_head, same'.head]
  · rw [FrameRing.count_tail, same'.tail]
    exact same.tail
  · rw [FrameRing.count_frames, same'.frames]
    exact Function.update_self _ _ _

/-- A pop from a ring that is not empty returns what lies in the slot of the tail. -/
theorem pop_call (nonempty : ring.tail ≠ ring.head) :
    ∃ ring' : FrameRing w capacity F,
      Leads (idle ring) (idle ring') [] [ring.frames (slot capacity ring.tail)] ∧
      ring'.head = ring.head ∧ ring'.tail = ring.tail + 1 := by
  have begun : Leads (idle ring) ⟨ring, none, some .loadTail, []⟩ [] [] :=
    Leads.step (k := .pop) rfl rfl
  have loaded := begun.trans (Leads.consumer (.loadTail) rfl)
  have found : Leads (idle ring) ⟨ring, none, some (.readSlot ring.tail), []⟩ [] [] :=
    loaded.trans (Leads.consumer (.loadHead ring.tail) (by simp [PopPc.step, nonempty]))
  have read := found.trans (Leads.consumer (.readSlot ring.tail) rfl)
  have stored := read.trans (Leads.consumer (.storeTail _ ring.tail) rfl)
  exact ⟨_, stored.trans (Leads.step (k := .consumer) rfl rfl), rfl, rfl⟩

/-! ### The wrap inside the live window -/

/-- A frame pushed and popped `n` times moves both indices by `n`. -/
theorem cycles (small : capacity < 2 ^ w) (frame : F) (n : ℕ) (empty : ring.head = ring.tail) :
    ∃ ring' : FrameRing w capacity F,
      Leads (idle ring) (idle ring') (List.replicate n frame) (List.replicate n frame) ∧
      ring'.head = ring.head + BitVec.ofNat w n ∧ ring'.tail = ring'.head := by
  have positive : 0 < capacity := Nat.pos_of_neZero capacity
  induction n with
  | zero => exact ⟨ring, .refl _, (BitVec.add_zero ring.head).symm, empty.symm⟩
  | succ n ih =>
    obtain ⟨middle, first, head, tail⟩ := ih
    have rest : distance middle.head middle.tail = 0 := distance_eq_zero.mpr tail.symm
    obtain ⟨pushed, push, head', tail', content⟩ :=
      push_call (by rw [rest]; exact positive) frame
    have one : distance (middle.head + 1) middle.tail = 1 := by
      rw [distance_head_succ (by omega), rest]
    have nonempty : pushed.tail ≠ pushed.head := by
      rw [head', tail']
      intro same
      rw [distance_eq_zero.mpr same.symm] at one
      cases one
    obtain ⟨popped, pop, head'', tail''⟩ := pop_call nonempty
    have oldest : pushed.frames (slot capacity pushed.tail) = frame := by
      rw [tail', tail]
      exact content
    rw [oldest] at pop
    refine ⟨popped, ?_, ?_, ?_⟩
    · rw [List.replicate_succ']
      have run := (first.trans push).trans pop
      rw [List.append_nil, List.append_nil] at run
      exact run
    · rw [head'', head', head, ← index_succ, add_assoc]
    · rw [tail'', tail', tail, head'', head']

/-- Pushes while there is room move the head only. -/
theorem pushes (small : capacity < 2 ^ w) (frame : F) (n : ℕ)
    (room : distance ring.head ring.tail + n ≤ capacity) :
    ∃ ring' : FrameRing w capacity F,
      Leads (idle ring) (idle ring') (List.replicate n frame) [] ∧
      ring'.head = ring.head + BitVec.ofNat w n ∧ ring'.tail = ring.tail ∧
      distance ring'.head ring'.tail = distance ring.head ring.tail + n := by
  induction n with
  | zero => exact ⟨ring, .refl _, (BitVec.add_zero ring.head).symm, rfl, rfl⟩
  | succ n ih =>
    obtain ⟨middle, first, head, tail, deep⟩ := ih (by omega)
    obtain ⟨pushed, push, head', tail', -⟩ :=
      push_call (by omega : distance middle.head middle.tail < capacity) frame
    refine ⟨pushed, ?_, ?_, tail'.trans tail, ?_⟩
    · rw [List.replicate_succ']
      exact first.trans push
    · rw [head', head, ← index_succ, add_assoc]
    · rw [head', tail', distance_head_succ (by omega), deep]
      omega

/-- The last index before the wrap and one of the first after it share a slot. -/
theorem slot_wrapped (apart : 2 ^ w % capacity ≠ 0) :
    slot capacity (BitVec.ofNat w (2 ^ w - 1) + BitVec.ofNat w (2 ^ w % capacity)) =
      slot capacity (BitVec.ofNat w (2 ^ w - 1)) := by
  have positive : 0 < capacity := Nat.pos_of_neZero capacity
  have whole : 0 < 2 ^ w := Nat.two_pow_pos w
  have below : 2 ^ w % capacity ≤ 2 ^ w := Nat.mod_le _ _
  have within : 2 ^ w % capacity < capacity := Nat.mod_lt _ positive
  have split := Nat.div_add_mod (2 ^ w) capacity
  have wrapped : 2 ^ w - 1 + 2 ^ w % capacity = 2 ^ w + (2 ^ w % capacity - 1) := by omega
  have last : 2 ^ w - 1 = capacity * (2 ^ w / capacity) + (2 ^ w % capacity - 1) := by omega
  apply Fin.ext
  rw [slot, slot, Fin.val_ofNat, Fin.val_ofNat, ← BitVec.ofNat_add, BitVec.toNat_ofNat,
    BitVec.toNat_ofNat, wrapped, Nat.add_mod_left, Nat.mod_eq_of_lt (by omega : 2 ^ w - 1 < 2 ^ w),
    Nat.mod_eq_of_lt (by omega : 2 ^ w % capacity - 1 < 2 ^ w)]
  conv_rhs => rw [last, Nat.mul_add_mod]

/-- For a capacity that does not divide `2 ^ w` a fresh ring is led to where the next push
goes into the slot of the oldest queued frame; the pop after it returns the wrong frame. -/
theorem overwritten (small : capacity < 2 ^ w) (apart : ¬capacity ∣ 2 ^ w)
    (frames : Fin capacity → F) (first last : F) :
    ∃ ring : FrameRing w capacity F,
      Leads (idle (.fresh w frames)) (idle ring)
        (List.replicate (2 ^ w - 1) first ++ List.replicate (2 ^ w % capacity) first ++ [last])
        (List.replicate (2 ^ w - 1) first ++ [last]) := by
  have remainder : 2 ^ w % capacity ≠ 0 := fun none => apart (Nat.dvd_of_mod_eq_zero none)
  have within : 2 ^ w % capacity < capacity := Nat.mod_lt _ (Nat.pos_of_neZero capacity)
  have empty : (FrameRing.fresh w frames).head = (FrameRing.fresh w frames).tail := rfl
  obtain ⟨cycled, cycling, head, tail⟩ := cycles small first (2 ^ w - 1) empty
  have rest : distance cycled.head cycled.tail = 0 := distance_eq_zero.mpr tail.symm
  obtain ⟨filled, filling, head', tail', deep⟩ :=
    pushes small first (2 ^ w % capacity) (by omega : distance cycled.head cycled.tail + _ ≤ _)
  obtain ⟨pushed, push, head'', tail'', content⟩ :=
    push_call (by omega : distance filled.head filled.tail < _) last
  have start : cycled.head = BitVec.ofNat w (2 ^ w - 1) := by
    rw [head]
    exact BitVec.zero_add _
  have shared : slot capacity filled.head = slot capacity filled.tail := by
    rw [head', tail', tail, start]
    exact slot_wrapped remainder
  have nonempty : pushed.tail ≠ pushed.head := by
    have one : distance pushed.head pushed.tail = 2 ^ w % capacity + 1 := by
      rw [head'', tail'', distance_head_succ (by omega), deep, rest]
      omega
    intro same
    rw [distance_eq_zero.mpr same.symm] at one
    cases one
  obtain ⟨popped, pop, -, -⟩ := pop_call nonempty
  have wrong : pushed.frames (slot capacity pushed.tail) = last := by
    rw [tail'', ← shared]
    exact content
  rw [wrong] at pop
  refine ⟨popped, ?_⟩
  have run := ((cycling.trans filling).trans push).trans pop
  simpa using run

/-- A sequence of calls that pops something else than what was accepted. -/
theorem not_fifo (small : capacity < 2 ^ w) (apart : ¬capacity ∣ 2 ^ w)
    (frames : Fin capacity → F) {first last : F} (differ : last ≠ first) :
    ∃ ks s, exec (guarded oneCall next) (idle (.fresh w frames)) ks = some s ∧
      ¬trace next returned (idle (.fresh w frames)) ks <+:
        trace next published (idle (.fresh w frames)) ks := by
  have remainder : 2 ^ w % capacity ≠ 0 := fun none => apart (Nat.dvd_of_mod_eq_zero none)
  obtain ⟨ring, ks, run, accepted, popped⟩ := overwritten small apart frames first last
  refine ⟨ks, idle ring, run, ?_⟩
  rw [accepted, popped, List.append_assoc, List.prefix_append_right_inj]
  intro same
  obtain ⟨n, size⟩ := Nat.exists_eq_succ_of_ne_zero remainder
  rw [size, List.replicate_succ, List.cons_append] at same
  exact differ (List.cons_prefix_cons.mp same).1

/-- The ring is safe for every sequence of push and pop calls exactly when its capacity
divides `2 ^ w`, that is when it is a power of two. -/
theorem safe_iff_divides [Nontrivial F] (small : capacity < 2 ^ w) (frames : Fin capacity → F) :
    (∀ ks s, exec (guarded oneCall next) (idle (.fresh w frames)) ks = some s →
      Safe (.fresh w frames) ks s) ↔ capacity ∣ 2 ^ w := by
  constructor
  · intro safe
    by_contra apart
    obtain ⟨last, first, differ⟩ := exists_pair_ne F
    obtain ⟨ks, s, run, wrong⟩ := not_fifo small apart frames differ
    exact wrong (safe ks s run).fifo
  · intro divides ks s run
    exact safe_of_divides small divides rfl (exec_of_guarded run)

/-- A frame is pushed and popped again. -/
def roundRun (steps frame : ℕ) : List (Choice ℕ) :=
  .push frame :: List.replicate steps (.producer true) ++ .pop :: List.replicate 5 .consumer

/-- The first push raises the watermark. -/
def roundsRun : List (Choice ℕ) := roundRun 8 1 ++ [2, 3, 4, 5].flatMap (roundRun 7)

/-- With two slots and indices modulo four, the fifth frame is behind the wrap. -/
theorem safe_iff_divides_wrapping :
    let ring := FrameRing.fresh 2 fun _ : Fin 2 => (0 : ℕ)
    let s := final (guarded oneCall next) (idle ring) roundsRun
    s.ring.head = 1 ∧ Safe ring roundsRun s := by
  intro ring s
  have run : exec (guarded oneCall next) (idle ring) roundsRun = some s :=
    exec_eq_final _ _ _ (by decide)
  exact ⟨by decide, (safe_iff_divides (by decide) _).mpr (by decide) _ _ run⟩

/-- With three slots and 32-bit indices a push overwrites a queued frame at the wrap. -/
theorem three_slots_unsafe :
    ¬∀ ks s,
      exec (guarded oneCall next) (idle (.fresh 32 fun _ : Fin 3 => (0 : ℕ))) ks = some s →
        Safe (.fresh 32 fun _ => 0) ks s := by
  intro safe
  obtain ⟨ks, s, run, wrong⟩ := not_fifo (w := 32) (by decide) (by decide)
    (fun _ : Fin 3 => (0 : ℕ)) (by decide : 2 ≠ 1)
  exact wrong (safe ks s run).fifo

end Spsc

end CanTelemetry.CanBus
