import CanTelemetry.Firmware.BenchApp
import Mathlib.Data.List.Chain

/-! The loop of the bench receiver. Its counters are those of the frames it was given, its
summaries are at least a period apart whatever the tick counter does, and a batch ends in a
delay after sixteen frames at most. -/

namespace CanTelemetry.Tcan485Bench

open Execution Threads VehicleCore

/-! ### Counters and summaries -/

def Log.summary? : Log → Option (BitVec 64 × BitVec 32 × FrameMetadata)
  | .summary total interval latest => some (total, interval, latest)
  | _ => none

/-- The summary that a step logs. -/
def App.summaries (s : App) (event : Event) : List (BitVec 64 × BitVec 32 × FrameMetadata) :=
  (s.logs event).filterMap Log.summary?

def App.reported (s : App) (event : Event) : BitVec 32 := ((s.summaries event).map (·.2.1)).sum

theorem App.summaries_check {s : App} {now : BitVec 32} (at_pc : s.pc = some .checkSummary) :
    s.summaries (.ticks now) = if s.locals.summarizes now then
      [(s.locals.receivedCount, s.locals.intervalCount, s.locals.latest)] else [] := by
  simp only [summaries, logs, at_pc, Option.map_some, Option.getD_some, AppPc.logs]
  split <;> rfl

/-- Only the check after a batch logs a summary. -/
theorem App.summaries_other {s : App} {event : Event} {pc : AppPc} (at_pc : s.pc = some pc)
    (other : pc ≠ .checkSummary) : s.summaries event = [] := by
  simp only [summaries, logs, at_pc, Option.map_some, Option.getD_some]
  cases pc with
  | checkSummary => exact absurd rfl other
  | initializing pc =>
    cases event with
    | gpio done =>
      simp only [AppPc.logs]
      split <;> rfl
    | _ => rfl
  | disable pc started =>
    cases event with
    | gpio done =>
      simp only [AppPc.logs]
      split
      · cases started <;> rfl
      · rfl
    | _ => rfl
  | starting =>
    cases event with
    | started result =>
      simp only [AppPc.logs]
      split <;> rfl
    | _ => rfl
  | receiving batchIndex =>
    cases event with
    | received result frame =>
      simp only [AppPc.logs]
      split_ifs <;> rfl
    | _ => rfl
  | stopping =>
    cases event with
    | stopped result =>
      simp only [AppPc.logs]
      split <;> rfl
    | _ => rfl
  | _ => cases event <;> rfl

theorem App.reported_other {s : App} {event : Event} {pc : AppPc} (at_pc : s.pc = some pc)
    (other : pc ≠ .checkSummary) : s.reported event = 0 := by
  rw [reported, summaries_other at_pc other]
  rfl

theorem App.reported_check {s : App} {now : BitVec 32} (at_pc : s.pc = some .checkSummary) :
    s.reported (.ticks now) = if s.locals.summarizes now then s.locals.intervalCount else 0 := by
  rw [reported, summaries_check at_pc]
  split
  · exact add_zero _
  · rfl

/-- The counters after some frames, of which some have been reported. -/
structure Counts (frames : List RawCanFrame) (reported : BitVec 32) (locals : Locals) : Prop where
  received : locals.receivedCount = BitVec.ofNat 64 frames.length
  interval : reported + locals.intervalCount = BitVec.ofNat 32 frames.length
  latest : locals.latest = (frames.getLast?.map metadataFrom).getD {}

theorem Counts.count {frames : List RawCanFrame} {reported : BitVec 32} {locals : Locals}
    (h : Counts frames reported locals) (frame : RawCanFrame) :
    Counts (frames ++ [frame]) reported (locals.count frame) := by
  refine ⟨?_, ?_, ?_⟩
  · rw [List.length_append, BitVec.ofNat_add, ← h.received]
    rfl
  · rw [List.length_append, BitVec.ofNat_add, ← h.interval, BitVec.add_assoc]
    rfl
  · rw [List.getLast?_concat]
    rfl

theorem Counts.summarized {frames : List RawCanFrame} {reported : BitVec 32} {locals : Locals}
    (h : Counts frames reported locals) (now period : BitVec 32) :
    Counts frames (reported + locals.intervalCount) (locals.summarized now period) :=
  ⟨h.received, (BitVec.add_zero _).trans h.interval, h.latest⟩

namespace App

variable {tickRate : ℕ} {s t : App} {event : Event} {es : List Event}

theorem next_counts {frames : List RawCanFrame} {reported : BitVec 32}
    (h : Counts frames reported s.locals) (step : s.next tickRate event = some t) :
    Counts (frames ++ s.counted event) (reported + s.reported event) t.locals := by
  obtain ⟨pc, control, at_pc, inside, -⟩ := next_step step
  have steps := AppPc.step_cases inside
  clear step inside
  -- a step that is neither of the two that touch the counters
  have quiet (nothing : s.counted event = []) (other : pc ≠ .checkSummary)
      (same : Counts frames reported t.locals) :
      Counts (frames ++ s.counted event) (reported + s.reported event) t.locals := by
    rw [nothing, reported_other at_pc other, List.append_nil, add_zero]
    exact same
  generalize t.locals = locals' at steps quiet ⊢
  cases steps with
  | count batchIndex frame =>
    rw [reported_other at_pc (by simp), add_zero]
    simp only [counted, at_pc]
    exact h.count frame
  | summarize now due =>
    rw [reported_check at_pc, if_pos due]
    simp only [counted, List.append_nil]
    exact h.summarized now _
  | silent now early some =>
    rw [reported_check at_pc, if_neg (by simp [early]), add_zero]
    simp only [counted, List.append_nil]
    exact h
  | idle now none =>
    rw [reported_check at_pc, if_neg (by simp [Locals.summarizes, none]), add_zero]
    simp only [counted, List.append_nil]
    exact ⟨h.received, h.interval, h.latest⟩
  | failure batchIndex result frame failed late =>
    refine quiet ?_ (by simp) h
    cases result with
    | ok => exact absurd rfl failed
    | _ => rfl
  | firstDeadline now => exact quiet rfl (by simp) ⟨h.received, h.interval, h.latest⟩
  | delay => exact quiet rfl (by simp) ⟨h.received, h.interval, h.latest⟩
  | _ => exact quiet rfl (by simp) h

theorem counts (run : exec (next tickRate) ({} : App) es = some s) :
    Counts (trace (next tickRate) counted {} es) (total (next tickRate) reported {} es)
      s.locals := by
  refine exec_history (P := fun es s => Counts (trace (next tickRate) counted {} es)
    (total (next tickRate) reported {} es) s.locals) ⟨rfl, rfl, rfl⟩ ?_ run
  intro es t event u run h step
  rw [trace_concat run, total_concat run]
  exact next_counts h step

end App

/-! ### The pace of the summaries -/

/-- The tick counter shows the low bits of the time. -/
def Event.onClock : Event × ℕ → Bool
  | (.ticks now, time) => now = BitVec.ofNat 32 time
  | _ => true

def AppPc.beforeLoop : AppPc → Bool
  | .initializing _ | .start | .starting | .firstDeadline => true
  | .disable _ started => !started
  | _ => false

theorem AppPc.batch_cases (batchIndex : ℕ) :
    batch batchIndex = .receive batchIndex ∧ batchIndex < maxFramesPerBatch ∨
      batch batchIndex = .checkSummary ∧ maxFramesPerBatch ≤ batchIndex := by
  unfold batch
  split
  · rename_i more
    exact .inl ⟨rfl, more⟩
  · rename_i full
    exact .inr ⟨rfl, not_lt.mp full⟩

namespace App

/-- app_main with the time at which each of its steps is made. -/
def nextAt (tickRate : ℕ) (s : App) (k : Event × ℕ) : Option App :=
  if Event.onClock k then s.next tickRate k.1 else none

/-- The time at which a step sets the deadline of the next summary. -/
def deadlineSet (s : App) (k : Event × ℕ) : List ℕ :=
  if s.pc = some .firstDeadline ∨ s.summaries k.1 ≠ [] then [k.2] else []

variable {tickRate : ℕ} {s t : App} {k : Event × ℕ} {ks : List (Event × ℕ)} {marks : List ℕ}

/-- The deadline is a period after the last of the times at which it was set. -/
structure Paced (tickRate : ℕ) (marks : List ℕ) (s : App) : Prop where
  apart : marks.IsChain fun a b => a + tickRate ≤ b
  before : ∀ pc ∈ s.pc, pc.beforeLoop = true → marks = []
  since : ∀ pc ∈ s.pc, pc.beforeLoop = false → ∃ last ∈ marks.getLast?,
    s.locals.summaryDeadline = BitVec.ofNat 32 (last + tickRate)

theorem summaryPeriodTicks_eq (rate : 1000 * tickRate < 2 ^ 32) :
    summaryPeriodTicks tickRate = BitVec.ofNat 32 tickRate := by
  apply BitVec.eq_of_toNat_eq
  have small : tickRate < 2 ^ 32 := by omega
  simp only [summaryPeriodTicks, msToTicks, BitVec.toNat_udiv, BitVec.toNat_mul, BitVec.toNat_ofNat,
    Nat.mod_eq_of_lt small]
  calc 1000 % 2 ^ 32 * tickRate % 2 ^ 32 / 1000
      = 1000 * tickRate / 1000 := by
        rw [Nat.mod_eq_of_lt (by decide : 1000 < 2 ^ 32), Nat.mod_eq_of_lt rate]
    _ = tickRate := Nat.mul_div_cancel_left tickRate (by decide)

theorem Paced.next (rate : 1000 * tickRate < 2 ^ 32) (h : s.Paced tickRate marks)
    (later : ∀ mark ∈ marks, mark ≤ k.2) (step : s.nextAt tickRate k = some t) :
    t.Paced tickRate (marks ++ s.deadlineSet k) := by
  obtain ⟨event, time⟩ := k
  obtain ⟨reads, step⟩ := Option.ite_none_right_eq_some.mp step
  obtain ⟨pc, control, at_pc, inside, left⟩ := next_step step
  have steps := AppPc.step_cases inside
  rw [summaryPeriodTicks_eq rate] at steps
  have half : 2 * tickRate ≤ 2 ^ 32 := by omega
  have set : s.deadlineSet (event, time) =
      if pc = .firstDeadline ∨ s.summaries event ≠ [] then [time] else [] := by
    simp only [deadlineSet, at_pc, Option.some.injEq]
  -- the deadline is not set, and the loop is neither entered nor left
  have quiet (nothing : s.deadlineSet (event, time) = [])
      (deadline : t.locals.summaryDeadline = s.locals.summaryDeadline)
      (stays : ∀ pc' ∈ control.pc?, pc'.beforeLoop = pc.beforeLoop) :
      t.Paced tickRate (marks ++ s.deadlineSet (event, time)) := by
    rw [nothing, List.append_nil]
    refine ⟨h.apart, ?_, ?_⟩
    · intro pc' at_pc' before
      rw [left] at at_pc'
      exact h.before pc at_pc ((stays pc' at_pc').symm.trans before)
    · intro pc' at_pc' inLoop
      rw [left] at at_pc'
      rw [deadline]
      exact h.since pc at_pc ((stays pc' at_pc').symm.trans inLoop)
  generalize same : t.locals = locals' at steps quiet
  cases steps with
  | firstDeadline now =>
    have none := h.before _ at_pc rfl
    rw [set, if_pos (.inl rfl), none, List.nil_append]
    refine ⟨.singleton time, ?_, ?_⟩
    · intro pc' at_pc' before
      rw [left] at at_pc'
      obtain rfl := Option.some.inj at_pc'
      cases before
    · intro pc' at_pc' inLoop
      refine ⟨time, rfl, ?_⟩
      have reading : now = BitVec.ofNat 32 time := of_decide_eq_true reads
      rw [same, reading, BitVec.ofNat_add]
  | summarize now due =>
    obtain ⟨last, isLast, deadline⟩ := h.since _ at_pc rfl
    have reading : now = BitVec.ofNat 32 time := of_decide_eq_true reads
    have logged : s.summaries (.ticks now) ≠ [] := by
      rw [summaries_check at_pc, if_pos due]
      simp
    have passed : tickRate ≤ time - last := by
      have overdue := (Bool.and_eq_true_iff.mp due).2
      rw [deadline, reading,
        WrappingClock.due_ofNat half (later last (List.mem_of_getLast? isLast))] at overdue
      exact overdue.1
    rw [set, if_pos (.inr logged)]
    refine ⟨?_, ?_, ?_⟩
    · refine List.isChain_append.mpr ⟨h.apart, .singleton time, ?_⟩
      intro last' isLast' next isNext
      obtain rfl := Option.some.inj isNext
      obtain rfl := Option.some.inj (isLast.symm.trans isLast')
      have before : last ≤ time := later last (List.mem_of_getLast? isLast)
      omega
    · intro pc' at_pc' before
      rw [left] at at_pc'
      obtain rfl := Option.some.inj at_pc'
      cases before
    · intro pc' at_pc' inLoop
      refine ⟨time, List.getLast?_concat, ?_⟩
      rw [same, reading, BitVec.ofNat_add]
      rfl
  | silent now early some =>
    have nothing : s.summaries (.ticks now) = [] := by
      rw [summaries_check at_pc, if_neg (by simp [early])]
    exact quiet (by rw [set, if_neg (by simp [nothing])]) rfl (by simp [AppPc.beforeLoop])
  | idle now none =>
    have nothing : s.summaries (.ticks now) = [] := by
      rw [summaries_check at_pc, if_neg (by simp [Locals.summarizes, none])]
    exact quiet (by rw [set, if_neg (by simp [nothing])]) rfl (by simp [AppPc.beforeLoop])
  | initialized inside =>
    refine quiet ?_ rfl ?_
    · rw [set, if_neg (by simp [summaries_other at_pc])]
    · split <;> simp [AppPc.beforeLoop]
  | count batchIndex frame =>
    refine quiet ?_ rfl ?_
    · rw [set, if_neg (by simp [summaries_other at_pc])]
    · intro pc' isNext
      obtain rfl := Option.some.inj isNext
      rcases AppPc.batch_cases (batchIndex + 1) with ⟨same, -⟩ | ⟨same, -⟩ <;> rw [same] <;> rfl
  | _ =>
    refine quiet ?_ rfl ?_
    · rw [set, if_neg (by simp [summaries_other at_pc])]
    · simp [AppPc.beforeLoop]

/-- A step of app_main sets the deadline at its own time. -/
theorem mem_deadlineSet {mark : ℕ} (mem : mark ∈ s.deadlineSet k) : mark = k.2 := by
  unfold deadlineSet at mem
  split at mem
  · exact List.mem_singleton.mp mem
  · cases mem

theorem paced (rate : 1000 * tickRate < 2 ^ 32)
    (run : exec (nextAt tickRate) ({} : App) ks = some s)
    (clock : (ks.map Prod.snd).Pairwise (· ≤ ·)) :
    s.Paced tickRate (trace (nextAt tickRate) deadlineSet {} ks) ∧
      ∀ mark ∈ trace (nextAt tickRate) deadlineSet {} ks, mark ∈ ks.map Prod.snd := by
  refine exec_history (P := fun ks s => (ks.map Prod.snd).Pairwise (· ≤ ·) →
    s.Paced tickRate (trace (nextAt tickRate) deadlineSet {} ks) ∧
      ∀ mark ∈ trace (nextAt tickRate) deadlineSet {} ks, mark ∈ ks.map Prod.snd) ?_ ?_ run clock
  · intro _
    refine ⟨⟨.nil, fun _ _ _ => rfl, ?_⟩, by simp [trace]⟩
    intro pc at_pc inLoop
    obtain rfl := Option.some.inj at_pc
    cases inLoop
  · intro ks t k u run h step clock
    rw [List.map_append, List.pairwise_append] at clock
    obtain ⟨before, -, ordered⟩ := clock
    obtain ⟨paced, known⟩ := h before
    have later : ∀ mark ∈ trace (nextAt tickRate) deadlineSet {} ks, mark ≤ k.2 :=
      fun mark mem => ordered mark (known mark mem) k.2 (List.mem_singleton_self _)
    rw [trace_concat run]
    refine ⟨paced.next rate later step, ?_⟩
    intro mark mem
    rw [List.map_append]
    rcases List.mem_append.mp mem with old | new
    · exact List.mem_append_left _ (known mark old)
    · rw [mem_deadlineSet new]
      exact List.mem_append_right _ (List.mem_singleton_self _)

/-- Whatever its surroundings do, app_main sets the deadline of a summary at times that lie at
least a second of ticks apart, the first one before its loop and the others with a summary.
After a batch with frames it logs one, unless a second has not passed or the tick counter
has moved on by between one half and one turn since the deadline. -/
theorem summaries_paced (rate : 1000 * tickRate < 2 ^ 32)
    (run : exec (nextAt tickRate) ({} : App) ks = some s)
    (clock : (ks.map Prod.snd).Pairwise (· ≤ ·)) :
    let marks := trace (nextAt tickRate) deadlineSet ({} : App) ks
    (marks.IsChain fun a b => a + tickRate ≤ b) ∧
      ∀ time, (∀ k ∈ ks, k.2 ≤ time) → s.pc = some .checkSummary →
        ∃ last ∈ marks.getLast?, (s.summaries (.ticks (BitVec.ofNat 32 time)) ≠ [] ↔
          s.locals.receivedBatch = true ∧ tickRate ≤ time - last ∧
            2 * ((time - last - tickRate) % 2 ^ 32) < 2 ^ 32) := by
  intro marks
  obtain ⟨h, known⟩ := paced rate run clock
  refine ⟨h.apart, ?_⟩
  intro time later at_pc
  obtain ⟨last, isLast, deadline⟩ := h.since _ at_pc rfl
  refine ⟨last, isLast, ?_⟩
  obtain ⟨k, mem, same⟩ := List.mem_map.mp (known last (List.mem_of_getLast? isLast))
  have before : last ≤ time := same ▸ later k mem
  have logged : s.summaries (.ticks (BitVec.ofNat 32 time)) ≠ [] ↔
      s.locals.summarizes (BitVec.ofNat 32 time) = true := by
    rw [summaries_check at_pc]
    split <;> simp_all
  have half : 2 * tickRate ≤ 2 ^ 32 := by omega
  rw [logged, Locals.summarizes, Bool.and_eq_true, deadline, WrappingClock.due_ofNat half before]

/-- The board is set up, the bus is started and the first deadline is set. -/
def bootRun : List Event :=
  List.replicate 17 (.gpio true) ++ [.entered, .started .ok, .ticks 0]

/-- A batch of one frame, which comes late. -/
def lateBatchRun : List Event :=
  [.entered, .received .ok { dlc := 2 }, .entered, .received .timeout {}]

theorem summaries_paced_late :
    let ks := (bootRun ++ lateBatchRun).map fun event => (event, 0)
    let s := final (nextAt 100) ({} : App) ks
    ∃ last ∈ (trace (nextAt 100) deadlineSet ({} : App) ks).getLast?,
      s.summaries (.ticks (BitVec.ofNat 32 150)) ≠ [] ↔ 100 ≤ 150 - last := by
  intro ks s
  have run : exec (nextAt 100) ({} : App) ks = some s := exec_eq_final _ _ ks (by decide)
  obtain ⟨-, logs⟩ := summaries_paced (by decide) run (by decide)
  obtain ⟨last, isLast, logged⟩ := logs 150 (by decide) (by decide)
  refine ⟨last, isLast, logged.trans ?_⟩
  have batch : s.locals.receivedBatch = true := by decide
  constructor
  · exact fun all => all.2.1
  · intro passed
    exact ⟨batch, passed, by omega⟩

/-! ### The batches -/

/-- No vTaskDelay() ends at this step. -/
def undelayed (_ : App) : Event → Bool
  | .delayed => false
  | _ => true

/-- A receive() is called. -/
def calls (s : App) : Event → ℕ
  | .entered => match s.pc with
    | some (.receive _) => 1
    | _ => 0
  | _ => 0

/-- The first receive() of a batch has waited in vain. -/
def waits (s : App) : Event → ℕ
  | .received .timeout _ => match s.pc with
    | some (.receiving 0) => 1
    | _ => 0
  | _ => 0

/-- The frames that can still be counted without a delay. -/
def left (s : App) : ℕ :=
  match s.pc with
  | some (.receive batchIndex) | some (.receiving batchIndex) => maxFramesPerBatch - batchIndex
  | some .checkSummary => if s.locals.receivedBatch then 0 else maxFramesPerBatch
  | some (.initializing _) | some .start | some .starting | some .firstDeadline =>
    maxFramesPerBatch
  | _ => 0

def inReceive (s : App) : ℕ :=
  match s.pc with
  | some (.receiving _) => 1
  | _ => 0

/-- A batch has frames once its first receive() is over. -/
structure Batched (s : App) : Prop where
  more : ∀ batchIndex, s.pc = some (.receive batchIndex) ∨ s.pc = some (.receiving batchIndex) →
    batchIndex < maxFramesPerBatch ∧ s.locals.receivedBatch = decide (0 < batchIndex)

theorem left_le (s : App) : s.left ≤ maxFramesPerBatch := by
  unfold left
  split <;> first | omega | (split <;> omega)

/-- A receive() that is called now waits exactly if it is the first of its batch, and that it is
exactly if the batch has no frame yet. -/
theorem Batched.waits_first (h : s.Batched) {timeoutMs : BitVec 32}
    (asks : s.pc.bind AppPc.busCall? = some (.beginReceive timeoutMs)) :
    ∃ batchIndex, s.pc = some (.receive batchIndex) ∧ (timeoutMs ≠ 0 ↔ batchIndex = 0) ∧
      (batchIndex = 0 ↔ s.locals.receivedBatch = false) := by
  obtain ⟨pc, at_pc, asks⟩ := Option.bind_eq_some_iff.mp asks
  cases pc with
  | receive batchIndex =>
    obtain ⟨-, batch⟩ := h.more batchIndex (.inl at_pc)
    obtain rfl := CanBus.Choice.beginReceive.inj (Option.some.inj asks)
    refine ⟨batchIndex, at_pc, ?_, ?_⟩
    · cases batchIndex <;> simp [AppPc.receiveTimeoutMs]
    · rw [batch, decide_eq_false_iff_not, Nat.not_lt, Nat.le_zero]
  | _ => cases asks

/-- In a receive() there is room for its frame. -/
theorem Batched.inReceive_le (h : s.Batched) : s.inReceive ≤ s.left := by
  unfold inReceive
  split
  case h_1 batchIndex at_pc =>
    obtain ⟨more, -⟩ := h.more batchIndex (.inr at_pc)
    simp only [left, at_pc]
    omega
  case h_2 => exact Nat.zero_le _

theorem Batched.next (h : s.Batched) {event : Event} (step : s.next tickRate event = some t) :
    t.Batched := by
  obtain ⟨pc, control, at_pc, inside, left⟩ := next_step step
  have steps := AppPc.step_cases inside
  generalize same : t.locals = locals' at steps
  refine ⟨?_⟩
  intro batchIndex within
  rw [left] at within
  rw [same]
  cases steps with
  | receive batchIndex' =>
    obtain ⟨more, batch⟩ := h.more batchIndex' (.inl at_pc)
    simp at within
    obtain rfl := within
    exact ⟨more, batch⟩
  | count batchIndex' frame =>
    rcases AppPc.batch_cases (batchIndex' + 1) with ⟨next, more⟩ | ⟨next, -⟩
    · simp only [next, Control.pc?_next, Option.some.injEq, AppPc.receive.injEq, reduceCtorEq,
        or_false] at within
      obtain rfl := within
      exact ⟨more, (decide_eq_true (Nat.succ_pos _)).symm⟩
    · simp [next] at within
  | initialized inside =>
    split at within <;> simp at within
  | firstDeadline now =>
    simp only [Control.pc?_next, Option.some.injEq, AppPc.receive.injEq, reduceCtorEq,
      or_false] at within
    obtain rfl := within
    exact ⟨by decide, rfl⟩
  | idle now none =>
    simp only [Control.pc?_next, Option.some.injEq, AppPc.receive.injEq, reduceCtorEq,
      or_false] at within
    obtain rfl := within
    exact ⟨by decide, rfl⟩
  | delay =>
    simp only [Control.pc?_next, Option.some.injEq, AppPc.receive.injEq, reduceCtorEq,
      or_false] at within
    obtain rfl := within
    exact ⟨by decide, rfl⟩
  | _ => simp at within

theorem Batched.step_left (h : s.Batched) {event : Event} (busy : s.undelayed event = true)
    (step : s.next tickRate event = some t) :
    (s.counted event).length + t.left ≤ s.left ∧
      t.left + s.inReceive + s.calls event ≤ s.left + t.inReceive + s.waits event := by
  obtain ⟨pc, control, at_pc, inside, left⟩ := next_step step
  have steps := AppPc.step_cases inside
  generalize same : t.locals = locals' at steps
  cases steps with
  | receive batchIndex =>
    simp only [App.left, inReceive, counted, calls, waits, at_pc, left]
    exact ⟨by simp, by simp⟩
  | timeout batchIndex frame =>
    obtain ⟨more, batch⟩ := h.more batchIndex (.inr at_pc)
    simp only [App.left, inReceive, counted, calls, waits, at_pc, left, same, batch,
      Control.pc?_next, decide_eq_true_eq]
    cases batchIndex with
    | zero => exact ⟨by simp, by simp⟩
    | succ batchIndex =>
      refine ⟨by simp, ?_⟩
      simp only [Nat.succ_pos, if_true]
      omega
  | failure batchIndex result frame failed late =>
    obtain ⟨more, -⟩ := h.more batchIndex (.inr at_pc)
    have nothing : s.counted (.received result frame) = [] := by
      cases result with
      | ok => exact absurd rfl failed
      | _ => rfl
    simp only [App.left, inReceive, nothing, calls, at_pc, left, Control.pc?_next]
    exact ⟨by simp, by omega⟩
  | count batchIndex frame =>
    obtain ⟨more, -⟩ := h.more batchIndex (.inr at_pc)
    have batch : t.locals.receivedBatch = true := by
      rw [same]
      rfl
    have after : t.left + (batchIndex + 1) = maxFramesPerBatch := by
      rcases AppPc.batch_cases (batchIndex + 1) with ⟨next, more⟩ | ⟨next, full⟩
      · simp only [App.left, left, next, Control.pc?_next]
        omega
      · simp only [App.left, left, next, Control.pc?_next, batch, if_true]
        omega
    simp only [App.left, inReceive, counted, calls, waits, at_pc, List.length_singleton] at after ⊢
    exact ⟨by omega, by omega⟩
  | idle now none =>
    simp [App.left, inReceive, counted, calls, waits, at_pc, left, none]
  | silent now early some =>
    simp [App.left, inReceive, counted, calls, waits, at_pc, left]
  | initialized inside =>
    refine ⟨?_, ?_⟩ <;> split at left <;>
      simp [App.left, inReceive, counted, calls, waits, at_pc, left]
  | delay => cases busy
  | _ => simp [App.left, inReceive, counted, calls, waits, at_pc, left]

/-- From any state that app_main can be in, until a vTaskDelay() ends, it counts at most sixteen
frames, and calls receive() at most so often beside the calls that have waited a second in
vain. Only the first receive() of a batch waits. -/
theorem batches_bounded {ls : List Event} {es : List Event} {u : App}
    (before : exec (next tickRate) ({} : App) es = some s)
    (run : exec (guarded undelayed (next tickRate)) s ls = some u) :
    (trace (guarded undelayed (next tickRate)) counted s ls).length ≤ maxFramesPerBatch ∧
      total (guarded undelayed (next tickRate)) calls s ls ≤
        maxFramesPerBatch + total (guarded undelayed (next tickRate)) waits s ls ∧
      ∀ timeoutMs, u.pc.bind AppPc.busCall? = some (.beginReceive timeoutMs) →
        ∃ batchIndex, u.pc = some (.receive batchIndex) ∧ (timeoutMs ≠ 0 ↔ batchIndex = 0) ∧
          (batchIndex = 0 ↔ u.locals.receivedBatch = false) := by
  have start : s.Batched := by
    refine exec_invariant (P := Batched) (fun _ _ _ h step => h.next step) before ⟨?_⟩
    intro batchIndex within
    simp at within
  have bounds : u.Batched ∧
      (trace (guarded undelayed (next tickRate)) counted s ls).length + u.left ≤ s.left ∧
      u.left + s.inReceive + total (guarded undelayed (next tickRate)) calls s ls ≤
        s.left + u.inReceive + total (guarded undelayed (next tickRate)) waits s ls := by
    refine exec_history (P := fun ls u => Batched u ∧
      (trace (guarded undelayed (next tickRate)) counted s ls).length + u.left ≤ s.left ∧
      u.left + s.inReceive + total (guarded undelayed (next tickRate)) calls s ls ≤
        s.left + u.inReceive + total (guarded undelayed (next tickRate)) waits s ls)
      ⟨start, by simp [trace], by simp⟩ ?_ run
    rintro ls t event u run ⟨batched, frames, received⟩ step
    obtain ⟨busy, moved⟩ := guarded_eq_some.mp step
    obtain ⟨fewer, less⟩ := batched.step_left busy moved
    rw [trace_concat run, total_concat run, total_concat run, List.length_append]
    exact ⟨batched.next moved, by omega, by omega⟩
  obtain ⟨batched, frames, received⟩ := bounds
  have most := s.left_le
  have room := batched.inReceive_le
  exact ⟨by omega, by omega, fun _ asks => batched.waits_first asks⟩

/-- Sixteen frames, each as soon as it is asked for. -/
def fullBatchRun : List Event :=
  (List.replicate 16 [.entered, .received .ok { dlc := 2 }]).flatten ++ [.ticks 0]

theorem batches_bounded_full :
    let s := final (next 100) ({} : App) bootRun
    (trace (guarded undelayed (next 100)) counted s fullBatchRun).length = 16 ∧
      total (guarded undelayed (next 100)) calls s fullBatchRun ≤ 16 := by
  intro s
  have before : exec (next 100) ({} : App) bootRun = some s := exec_eq_final _ _ bootRun (by decide)
  have run := exec_eq_final (guarded undelayed (next 100)) s fullBatchRun (by decide)
  have waits : total (guarded undelayed (next 100)) waits s fullBatchRun = 0 := by decide
  have bounds := (batches_bounded before run).2.1
  rw [waits] at bounds
  exact ⟨by decide, bounds⟩

end App

end CanTelemetry.Tcan485Bench
