import CanTelemetry.Foundation.LastWriter
import CanTelemetry.Foundation.Monitor
import CanTelemetry.VehicleCore.NotificationHandles

/-! Who is served next. A dispatch takes the oldest pending registration after the cursor,
or the oldest of all. With two slots of different registration orders a slot that is
pending waits for one delivery at most. The order is a counter of 64 bits; where it has
come round to the order of the other slot, the cursor does not tell the slots apart, and
the second one starves. -/

namespace CanTelemetry.VehicleCore.NotificationChannel

open Execution Threads NonzeroCounter LastWriter

variable {C X T : Type*}

/-! ### The selection -/

section Selection

variable {c c' : NotificationChannel C X T} {qualifies : Slot → Bool} {selected : Option Slot}
  {i j : Slot}

def order (c : NotificationChannel C X T) (i : Slot) : BitVec 64 :=
  (c.subscribers i).registrationOrder

/-- Of two slots the loops select this one: the order decides, and then the index. -/
def Precedes (c : NotificationChannel C X T) (i j : Slot) : Prop :=
  c.order i < c.order j ∨ c.order i = c.order j ∧ i ≤ j

theorem Precedes.refl (c : NotificationChannel C X T) (i : Slot) : c.Precedes i i :=
  .inr ⟨rfl, le_rfl⟩

theorem Precedes.order_le (h : c.Precedes i j) : c.order i ≤ c.order j := by
  rcases h with less | ⟨same, -⟩
  · exact BitVec.le_of_lt less
  · rw [same]
    exact BitVec.le_refl _

/-- The slot that a loop has selected among those it has seen. -/
def FirstOf (c : NotificationChannel C X T) (qualifies : Slot → Bool) (seen : List Slot) :
    Option Slot → Prop
  | none => ∀ j ∈ seen, c.Selectable j → qualifies j = false
  | some i => i ∈ seen ∧ c.Selectable i ∧ qualifies i = true ∧
    ∀ j ∈ seen, c.Selectable j → qualifies j = true → c.Precedes i j

/-- The slots that the loop does not skip. -/
def candidates (c : NotificationChannel C X T) (qualifies : Slot → Bool) : List Slot :=
  (List.finRange _).filter fun i =>
    (c.subscribers i).active && (c.subscribers i).pending && qualifies i

theorem mem_candidates : i ∈ c.candidates qualifies ↔ c.Selectable i ∧ qualifies i = true := by
  simp [candidates, Selectable]

theorem candidates_sorted (c : NotificationChannel C X T) (qualifies : Slot → Bool) :
    (c.candidates qualifies).Pairwise (· < ·) :=
  (List.pairwise_lt_finRange _).filter _

/-- The older registration counts as the later write. -/
def seniority (c : NotificationChannel C X T) (i : Slot) : ℕᵒᵈ :=
  OrderDual.toDual (c.order i).toNat

/-- The loop is a register that the candidates write one after the other. -/
theorem oldestPending_eq (c : NotificationChannel C X T) (qualifies : Slot → Bool) :
    c.oldestPending qualifies = written c.seniority (c.candidates qualifies) := by
  unfold oldestPending written candidates
  rw [List.foldl_filter]
  congr 1
  funext selected i
  unfold selectOlder
  cases (c.subscribers i).active && (c.subscribers i).pending && qualifies i with
  | false => rfl
  | true => cases selected <;> rfl

/-- The loop selects the first of all slots. -/
theorem oldestPending_first (c : NotificationChannel C X T) (qualifies : Slot → Bool) :
    c.FirstOf qualifies (List.finRange _) (c.oldestPending qualifies) := by
  rw [oldestPending_eq]
  rcases written_firstLatest c.seniority (c.candidates qualifies) with
    ⟨empty, none⟩ | ⟨i, found, latest⟩
  · rw [none]
    intro j _ selectable
    refine Bool.eq_false_iff.mpr fun own => ?_
    have member := mem_candidates.mpr ⟨selectable, own⟩
    rw [empty] at member
    cases member
  · rw [found]
    obtain ⟨selectable, own⟩ := mem_candidates.mp latest.mem
    refine ⟨List.mem_finRange i, selectable, own, ?_⟩
    intro j _ other qualified
    have member := mem_candidates.mpr ⟨other, qualified⟩
    have sorted := c.candidates_sorted qualifies
    obtain ⟨before, after, parts, earlier, later⟩ := latest
    rw [parts] at member sorted
    rcases List.mem_append.mp member with first | rest
    · exact .inl (BitVec.lt_def.mpr (earlier j first))
    · rcases List.mem_cons.mp rest with rfl | behind
      · exact .refl c j
      · have index := List.rel_of_pairwise_cons (List.pairwise_append.mp sorted).2.1 behind
        rcases Nat.lt_or_eq_of_le (later j behind) with less | same
        · exact .inl (BitVec.lt_def.mpr less)
        · exact .inr ⟨BitVec.eq_of_toNat_eq same, index.le⟩

theorem nextPendingSubscriber_eq_none (h : c.nextPendingSubscriber = none) (i : Slot) :
    ¬c.Selectable i := by
  intro selectable
  have first := c.oldestPending_first fun _ => true
  unfold nextPendingSubscriber at h
  split at h
  · cases h
  · rw [h] at first
    exact absurd (first i (List.mem_finRange i) selectable) (by simp)

/-- The slot that is selected is the first one after the cursor, or there is none after it
and it is the first one of all. -/
theorem nextPendingSubscriber_eq_some (h : c.nextPendingSubscriber = some i) :
    c.dispatchCursorOrder < c.order i ∧
        (∀ j, c.Selectable j → c.dispatchCursorOrder < c.order j → c.Precedes i j) ∨
      (∀ j, c.Selectable j → c.order j ≤ c.dispatchCursorOrder) ∧
        ∀ j, c.Selectable j → c.Precedes i j := by
  have after := c.oldestPending_first fun i =>
    decide (c.dispatchCursorOrder < (c.subscribers i).registrationOrder)
  have all := c.oldestPending_first fun _ => true
  unfold nextPendingSubscriber at h
  split at h
  · rename_i k found
    obtain rfl := Option.some.inj h
    rw [found] at after
    obtain ⟨-, -, own, first⟩ := after
    refine .inl ⟨of_decide_eq_true own, ?_⟩
    intro j selectable beyond
    exact first j (List.mem_finRange j) selectable (decide_eq_true beyond)
  · rename_i none
    rw [none] at after
    rw [h] at all
    refine .inr ⟨?_, ?_⟩
    · intro j selectable
      exact BitVec.not_lt.mp (of_decide_eq_false (after j (List.mem_finRange j) selectable))
    · intro j selectable
      exact all.2.2.2 j (List.mem_finRange j) selectable rfl

end Selection

/-! ### One delivery at most -/

section Turns

variable {c c' : NotificationChannel C X T} {d : Delivery C X T} {i : Slot} {others : ℕ}

/-- There is only one other slot. -/
theorem other_slot {i j k : Slot} (other : i ≠ k) (other' : j ≠ k) : i = j := by
  have first : (i : ℕ) < 2 := i.isLt
  have second : (j : ℕ) < 2 := j.isLt
  have third : (k : ℕ) < 2 := k.isLt
  rw [Ne, Fin.ext_iff] at other other'
  exact Fin.ext (by omega)

/-- No two subscriptions have the same registration order. -/
def DistinctOrders (c : NotificationChannel C X T) : Prop :=
  ∀ i j, (c.subscribers i).active = true → (c.subscribers j).active = true →
    c.order i = c.order j → i = j

instance : Decidable c.DistinctOrders :=
  inferInstanceAs (Decidable (∀ i j, (c.subscribers i).active = true →
    (c.subscribers j).active = true → c.order i = c.order j → i = j))

theorem DistinctOrders.of_same (h : c.DistinctOrders) (same : SameRegistrations c c') :
    c'.DistinctOrders := by
  intro i j active active' equal
  refine h i j (same.active i active) (same.active j active') ?_
  exact (same.order i active).symm.trans (equal.trans (same.order j active'))

/-- The notice of the slot is pending, and at most so many other deliveries begin before it
is delivered. -/
structure Owed (c : NotificationChannel C X T) (i : Slot) (others : ℕ) : Prop where
  selectable : c.Selectable i
  next : others = 0 → ∀ j, j ≠ i → (c.subscribers j).active = true →
    c.dispatchCursorOrder = c.order j

theorem dispatchBegin_slot (h : c.dispatchBegin = .ok (d, c')) :
    c.nextPendingSubscriber = some d.slot := by
  unfold dispatchBegin at h
  split at h
  · cases h
  · split at h
    · cases h
    · split at h
      · cases h
      · rename_i i found
        obtain ⟨rfl, -⟩ := Prod.mk.inj (Except.ok.inj h)
        exact found

/-- A delivery to the other slot uses up what may come before. -/
theorem Owed.passed (h : c.Owed i others) (distinct : c.DistinctOrders)
    (begun : c.dispatchBegin = .ok (d, c')) (other : d.slot ≠ i) :
    others ≠ 0 ∧ c'.Owed i 0 := by
  obtain ⟨-, active, -, -, rfl⟩ := dispatchBegin_cases begun
  refine ⟨?_, ?_, ?_⟩
  · rintro rfl
    have cursor := h.next rfl d.slot other active
    rcases nextPendingSubscriber_eq_some (dispatchBegin_slot begun) with
      ⟨beyond, -⟩ | ⟨none, first⟩
    · rw [cursor] at beyond
      exact BitVec.lt_irrefl _ beyond
    · have before := none i h.selectable
      have after := (first i h.selectable).order_le
      rw [cursor] at before
      exact other (distinct _ _ active h.selectable.1 (BitVec.le_antisymm after before))
  · have same := setSubscriber_of_ne c (Ne.symm other) (c.subscribers d.slot).detach
    exact ⟨(congrArg Subscriber.active same).trans h.selectable.1,
      (congrArg Subscriber.pending same).trans h.selectable.2⟩
  · intro _ j apart _
    obtain rfl := other_slot apart other
    have own := setSubscriber_self c d.slot (c.subscribers d.slot).detach
    exact (congrArg Subscriber.registrationOrder own).symm

/-- A section of a channel that goes on running, and that begins no delivery. -/
structure Continues (c c' : NotificationChannel C X T) : Prop where
  running : c'.running = true
  cursor : c'.dispatchCursorOrder = c.dispatchCursorOrder
  registrations : SameRegistrations c c'
  selectable : ∀ i, c.Selectable i → c'.Selectable i

theorem Continues.refl (running : c.running = true) : Continues c c :=
  ⟨running, rfl, .refl c, fun _ => id⟩

theorem Owed.continues (h : c.Owed i others) (same : Continues c c') : c'.Owed i others := by
  refine ⟨same.selectable i h.selectable, ?_⟩
  intro none j other active
  have cursor := h.next none j other (same.registrations.active j active)
  exact same.cursor.trans (cursor.trans (same.registrations.order j active).symm)

theorem change_selectable (reading : Reading T) (active : (c.subscribers i).active = true) :
    (c.change reading).Selectable i := by
  have merged : (c.change reading).subscribers i =
      (c.subscribers i).mergePending (c.updateOf reading) := if_pos active
  have kept := (mergePending_registration (c.subscribers i) (c.updateOf reading)).2.1
  refine ⟨by rw [merged, kept, active], ?_⟩
  rw [merged, Subscriber.mergePending]
  split_ifs with pending
  · rfl
  · simpa using pending

/-- A stop is the only operation that ends a run. -/
theorem apply_running [BEq T] {channelId : BitVec 16} {op : Operation C X T}
    (running : c.running = true) (applied : op.apply channelId c = .ok c') :
    op = .stop ∨ Continues c c' := by
  cases op with
  | subscribe callback context => simp [Operation.apply, subscribe, running, Except.map] at applied
  | unsubscribe handle => simp [Operation.apply, unsubscribe, running] at applied
  | start => simp [Operation.apply, start, running] at applied
  | stop => exact .inl rfl
  | publish reading =>
    refine .inr ?_
    simp only [Operation.apply, publish, running, Bool.not_true, Bool.false_eq_true,
      if_false] at applied
    split_ifs at applied
    · obtain rfl := Except.ok.inj applied
      exact .refl running
    · obtain rfl := Except.ok.inj applied
      exact ⟨running, rfl, change_registrations c reading,
        fun i selectable => change_selectable reading selectable.1⟩

theorem dispatchEnd_continues (running : c.running = true) : Continues c c.dispatchEnd :=
  ⟨running, rfl, .of_slots rfl fun _ => ⟨rfl, rfl, rfl⟩, fun _ => id⟩

end Turns

/-- The slot whose delivery begins with a step of the thread. -/
def DispatchPc.begins (c : NotificationChannel C X T) : DispatchPc C X T → List Slot
  | .detach _ => (c.dispatchBegin.toOption.map fun r => r.1.slot).toList
  | .callback _ _ => []

/-- A step of a thread on a running channel. -/
theorem DispatchPc.step_running {c : NotificationChannel C X T} (running : c.running = true)
    (pc : DispatchPc C X T) :
    (∃ d, pc.begins c = [d.slot] ∧ c.dispatchBegin = .ok (d, (pc.step c).1)) ∨
      pc.begins c = [] ∧ Continues c (pc.step c).1 := by
  cases pc with
  | callback call d => exact .inr ⟨rfl, dispatchEnd_continues running⟩
  | detach call =>
    cases begun : c.dispatchBegin with
    | error status =>
      simp only [begins, step, begun]
      exact .inr ⟨rfl, .refl running⟩
    | ok result =>
      obtain ⟨d, c'⟩ := result
      simp only [begins, step, begun]
      exact .inl ⟨d, rfl, rfl⟩

namespace Dispatchers

section Bypass

/-- Every call but a stop that returns `ok`. -/
def withoutStop [BEq T] (channelId : BitVec 16) (s : Dispatchers C X T) : Call C X T → Bool
  | .operation .stop => !s.succeeds channelId .stop
  | _ => true

/-- The slot whose delivery begins with a step. -/
def begun (s : Dispatchers C X T) : Call C X T → List Slot
  | .thread i => (s.threads[i]?.map fun pc => pc.begins s.channel).getD []
  | _ => []

variable [BEq T] {channelId : BitVec 16} {s t : Dispatchers C X T} {k : Call C X T}
  {ks ls ms : List (Call C X T)} {i : Slot} {others : ℕ}

/-- One step of a run without a stop: a delivery begins, or the channel continues. -/
theorem next_running (running : s.channel.running = true)
    (steady : s.withoutStop channelId k = true) (step : s.next channelId k = some t) :
    (∃ d, s.begun k = [d.slot] ∧ s.channel.dispatchBegin = .ok (d, t.channel)) ∨
      s.begun k = [] ∧ Continues s.channel t.channel := by
  cases k with
  | operation op =>
    obtain rfl := Option.some.inj step
    refine .inr ⟨rfl, ?_⟩
    cases applied : op.apply channelId s.channel with
    | error status => exact .refl running
    | ok c =>
      rcases apply_running running applied with rfl | continues
      · simp [withoutStop, succeeds, applied, Except.toBool] at steady
      · exact continues
  | dispatchOne =>
    obtain rfl := Option.some.inj step
    exact .inr ⟨rfl, .refl running⟩
  | dispatchPending maxCallbacks =>
    obtain rfl := Option.some.inj step
    exact .inr ⟨rfl, .refl running⟩
  | thread i =>
    obtain ⟨pc, found, rfl⟩ := Option.map_eq_some_iff.mp step
    simp only [begun, found, Option.map_some, Option.getD_some]
    exact pc.step_running running

/-- The next delivery is owed to the slot, or the one after it. -/
theorem bypass (run : exec (guarded (withoutStop channelId) (next channelId)) s ms = some t)
    (running : s.channel.running = true) (distinct : s.channel.DistinctOrders)
    (owed : s.channel.Owed i others) (few : others ≤ 1) :
    ((trace (guarded (withoutStop channelId) (next channelId)) begun s ms).takeWhile
      (· ≠ i)).length ≤ others := by
  induction ms generalizing s others with
  | nil => simp [trace]
  | cons k ms ih =>
    obtain ⟨u, first, rest⟩ := exec_cons_eq_some.mp run
    obtain ⟨steady, step⟩ := guarded_eq_some.mp first
    rw [trace_cons first]
    rcases next_running running steady step with ⟨d, delivered, taken⟩ | ⟨none, continues⟩
    · rw [delivered, List.singleton_append]
      by_cases own : d.slot = i
      · simp [own]
      · obtain ⟨some, turn⟩ := owed.passed distinct taken own
        have running' := (dispatchBegin_invokes taken).2.1.running
        have next := ih rest running' (distinct.of_same (dispatchBegin_registrations taken)) turn
          (by omega)
        rw [List.takeWhile_cons_of_pos (by simpa using own), List.length_cons]
        omega
    · rw [none, List.nil_append]
      exact ih rest continues.running (distinct.of_same continues.registrations)
        (owed.continues continues) few

end Bypass

end Dispatchers

/-! ### One pass -/

namespace DispatchPc

/-- The slots whose callbacks a bounded pass has begun are as many as it has counted. -/
def Counts (begun : List Slot) : DispatchPc C X T → Prop
  | .detach (.dispatchPending maxCallbacks delivered) =>
    begun.length = delivered ∧ delivered < maxCallbacks
  | .callback (.dispatchPending maxCallbacks delivered) _ =>
    begun.length = delivered + 1 ∧ delivered < maxCallbacks
  | .detach .dispatchOne | .callback .dispatchOne _ => True

/-- The bound of the pass. -/
def bound : DispatchPc C X T → Option ℕ
  | .detach (.dispatchPending maxCallbacks _) | .callback (.dispatchPending maxCallbacks _) _ =>
    some maxCallbacks
  | .detach .dispatchOne | .callback .dispatchOne _ => none

variable {c : NotificationChannel C X T} {begun : List Slot} {pc : DispatchPc C X T}
  {maxCallbacks : ℕ}

theorem Counts.length_le (h : pc.Counts begun) (bounded : pc.bound = some maxCallbacks) :
    begun.length ≤ maxCallbacks := by
  cases pc with
  | detach call =>
    cases call with
    | dispatchOne => cases bounded
    | dispatchPending max delivered =>
      obtain rfl := Option.some.inj bounded
      have counts : begun.length = delivered ∧ delivered < max := h
      omega
  | callback call d =>
    cases call with
    | dispatchOne => cases bounded
    | dispatchPending max delivered =>
      obtain rfl := Option.some.inj bounded
      have counts : begun.length = delivered + 1 ∧ delivered < max := h
      omega

theorem Counts.length_lt (h : pc.Counts begun) (bounded : pc.bound = some maxCallbacks)
    (waiting : pc.invoking = false) : begun.length < maxCallbacks := by
  cases pc with
  | callback call d => cases waiting
  | detach call =>
    cases call with
    | dispatchOne => cases bounded
    | dispatchPending max delivered =>
      obtain rfl := Option.some.inj bounded
      have counts : begun.length = delivered ∧ delivered < max := h
      omega

/-- One step of the loop, and what it leaves the loop with. -/
theorem Counts.step (h : pc.Counts begun) :
    (∀ pc' ∈ (pc.step c).2.live, pc'.Counts (begun ++ pc.begins c) ∧ pc'.bound = pc.bound) ∧
      ∀ count, (pc.step c).2 = .ret (.delivered count) → count = begun.length := by
  cases pc with
  | detach call =>
    cases taken : c.dispatchBegin with
    | error status =>
      cases call with
      | dispatchOne => simp [DispatchPc.step, taken, DispatchCall.refused]
      | dispatchPending max delivered =>
        have counts : begun.length = delivered ∧ delivered < max := h
        simp [DispatchPc.step, taken, DispatchCall.refused, counts.1]
    | ok result =>
      obtain ⟨d, c'⟩ := result
      cases call with
      | dispatchOne => simp [DispatchPc.step, taken, Counts, bound]
      | dispatchPending max delivered =>
        have counts : begun.length = delivered ∧ delivered < max := h
        simp [DispatchPc.step, taken, Counts, bound, begins, counts.1, counts.2, Except.toOption]
  | callback call d =>
    cases call with
    | dispatchOne => simp [DispatchPc.step, DispatchCall.succeeded]
    | dispatchPending max delivered =>
      have counts : begun.length = delivered + 1 ∧ delivered < max := h
      simp only [DispatchPc.step, DispatchCall.succeeded, dispatchLoop]
      split_ifs with more
      · simp [Counts, bound, begins, counts.1, more]
      · simp [counts.1]

end DispatchPc

theorem dispatchLoop_counts (maxCallbacks : ℕ) :
    ∀ pc ∈ (dispatchLoop maxCallbacks 0 : Control (DispatchPc C X T) DispatchResult).live,
      pc.Counts [] := by
  unfold dispatchLoop
  split_ifs with some
  · simp [DispatchPc.Counts, some]
  · simp

theorem dispatchLoop_waiting (maxCallbacks delivered : ℕ) :
    ∀ pc ∈ (dispatchLoop maxCallbacks delivered : Control (DispatchPc C X T) DispatchResult).live,
      pc.invoking = false := by
  unfold dispatchLoop
  split_ifs
  · simp [DispatchPc.invoking, DispatchPc.invocation]
  · simp

/-- A pass goes from a detach to its callback, and from there to the next detach. -/
theorem DispatchPc.step_alternates {c : NotificationChannel C X T} {pc pc' : DispatchPc C X T}
    (goes : (pc.step c).2 = .next pc') :
    (if pc.invoking then 1 else 0) + 2 * (pc.begins c).length =
      1 + if pc'.invoking then 1 else 0 := by
  cases pc with
  | callback call d =>
    have waiting : pc'.invoking = false := by
      cases call with
      | dispatchOne => cases goes
      | dispatchPending max delivered =>
        refine dispatchLoop_waiting max (delivered + 1) pc' ?_
        rw [show dispatchLoop max (delivered + 1) = Control.next pc' from goes]
        exact List.mem_singleton_self pc'
    rw [waiting]
    rfl
  | detach call =>
    cases taken : c.dispatchBegin with
    | error status => simp [step, taken] at goes
    | ok result =>
      simp only [step, taken] at goes
      obtain rfl := Control.next.inj goes
      simp [begins, taken, invoking, invocation, Except.toOption]

namespace Dispatchers

section Passes

variable [BEq T] {channelId : BitVec 16} {s t : Dispatchers C X T} {k : Call C X T}
  {ks ls ms : List (Call C X T)} {p q : Dispatchers C X T × List (List Slot)} {maxCallbacks : ℕ}

/-- For each thread the slots whose callbacks it has begun. -/
def callbacksBegun (s : Dispatchers C X T) : Call C X T → List (List Slot) → List (List Slot)
  | .operation _, made => made
  | .dispatchOne, made => made ++ [[]]
  | .dispatchPending maxCallbacks, made =>
    made ++ (dispatchLoop maxCallbacks 0 : Control (DispatchPc C X T) _).live.map fun _ => []
  | .thread i, made => match s.threads[i]? with
    | some pc => resume made i
      ((pc.step s.channel).2.call (fun _ => made.getD i [] ++ pc.begins s.channel) .ret)
    | none => made

/-- One list for each thread, and the bounded passes count theirs. -/
structure Counted (p : Dispatchers C X T × List (List Slot)) : Prop where
  length : p.2.length = p.1.threads.length
  counts : ∀ m ∈ p.1.threads.zip p.2, m.1.Counts m.2

theorem Counted.next (h : Counted p)
    (step : watched (next channelId) callbacksBegun p k = some q) : Counted q := by
  obtain ⟨step, made⟩ := watched_eq_some.mp step
  obtain ⟨s, marks⟩ := p
  obtain ⟨t, marks'⟩ := q
  obtain rfl : marks' = callbacksBegun s k marks := made
  have length : marks.length = s.threads.length := h.length
  have join (live : List (DispatchPc C X T)) (fresh : ∀ pc ∈ live, pc.Counts []) :
      ∀ m ∈ (s.threads ++ live).zip (marks ++ live.map fun _ => []), m.1.Counts m.2 := by
    intro m mem
    rw [List.zip_append length.symm] at mem
    rcases List.mem_append.mp mem with old | new
    · exact h.counts m old
    · have member := List.of_mem_zip new
      obtain ⟨-, -, none⟩ := List.mem_map.mp member.2
      rw [← none]
      exact fresh m.1 member.1
  cases k with
  | operation op =>
    obtain rfl := Option.some.inj step
    exact ⟨length, h.counts⟩
  | dispatchOne =>
    obtain rfl := Option.some.inj step
    refine ⟨by simp [callbacksBegun, length], ?_⟩
    exact join [.detach .dispatchOne] (by simp [DispatchPc.Counts])
  | dispatchPending max =>
    obtain rfl := Option.some.inj step
    exact ⟨by simp [callbacksBegun, length], join _ (dispatchLoop_counts max)⟩
  | thread i =>
    obtain ⟨pc, found, rfl⟩ := Option.map_eq_some_iff.mp step
    have within : i < marks.length := by
      rw [length]
      exact (List.getElem?_eq_some_iff.mp found).1
    have paired : (s.threads.zip marks)[i]? = some (pc, marks.getD i []) := by
      rw [List.getElem?_zip_eq_some, List.getD_eq_getElem?_getD, List.getElem?_eq_getElem within]
      exact ⟨found, rfl⟩
    have counts : pc.Counts (marks.getD i []) := h.counts _ (List.mem_of_getElem? paired)
    simp only [callbacksBegun, found]
    refine ⟨resume_length_eq length i _ _, ?_⟩
    intro m mem
    rw [resume_zip] at mem
    rcases mem_of_mem_resume paired mem with old | new
    · exact h.counts m old
    · obtain ⟨pc', live, rfl⟩ : ∃ pc' ∈ (pc.step s.channel).2.live,
          m = (pc', marks.getD i [] ++ pc.begins s.channel) := by
        cases control : (pc.step s.channel).2 with
        | next pc' =>
          rw [control] at new
          exact ⟨pc', by simp, List.mem_singleton.mp new⟩
        | ret result =>
          rw [control] at new
          cases new
      exact (counts.step.1 pc' live).1

theorem exec_counted (run : exec (watched (next channelId) callbacksBegun) ({}, []) ks = some p) :
    Counted p :=
  exec_invariant (fun _ _ _ h step => h.next step) run ⟨rfl, by simp⟩

/-- A bounded pass makes no more callbacks than its bound, and returns their number. -/
theorem pass_bounded (run : exec (watched (next channelId) callbacksBegun) ({}, []) ks = some p)
    {i : ℕ} {pc : DispatchPc C X T} {begun : List Slot} (found : p.1.threads[i]? = some pc)
    (own : p.2[i]? = some begun) (bounded : pc.bound = some maxCallbacks) :
    begun.length ≤ maxCallbacks ∧
      ∀ count, (pc.step p.1.channel).2 = .ret (.delivered count) → count = begun.length := by
  have counted := exec_counted run
  have paired : (p.1.threads.zip p.2)[i]? = some (pc, begun) :=
    List.getElem?_zip_eq_some.mpr ⟨found, own⟩
  have counts : pc.Counts begun := counted.counts _ (List.mem_of_getElem? paired)
  exact ⟨counts.length_le bounded, counts.step.2⟩

end Passes

end Dispatchers

/-! ### A pass with the default bound -/

/-- Where a pass stands on a running channel: what was pending when it was called has been
delivered, or is owed to its slot within the bound. -/
structure Serving (entry : Slot → Prop) (pc : DispatchPc C X T) (begun : List Slot)
    (c : NotificationChannel C X T) : Prop where
  running : c.running = true
  distinct : c.DistinctOrders
  bound : pc.bound = some notificationSubscribersPerChannel
  counts : pc.Counts begun
  idle : pc.invoking = false → Idle c
  active : pc.invoking = true → c.callbackActive = true
  owed : ∀ i, entry i → i ∈ begun ∨ ∃ others, c.Owed i others ∧ begun.length + others ≤ 1

namespace Serving

variable {entry : Slot → Prop} {pc : DispatchPc C X T} {begun : List Slot}
  {c c' : NotificationChannel C X T}

/-- While the pass waits, the channel goes on running. -/
theorem continues (h : Serving entry pc begun c) (same : Continues c c')
    (idle : Idle c → Idle c') (active : c.callbackActive = true → c'.callbackActive = true) :
    Serving entry pc begun c' where
  running := same.running
  distinct := h.distinct.of_same same.registrations
  bound := h.bound
  counts := h.counts
  idle := fun waiting => idle (h.idle waiting)
  active := fun invoking => active (h.active invoking)
  owed := by
    intro i pending
    refine (h.owed i pending).imp_right ?_
    rintro ⟨others, owed, few⟩
    exact ⟨others, owed.continues same, few⟩

theorem step (h : Serving entry pc begun c) :
    ∀ pc' ∈ (pc.step c).2.live, Serving entry pc' (begun ++ pc.begins c) (pc.step c).1 := by
  intro pc' live
  obtain ⟨counts, bound⟩ := (h.counts.step (c := c)).1 pc' live
  cases pc with
  | callback call d =>
    have ended := dispatchEnd_continues h.running
    have waiting : pc'.invoking = false := by
      cases call with
      | dispatchOne => cases live
      | dispatchPending max delivered =>
        simp only [DispatchPc.step, DispatchCall.succeeded, dispatchLoop] at live
        split_ifs at live
        · obtain rfl := List.mem_singleton.mp live
          rfl
        · cases live
    rw [DispatchPc.begins, List.append_nil] at counts ⊢
    refine ⟨ended.running, h.distinct.of_same ended.registrations, bound.trans h.bound, counts,
      fun _ => ⟨rfl, rfl⟩, ?_, ?_⟩
    · intro invoking
      cases waiting.symm.trans invoking
    · intro i pending
      refine (h.owed i pending).imp_right ?_
      rintro ⟨others, owed, few⟩
      exact ⟨others, owed.continues ended, few⟩
  | detach call =>
    cases taken : c.dispatchBegin with
    | error status => simp [DispatchPc.step, taken] at live
    | ok result =>
      obtain ⟨d, c'⟩ := result
      have begins : (DispatchPc.detach call : DispatchPc C X T).begins c = [d.slot] := by
        simp [DispatchPc.begins, taken, Except.toOption]
      simp only [DispatchPc.step, taken] at live ⊢
      obtain rfl := List.mem_singleton.mp live
      obtain ⟨-, invokes, -⟩ := dispatchBegin_invokes taken
      rw [begins] at counts ⊢
      refine ⟨invokes.running, h.distinct.of_same (dispatchBegin_registrations taken),
        bound.trans h.bound, counts, ?_, fun _ => invokes.callbackActive, ?_⟩
      · intro waiting
        cases waiting
      · intro i pending
        rcases h.owed i pending with before | ⟨others, owed, few⟩
        · exact .inl (List.mem_append_left _ before)
        · by_cases own : d.slot = i
          · exact .inl (by simp [own])
          · obtain ⟨some, turn⟩ := owed.passed h.distinct taken own
            refine .inr ⟨0, turn, ?_⟩
            rw [List.length_append, List.length_singleton]
            omega

/-- The pass returns when nothing is pending, or after as many deliveries as there are slots. -/
theorem returned (h : Serving entry pc begun c) {result : DispatchResult}
    (returns : (pc.step c).2 = .ret result) : ∀ i, entry i → i ∈ begun := by
  intro i pending
  rcases h.owed i pending with before | ⟨others, owed, few⟩
  · exact before
  · exfalso
    cases pc with
    | callback call d =>
      cases call with
      | dispatchOne => cases h.bound
      | dispatchPending max delivered =>
        obtain rfl := Option.some.inj h.bound
        have counts : begun.length = delivered + 1 ∧ delivered < 2 := h.counts
        have more : delivered + 1 < notificationSubscribersPerChannel := by
          show delivered + 1 < 2
          omega
        simp [DispatchPc.step, DispatchCall.succeeded, dispatchLoop, more] at returns
    | detach call =>
      obtain ⟨inactive, dispatching⟩ := h.idle rfl
      cases selected : c.nextPendingSubscriber with
      | none => exact nextPendingSubscriber_eq_none selected i owed.selectable
      | some j =>
        simp [DispatchPc.step, dispatchBegin, h.running, inactive, dispatching, selected] at returns

end Serving

/-- A step of the first thread. -/
def Call.own : Call C X T → Bool
  | .thread 0 => true
  | _ => false

namespace Dispatchers

section Service

variable [BEq T] {channelId : BitVec 16} {s t : Dispatchers C X T} {k : Call C X T}
  {ks ls ms : List (Call C X T)} {p q : Dispatchers C X T × List (List Slot)}
  {entry : Slot → Prop}

/-- While the first thread is in its pass: it has not returned, other dispatches are only
tried from its callbacks, and no stop returns `ok`. -/
def passing (channelId : BitVec 16) (p : Dispatchers C X T × List (List Slot)) :
    Call C X T → Bool
  | .thread 0 => p.1.threads.head?.any fun pc => (pc.step p.1.channel).2.pc?.isSome
  | .thread (_ + 1) => p.1.channel.callbackActive
  | k => p.1.withoutStop channelId k

/-- The first thread is in its pass, and the others wait. -/
structure InPass (entry : Slot → Prop) (ms : List (Call C X T))
    (p : Dispatchers C X T × List (List Slot)) (pc : DispatchPc C X T) (begun : List Slot)
    (rest : List (DispatchPc C X T)) (others : List (List Slot)) : Prop where
  threads : p.1.threads = pc :: rest
  made : p.2 = begun :: others
  waiting : ∀ q ∈ rest, q.invoking = false
  serving : Serving entry pc begun p.1.channel
  steps : ms.countP Call.own + (if pc.invoking then 1 else 0) = 2 * begun.length

omit [BEq T] in
/-- A call of another thread. -/
theorem InPass.join {pc : DispatchPc C X T} {begun : List Slot} {rest : List (DispatchPc C X T)}
    {others : List (List Slot)} (h : InPass entry ms p pc begun rest others)
    (live : List (DispatchPc C X T)) (fresh : ∀ q ∈ live, q.invoking = false)
    (made : List (List Slot)) (apart : k.own = false) :
    InPass entry (ms ++ [k]) (⟨p.1.channel, p.1.threads ++ live⟩, p.2 ++ made) pc begun
      (rest ++ live) (others ++ made) where
  threads := by rw [h.threads, List.cons_append]
  made := by rw [h.made, List.cons_append]
  waiting := by
    intro q mem
    rcases List.mem_append.mp mem with old | new
    · exact h.waiting q old
    · exact fresh q new
  serving := h.serving
  steps := by
    rw [List.countP_append, List.countP_singleton, if_neg (by simp [apart]), Nat.add_zero]
    exact h.steps

/-- One step while the pass lasts. -/
theorem InPass.next {pc : DispatchPc C X T} {begun : List Slot} {rest : List (DispatchPc C X T)}
    {others : List (List Slot)} (h : InPass entry ms p pc begun rest others)
    (step : guarded (passing channelId) (watched (next channelId) callbacksBegun) p k = some q) :
    ∃ pc' begun' rest' others', InPass entry (ms ++ [k]) q pc' begun' rest' others' := by
  obtain ⟨inside, step⟩ := guarded_eq_some.mp step
  obtain ⟨step, made⟩ := watched_eq_some.mp step
  obtain ⟨s, marks⟩ := p
  obtain ⟨t, marks'⟩ := q
  obtain rfl : marks' = callbacksBegun s k marks := made
  cases k with
  | operation op =>
    obtain rfl := Option.some.inj step
    refine ⟨pc, begun, rest, others, h.threads, h.made, h.waiting, ?_, ?_⟩
    · cases applied : op.apply channelId s.channel with
      | error status => exact h.serving
      | ok c =>
        obtain ⟨accepted, -⟩ := Operation.apply_accepted applied
        rcases apply_running h.serving.running applied with rfl | continues
        · simp [passing, withoutStop, succeeds, applied, Except.toBool] at inside
        · exact h.serving.continues continues accepted.idle fun active =>
            (accepted.fromCallback active).callbackActive.trans active
    · rw [List.countP_append]
      exact h.steps
  | dispatchOne =>
    obtain rfl := Option.some.inj step
    exact ⟨_, _, _, _, h.join [.detach .dispatchOne] (by simp [DispatchPc.invoking,
      DispatchPc.invocation]) [[]] rfl⟩
  | dispatchPending max =>
    obtain rfl := Option.some.inj step
    exact ⟨_, _, _, _, h.join _ (dispatchLoop_waiting max 0) _ rfl⟩
  | thread i =>
    obtain ⟨own, found, rfl⟩ := Option.map_eq_some_iff.mp step
    have threads : s.threads = pc :: rest := h.threads
    have marked : marks = begun :: others := h.made
    simp only [callbacksBegun, found]
    subst marked
    cases i with
    | zero =>
      rw [threads] at found
      obtain rfl := Option.some.inj found
      obtain ⟨pc', goes⟩ : ∃ pc', (pc.step s.channel).2 = .next pc' := by
        cases control : (pc.step s.channel).2 with
        | next pc' => exact ⟨pc', rfl⟩
        | ret result => simp [passing, threads, control] at inside
      have serving := h.serving.step pc' (by simp [goes])
      have turns := DispatchPc.step_alternates goes
      have steps := h.steps
      refine ⟨pc', begun ++ pc.begins s.channel, rest, others, ?_, ?_, h.waiting, serving, ?_⟩
      · rw [goes, threads]
        rfl
      · rw [goes]
        rfl
      · rw [List.countP_append, List.length_append]
        show ms.countP Call.own + 1 + _ = _
        omega
    | succ i =>
      rw [threads] at found
      have active : s.channel.callbackActive = true := inside
      have member : own ∈ rest := List.mem_of_getElem? (by simpa using found)
      cases own with
      | callback call d => cases h.waiting _ member
      | detach call =>
        obtain ⟨status, refused⟩ := dispatchBegin_refused active
        simp only [DispatchPc.step, refused]
        refine ⟨pc, begun, rest.eraseIdx i, others.eraseIdx i, ?_, rfl, ?_, h.serving, ?_⟩
        · rw [threads]
          rfl
        · intro q mem
          exact h.waiting q (List.mem_of_mem_eraseIdx mem)
        · rw [List.countP_append]
          exact h.steps

/-- A pass that is called while nobody else dispatches. -/
theorem exec_inPass (quiet : Quiescence t) (running : t.channel.running = true)
    (distinct : t.channel.DistinctOrders) (alone : t.threads = [])
    (run : exec (guarded (passing channelId) (watched (next channelId) callbacksBegun)) (t, [])
      (.dispatchPending notificationSubscribersPerChannel :: ms) = some p) :
    ∃ pc begun rest others, InPass t.channel.Selectable ms p pc begun rest others := by
  obtain ⟨u, first, rest⟩ := exec_cons_eq_some.mp run
  obtain ⟨-, first⟩ := guarded_eq_some.mp first
  obtain ⟨step, made⟩ := watched_eq_some.mp first
  have idle : Idle t.channel := by
    have held := quiet.held
    rw [Attended, alone] at held
    exact held.rest_of_nil
  have entered : InPass t.channel.Selectable [] u
      (.detach (.dispatchPending notificationSubscribersPerChannel 0)) [] [] [] := by
    obtain ⟨v, marks⟩ := u
    obtain rfl : v = _ := (Option.some.inj step).symm
    obtain rfl : marks = _ := made
    refine ⟨?_, rfl, by simp, ?_, rfl⟩
    · rw [alone]
      rfl
    · refine ⟨running, distinct, rfl, ⟨rfl, by decide⟩, fun _ => idle, ?_, ?_⟩
      · intro invoking
        cases invoking
      · intro i pending
        exact .inr ⟨1, ⟨pending, by simp⟩, by simp⟩
  refine exec_history (P := fun ms p => ∃ pc begun rest others,
    InPass t.channel.Selectable ms p pc begun rest others) ⟨_, _, _, _, entered⟩ ?_ rest
  rintro ls p k q - ⟨pc, begun, rest, others, inside⟩ step
  exact inside.next step

theorem pass_delivers (quiet : Quiescence t) (running : t.channel.running = true)
    (distinct : t.channel.DistinctOrders) (alone : t.threads = [])
    (run : exec (guarded (passing channelId) (watched (next channelId) callbacksBegun)) (t, [])
      (.dispatchPending notificationSubscribersPerChannel :: ms) = some p) :
    ms.countP Call.own < 2 * notificationSubscribersPerChannel ∧
      ∀ pc result, p.1.threads[0]? = some pc → (pc.step p.1.channel).2 = .ret result →
        ∃ begun, p.2[0]? = some begun ∧ ∀ i, t.channel.Selectable i → i ∈ begun := by
  obtain ⟨pc, begun, rest, others, inside⟩ := exec_inPass quiet running distinct alone run
  refine ⟨?_, ?_⟩
  · have steps := inside.steps
    have counts := inside.serving.counts
    have bound := inside.serving.bound
    cases invoking : pc.invoking with
    | true =>
      have most := counts.length_le bound
      rw [invoking, if_pos rfl] at steps
      omega
    | false =>
      have fewer := counts.length_lt bound invoking
      rw [invoking, if_neg Bool.false_ne_true] at steps
      omega
  · intro pc' result found returns
    rw [inside.threads] at found
    obtain rfl := Option.some.inj found
    refine ⟨begun, ?_, inside.serving.returned returns⟩
    rw [inside.made]
    rfl

end Service

end Dispatchers

/-! ### Equal orders -/

/-- Two slots with a pending notice that the selection cannot tell apart. -/
structure Tied (c : NotificationChannel C X T) (i j : Slot) : Prop where
  running : c.running = true
  idle : Idle c
  first : c.Selectable i
  second : c.Selectable j
  less : i < j
  same : c.order i = c.order j

/-- The selection takes the one in front. -/
theorem Tied.selects {c : NotificationChannel C X T} {i j : Slot} (h : Tied c i j) :
    ∃ d c', c.dispatchBegin = .ok (d, c') ∧ d.slot = i := by
  cases selected : c.nextPendingSubscriber with
  | none => exact absurd h.first (nextPendingSubscriber_eq_none selected i)
  | some k =>
    have front : k ≠ j := by
      rintro rfl
      have precedes : c.Precedes k i := by
        rcases nextPendingSubscriber_eq_some selected with ⟨beyond, first⟩ | ⟨-, first⟩
        · exact first i h.first (h.same ▸ beyond)
        · exact first i h.first
      rcases precedes with before | ⟨-, ahead⟩
      · rw [h.same] at before
        exact BitVec.lt_irrefl _ before
      · exact absurd h.less (not_lt.mpr ahead)
    obtain rfl := other_slot front h.less.ne
    obtain ⟨inactive, dispatching⟩ := h.idle
    simp [dispatchBegin, h.running, inactive, dispatching, selected]

/-- A change makes every subscription pending. -/
theorem tied_of_change {c : NotificationChannel C X T} {i j : Slot} (running : c.running = true)
    (idle : Idle c) (first : (c.subscribers i).active = true)
    (second : (c.subscribers j).active = true) (less : i < j) (same : c.order i = c.order j)
    (reading : Reading T) : Tied (c.change reading) i j := by
  have registrations := change_registrations c reading
  have pending := change_selectable reading first
  have pending' := change_selectable reading second
  refine ⟨running, ⟨idle.callbackActive, idle.dispatching⟩, pending, pending', less, ?_⟩
  exact (registrations.order i pending.1).trans (same.trans (registrations.order j pending'.1).symm)

/-- A start makes every subscription pending. -/
theorem start_tied {c : NotificationChannel C X T} {i j : Slot} (idle : c.callbackActive = false)
    (stopped : c.running = false) (first : (c.subscribers i).active = true)
    (second : (c.subscribers j).active = true) (less : i < j) (same : c.order i = c.order j) :
    ∃ c', c.start = .ok c' ∧ Tied c' i j ∧ c'.current = {} := by
  refine ⟨_, if_neg (by simp [idle, stopped]), ⟨rfl, ⟨idle, rfl⟩, ?_, ?_, less, same⟩, rfl⟩
  · exact ⟨first, first⟩
  · exact ⟨second, second⟩

/-- The slot in front was used until the next order is that of the other slot, and is then
subscribed once more. -/
theorem start_after_wrap {c : NotificationChannel C X T} {n : ℕ} (recyclable : Recyclable c 0)
    (active : (c.subscribers 1).active = true) (f : C)
    (wrapped : (recycled c 0 n).nextRegistrationOrder = c.order 1) :
    ∃ c', (subscribed (recycled c 0 n) 0 f none).start = .ok c' ∧ Tied c' 0 1 ∧
      c'.current = {} := by
  have behind : (subscribed (recycled c 0 n) 0 f none).subscribers 1 = c.subscribers 1 := by
    have other : (1 : Slot) ≠ 0 := by decide
    rw [subscribed_of_ne _ other, recycled_of_ne c other]
  have front := subscribed_self (recycled c 0 n) 0 f none
  have equal : (subscribed (recycled c 0 n) 0 f none).order 0 =
      (subscribed (recycled c 0 n) 0 f none).order 1 := by
    rw [order, order, front, behind]
    exact wrapped
  exact start_tied recyclable.idle recyclable.stopped (congrArg Subscriber.active front)
    ((congrArg Subscriber.active behind).trans active) (by decide) equal

theorem dispatchBegin_active {c c' : NotificationChannel C X T} {d : Delivery C X T}
    (taken : c.dispatchBegin = .ok (d, c')) (i : Slot) :
    (c'.subscribers i).active = (c.subscribers i).active := by
  obtain ⟨-, -, -, -, rfl⟩ := dispatchBegin_cases taken
  by_cases own : i = d.slot
  · subst own
    have detached := setSubscriber_self c d.slot (c.subscribers d.slot).detach
    have same := congrArg Subscriber.active detached
    exact same
  · exact congrArg Subscriber.active (setSubscriber_of_ne c own (c.subscribers d.slot).detach)

/-- The callback publishes a change: after it, both are pending again. -/
theorem Tied.again {c c' : NotificationChannel C X T} {d : Delivery C X T} {i j : Slot}
    (h : Tied c i j) (taken : c.dispatchBegin = .ok (d, c')) (reading : Reading T) :
    Tied (c'.change reading).dispatchEnd i j := by
  have registrations := dispatchBegin_registrations taken
  have first : (c'.subscribers i).active = true := (dispatchBegin_active taken i).trans h.first.1
  have second : (c'.subscribers j).active = true := (dispatchBegin_active taken j).trans h.second.1
  have same : c'.order i = c'.order j :=
    (registrations.order i first).trans (h.same.trans (registrations.order j second).symm)
  have running := (dispatchBegin_invokes taken).2.1.running
  show Tied (c'.dispatchEnd.change reading) i j
  exact tied_of_change (c := c'.dispatchEnd) running ⟨rfl, rfl⟩ first second h.less same reading

namespace Dispatchers

variable [BEq T] {channelId : BitVec 16} {s t : Dispatchers C X T} {i j : Slot}

/-- A dispatch whose callback publishes. -/
def republish (n : ℕ) (reading : Reading T) : List (Call C X T) :=
  [.dispatchOne, .thread n, .operation (.publish reading), .thread n]

/-- The slot in front is delivered, and the other one is left waiting. -/
theorem exec_republish (channelId : BitVec 16) (h : Tied s.channel i j) (reading : Reading T)
    (changed : sameReading s.channel.current reading = false) :
    ∃ t, exec (guarded (withoutStop channelId) (next channelId)) s
        (republish s.threads.length reading) = some t ∧
      Tied t.channel i j ∧ t.threads = s.threads ∧ t.channel.current = reading ∧
      trace (guarded (withoutStop channelId) (next channelId)) begun s
        (republish s.threads.length reading) = [i] := by
  obtain ⟨c, threads⟩ := s
  obtain ⟨d, c', taken, rfl⟩ := h.selects
  have running' := (dispatchBegin_invokes taken).2.1.running
  have current : c'.current = c.current := by
    obtain ⟨-, -, -, -, rfl⟩ := dispatchBegin_cases taken
    rfl
  have called : guarded (withoutStop channelId) (next channelId) ⟨c, threads⟩ .dispatchOne =
      some ⟨c, threads ++ [.detach .dispatchOne]⟩ := rfl
  have begins : guarded (withoutStop channelId) (next channelId)
      ⟨c, threads ++ [.detach .dispatchOne]⟩ (.thread threads.length) =
        some ⟨c', threads ++ [.callback .dispatchOne d]⟩ := by
    simp [guarded, withoutStop, next, DispatchPc.step, taken, resume_concat]
  have published : guarded (withoutStop channelId) (next channelId)
      ⟨c', threads ++ [.callback .dispatchOne d]⟩ (.operation (.publish reading)) =
        some ⟨c'.change reading, threads ++ [.callback .dispatchOne d]⟩ := by
    simp [guarded, withoutStop, next, Operation.apply, publish, running', current, changed,
      Except.toOption]
  have ended : guarded (withoutStop channelId) (next channelId)
      ⟨c'.change reading, threads ++ [.callback .dispatchOne d]⟩ (.thread threads.length) =
        some ⟨(c'.change reading).dispatchEnd, threads⟩ := by
    simp [guarded, withoutStop, next, DispatchPc.step, DispatchCall.succeeded, resume_concat]
  refine ⟨⟨(c'.change reading).dispatchEnd, threads⟩, ?_, h.again taken reading, rfl, rfl, ?_⟩
  · exact exec_cons_eq_some.mpr ⟨_, called, exec_cons_eq_some.mpr ⟨_, begins,
      exec_cons_eq_some.mpr ⟨_, published, exec_single ended⟩⟩⟩
  · rw [republish, trace_cons called, trace_cons begins, trace_cons published, trace_single]
    simp [begun, DispatchPc.begins, taken, Except.toOption]

/-! ### Registration orders -/

/-- The order of each subscription is its number among all of them. -/
structure Ordered (c : NotificationChannel C X T) (subscriptions : ℕ) (number : Slot → ℕ) :
    Prop where
  next : c.nextRegistrationOrder = nextNonzero^[subscriptions] 1
  order : ∀ i, (c.subscribers i).active = true →
    number i < subscriptions ∧ c.order i = nextNonzero^[number i] 1
  apart : ∀ i j, (c.subscribers i).active = true → (c.subscribers j).active = true →
    number i = number j → i = j

theorem exec_ordered {ks : List (Call C X T)} (run : exec (next channelId) {} ks = some s) :
    ∃ number,
      Ordered s.channel (trace (next channelId) (issued channelId) {} ks).length number := by
  have start : Ordered ({} : NotificationChannel C X T) 0 fun _ => 0 := by
    refine ⟨rfl, ?_, ?_⟩
    · intro i active
      cases active
    · intro i j active
      cases active
  refine exec_history (P := fun ks t => ∃ number,
    Ordered t.channel (trace (next channelId) (issued channelId) {} ks).length number)
    ⟨_, start⟩ ?_ run
  rintro ks t k u run ⟨number, h⟩ step
  rw [trace_concat run, List.length_append]
  rcases next_registrations step with ⟨i, f, context, -, returned, slots, upcoming⟩ | ⟨none, same⟩
  · rw [returned, List.length_singleton]
    generalize (trace (next channelId) (issued channelId) {} ks).length = n at h
    have own : u.channel.subscribers i =
        (t.channel.subscribers i).register f context t.channel.nextRegistrationOrder := by
      rw [slots, Function.update_self]
    have other {j : Slot} (apart : j ≠ i) :
        u.channel.subscribers j = t.channel.subscribers j := by
      rw [slots, Function.update_of_ne apart]
    refine ⟨Function.update number i n, ?_, ?_, ?_⟩
    · rw [upcoming, h.next, Function.iterate_succ_apply']
    · intro j active
      by_cases newest : j = i
      · subst newest
        rw [Function.update_self, NotificationChannel.order, own]
        exact ⟨Nat.lt_succ_self n, h.next⟩
      · rw [other newest] at active
        obtain ⟨below, order⟩ := h.order j active
        rw [Function.update_of_ne newest, NotificationChannel.order, other newest]
        exact ⟨Nat.lt_succ_of_lt below, order⟩
    · intro j k active active' same
      by_cases newest : j = i
      · by_cases newest' : k = i
        · exact newest.trans newest'.symm
        · rw [other newest'] at active'
          rw [newest, Function.update_self, Function.update_of_ne newest'] at same
          have below := (h.order k active').1
          omega
      · rw [other newest] at active
        by_cases newest' : k = i
        · rw [newest', Function.update_self, Function.update_of_ne newest] at same
          have below := (h.order j active).1
          omega
        · rw [other newest'] at active'
          rw [Function.update_of_ne newest, Function.update_of_ne newest'] at same
          exact h.apart j k active active' same
  · rw [none, List.length_nil, Nat.add_zero]
    refine ⟨number, same.nextOrder.trans h.next, ?_, ?_⟩
    · intro i active
      obtain ⟨below, order⟩ := h.order i (same.active i active)
      exact ⟨below, (same.order i active).trans order⟩
    · intro i j active active'
      exact h.apart i j (same.active i active) (same.active j active')

/-- Up to `2 ^ 64 - 1` subscriptions no two orders are equal. -/
theorem distinctOrders_of_few {ks : List (Call C X T)}
    (run : exec (next channelId) {} ks = some s)
    (few : (trace (next channelId) (issued channelId) {} ks).length < 2 ^ 64) :
    s.channel.DistinctOrders := by
  obtain ⟨number, ordered⟩ := exec_ordered run
  intro i j active active' same
  obtain ⟨below, order⟩ := ordered.order i active
  obtain ⟨below', order'⟩ := ordered.order j active'
  rw [order, order'] at same
  refine ordered.apart i j active active' ?_
  rcases Nat.lt_trichotomy (number i) (number j) with less | equal | more
  · exact absurd same (iterate_ne_of_near (by decide) (by decide) less (by omega))
  · exact equal
  · exact absurd same.symm (iterate_ne_of_near (by decide) (by decide) more (by omega))

/-! ### Every run -/

/-- From every state of a run without a stop, a slot that is pending waits for one delivery to
the other slot at most. -/
def BoundedBypass (channelId : BitVec 16) (s : Dispatchers C X T) : Prop :=
  ∀ ls t, exec (guarded (withoutStop channelId) (next channelId)) s ls = some t →
    ∀ i, t.channel.Selectable i →
      ∀ ms u, exec (guarded (withoutStop channelId) (next channelId)) t ms = some u →
        ((trace (guarded (withoutStop channelId) (next channelId)) begun t ms).takeWhile
          (· ≠ i)).length ≤ 1

/-- A pass with the default bound, called while nobody else dispatches, returns with its
fourth step at the latest, and has then begun the callback of every slot that was pending. -/
def PassDelivers (channelId : BitVec 16) (s : Dispatchers C X T) : Prop :=
  ∀ ls t, exec (guarded (withoutStop channelId) (next channelId)) s ls = some t →
    t.threads = [] →
      ∀ ms p, exec (guarded (passing channelId) (watched (next channelId) callbacksBegun)) (t, [])
          (.dispatchPending notificationSubscribersPerChannel :: ms) = some p →
        ms.countP Call.own < 2 * notificationSubscribersPerChannel ∧
          ∀ pc result, p.1.threads[0]? = some pc → (pc.step p.1.channel).2 = .ret result →
            ∃ begun, p.2[0]? = some begun ∧ ∀ i, t.channel.Selectable i → i ∈ begun

/-- A run without a stop keeps the channel running and the subscriptions apart. -/
theorem exec_running {ls : List (Call C X T)}
    (run : exec (guarded (withoutStop channelId) (next channelId)) s ls = some t)
    (running : s.channel.running = true) (distinct : s.channel.DistinctOrders) :
    t.channel.running = true ∧ t.channel.DistinctOrders := by
  refine exec_invariant (P := fun u : Dispatchers C X T =>
    u.channel.running = true ∧ u.channel.DistinctOrders) ?_ run ⟨running, distinct⟩
  rintro u k v ⟨running, distinct⟩ first
  obtain ⟨steady, step⟩ := guarded_eq_some.mp first
  rcases next_running running steady step with ⟨d, -, taken⟩ | ⟨-, continues⟩
  · exact ⟨(dispatchBegin_invokes taken).2.1.running,
      distinct.of_same (dispatchBegin_registrations taken)⟩
  · exact ⟨continues.running, distinct.of_same continues.registrations⟩

/-- The callback in progress ends. -/
theorem exec_idle (channelId : BitVec 16) (quiet : Quiescence s)
    (running : s.channel.running = true) :
    ∃ ls t, exec (guarded (withoutStop channelId) (next channelId)) s ls = some t ∧
      Idle t.channel ∧ t.channel.running = true ∧
      t.channel.subscribers = s.channel.subscribers := by
  have held := quiet.held
  obtain ⟨c, threads⟩ := s
  cases held with
  | free waiting idle => exact ⟨[], _, rfl, idle, running, rfl⟩
  | taken before after pc split before_waiting after_waiting invoking fact =>
    obtain rfl : threads = before ++ pc :: after := split
    cases pc with
    | detach call => cases invoking
    | callback call d =>
      have ended : guarded (withoutStop channelId) (next channelId)
          ⟨c, before ++ .callback call d :: after⟩ (.thread before.length) =
            some ⟨c.dispatchEnd, resume (before ++ .callback call d :: after) before.length
              call.succeeded⟩ := by
        simp [guarded, withoutStop, next, DispatchPc.step]
      exact ⟨_, _, exec_single ended, ⟨rfl, rfl⟩, running, rfl⟩

/-- A reading with another availability. -/
def otherReading (r : Reading T) : Reading T :=
  { availability := if r.availability = .fresh then .stale else .fresh }

theorem sameReading_otherReading (r : Reading T) : sameReading r (otherReading r) = false := by
  have differs : r.availability ≠ (otherReading r).availability := by
    simp only [otherReading]
    split_ifs with fresh
    · rw [fresh]
      decide
    · exact fresh
  simp [sameReading, differs]

/-- Two subscriptions with one order can be left at any time with both of them pending. -/
theorem exec_tied (channelId : BitVec 16) (quiet : Quiescence s)
    (running : s.channel.running = true) (equal : ¬s.channel.DistinctOrders) :
    ∃ ls t i j, exec (guarded (withoutStop channelId) (next channelId)) s ls = some t ∧
      Tied t.channel i j := by
  obtain ⟨ls, t, run, idle, running, slots⟩ := exec_idle channelId quiet running
  have same (i : Slot) : t.channel.subscribers i = s.channel.subscribers i := congrFun slots i
  obtain ⟨i, j, first, second, less, order⟩ : ∃ i j : Slot,
      (s.channel.subscribers i).active = true ∧ (s.channel.subscribers j).active = true ∧ i < j ∧
        s.channel.order i = s.channel.order j := by
    simp only [DistinctOrders, not_forall] at equal
    obtain ⟨i, j, first, second, order, apart⟩ := equal
    rcases lt_or_gt_of_ne apart with less | less
    · exact ⟨i, j, first, second, less, order⟩
    · exact ⟨j, i, second, first, less, order.symm⟩
  have published : guarded (withoutStop channelId) (next channelId) t
      (.operation (.publish (otherReading t.channel.current))) =
        some ⟨t.channel.change (otherReading t.channel.current), t.threads⟩ := by
    simp [guarded, withoutStop, next, Operation.apply, publish, running,
      sameReading_otherReading, Except.toOption]
  refine ⟨_, _, i, j, exec_trans run (exec_single published), ?_⟩
  refine tied_of_change running idle ?_ ?_ less ?_ _
  · rw [same]
    exact first
  · rw [same]
    exact second
  · simp only [NotificationChannel.order, same]
    exact order

/-- The slot behind waits for two deliveries. -/
theorem exec_bypassed (channelId : BitVec 16) (h : Tied s.channel i j) :
    ∃ ms u, exec (guarded (withoutStop channelId) (next channelId)) s ms = some u ∧
      trace (guarded (withoutStop channelId) (next channelId)) begun s ms = [i, i] := by
  obtain ⟨t, run, tied, threads, -, served⟩ :=
    exec_republish channelId h _ (sameReading_otherReading s.channel.current)
  obtain ⟨u, run', -, -, -, served'⟩ :=
    exec_republish channelId tied _ (sameReading_otherReading t.channel.current)
  refine ⟨_, u, exec_trans run run', ?_⟩
  rw [trace_append run, served, served']
  rfl

/-- The claim of the dispatch for every running channel that can be reached: nobody waits for
more than one other delivery, and a pass serves everybody, if and only if no two
subscriptions have the same registration order; and a pass never makes more callbacks than
its bound. -/
theorem bounded_bypass_iff {ks : List (Call C X T)}
    (run : exec (next channelId) {} ks = some s) (running : s.channel.running = true) :
    (BoundedBypass channelId s ∧ PassDelivers channelId s ↔ s.channel.DistinctOrders) ∧
      ∀ (ls : List (Call C X T)) p,
        exec (watched (next channelId) callbacksBegun) ({}, []) ls = some p →
        ∀ (i : ℕ) pc begun maxCallbacks, p.1.threads[i]? = some pc → p.2[i]? = some begun →
          pc.bound = some maxCallbacks →
            begun.length ≤ maxCallbacks ∧
              ∀ count, (pc.step p.1.channel).2 = .ret (.delivered count) →
                count = begun.length := by
  have quiet := Quiescence.of_run run
  refine ⟨⟨?_, ?_⟩, ?_⟩
  · rintro ⟨bypass, -⟩
    by_contra equal
    obtain ⟨ls, t, i, j, run', tied⟩ := exec_tied channelId quiet running equal
    obtain ⟨ms, u, run'', served⟩ := exec_bypassed channelId tied
    have few := bypass ls t run' j tied.second ms u run''
    rw [served] at few
    have front : i ≠ j := tied.less.ne
    simp [front] at few
  · intro distinct
    refine ⟨?_, ?_⟩
    · intro ls t run' i pending ms u run''
      obtain ⟨running', distinct'⟩ := exec_running run' running distinct
      exact bypass run'' running' distinct' ⟨pending, by simp⟩ le_rfl
    · intro ls t run' alone ms p pass
      obtain ⟨running', distinct'⟩ := exec_running run' running distinct
      have quiet' : Quiescence t := exec_invariant (P := Quiescence)
        (fun _ _ _ quiet step => quiet.next (guarded_eq_some.mp step).2) run' quiet
      exact pass_delivers quiet' running' distinct' alone pass
  · intro ls p counted i pc begun maxCallbacks found own bounded
    exact pass_bounded counted found own bounded

def twoSubscribers : List (Call Unit Unit ℕ) :=
  [subscribeOnce, subscribeOnce, .operation .start]

def bothRunning : Dispatchers Unit Unit ℕ := final (next 7) {} twoSubscribers

theorem bounded_bypass_iff_two : BoundedBypass 7 bothRunning ∧ PassDelivers 7 bothRunning := by
  have run := exec_eq_final (next 7) {} twoSubscribers (by decide)
  exact (bounded_bypass_iff run (by decide)).1.mpr (by decide)

/-- The callback of every delivery publishes. -/
def starvingRun : List (Call Unit Unit ℕ) :=
  republish 0 (freshReading 1) ++ republish 0 (freshReading 2)

/-- Two subscribe, and the first one leaves. -/
def secondStays : List (Call Unit Unit ℕ) :=
  [subscribeOnce, subscribeOnce, .operation (.unsubscribe firstHandle)]

/-- The second subscriber stays, and the first slot is subscribed anew until the order comes
round to that of the second: then the earlier subscriber waits for two deliveries to the later
one, and is pending still. -/
theorem wrapped_order_starves :
    ∃ s t u v : Dispatchers Unit Unit ℕ,
      exec (next 7) {} secondStays = some s ∧
      exec (next 7) s (cycles () 7 s.channel 0 (2 ^ 64 - 2)) = some t ∧
      exec (next 7) t [subscribeOnce, .operation .start] = some u ∧
      u.channel.running = true ∧ u.channel.Selectable 1 ∧
      exec (guarded (withoutStop 7) (next 7)) u starvingRun = some v ∧
      ((trace (guarded (withoutStop 7) (next 7)) begun u starvingRun).takeWhile (· ≠ 1)).length =
        2 ∧ v.channel.Selectable 1 := by
  have run := exec_eq_final (next 7) {} secondStays (by decide)
  have recyclable : Recyclable (final (next 7) {} secondStays).channel 0 :=
    ⟨by decide, by decide, by decide⟩
  have active : ((final (next 7) {} secondStays).channel.subscribers 1).active = true := by decide
  have order : (final (next 7) {} secondStays).channel.order 1 = 2 := by decide
  have upcoming : (final (next 7) {} secondStays).channel.nextRegistrationOrder =
      nextNonzero 2 := by decide
  have clean : (final (next 7) {} secondStays).channel.subscribers 0 = { generation := 1 } := rfl
  have alone : (final (next 7) {} secondStays).threads = [] := rfl
  -- the number of rounds stays a variable, so that nothing is unfolded that often
  generalize rounds : 2 ^ 64 - 2 = n
  generalize final (next 7) {} secondStays = s at *
  obtain ⟨c, threads⟩ := s
  obtain rfl : threads = [] := alone
  have again := recyclable.again n
  have run' := exec_cycles 7 recyclable (by rw [clean]) () [] n
  obtain ⟨joined, -⟩ := next_subscribe 7 again () []
  have round : (recycled c 0 n).nextRegistrationOrder = 2 := by
    show nextNonzero^[n] c.nextRegistrationOrder = 2
    rw [upcoming, ← Function.iterate_succ_apply]
    exact (iterate_eq_self_iff (by decide) (by decide) _).mpr ⟨1, by omega⟩
  obtain ⟨c', started, tied, current⟩ :=
    start_after_wrap recyclable active () (round.trans order.symm)
  have start : next 7 ⟨subscribed (recycled c 0 n) 0 () none, []⟩ (.operation .start) =
      some (⟨c', []⟩ : Dispatchers Unit Unit ℕ) := by
    simp [next, Operation.apply, started, Except.toOption]
  obtain ⟨v, served, tied', threads, current', deliveries⟩ :=
    exec_republish (s := ⟨c', []⟩) 7 tied (freshReading 1) (by rw [current]; rfl)
  obtain ⟨w, served', tied'', -, -, deliveries'⟩ :=
    exec_republish 7 tied' (freshReading 2) (by rw [current']; rfl)
  rw [threads] at served' deliveries'
  have waits : trace (guarded (withoutStop 7) (next 7)) begun ⟨c', []⟩ starvingRun = [0, 0] := by
    refine (trace_append served _).trans ?_
    rw [deliveries]
    exact congrArg ([0] ++ ·) deliveries'
  refine ⟨_, _, _, _, run, run', exec_cons_eq_some.mpr ⟨_, joined, exec_single start⟩,
    tied.running, tied.second, exec_trans served served', ?_, tied''.second⟩
  rw [waits]
  rfl

end Dispatchers

end CanTelemetry.VehicleCore.NotificationChannel
