import CanTelemetry.Foundation.NonzeroCounter
import CanTelemetry.VehicleCore.NotificationQuiescence

/-! The identity of a handle. A handle names a slot and the generation that the slot has
reached with its subscription. The generation has 16 bits and leaves zero out, so a handle
that was released is accepted again after a multiple of 65535 subscriptions of its slot,
and after no other number of them. -/

namespace CanTelemetry.VehicleCore.NotificationChannel

open Execution Threads NonzeroCounter

variable {C X T : Type*}

/-! ### Subscriptions -/

section Registrations

variable {channelId : BitVec 16} {c c' : NotificationChannel C X T} {handle : NotificationHandle}

theorem subscribe_cases {callback : Option C} {context : Option X}
    (h : c.subscribe channelId callback context = .ok (handle, c')) :
    ∃ i f, (c.subscribers i).active = false ∧
      handle = ⟨channelId, BitVec.ofNat 8 i, nextNonzero (c.subscribers i).generation⟩ ∧
      c'.subscribers = Function.update c.subscribers i
        ((c.subscribers i).register f context c.nextRegistrationOrder) ∧
      c'.nextRegistrationOrder = nextNonzero c.nextRegistrationOrder := by
  unfold subscribe at h
  split at h
  · cases h
  · split at h
    · cases h
    · rename_i f
      split at h
      · cases h
      · rename_i i free
        obtain ⟨rfl, rfl⟩ := Prod.mk.inj (Except.ok.inj h)
        have inactive := List.find?_some free
        exact ⟨i, f, by simpa using inactive, rfl, rfl, rfl⟩

theorem setSubscriber_self (c : NotificationChannel C X T) (i : Slot) (s : Subscriber C X T) :
    (c.setSubscriber i s).subscribers i = s :=
  Function.update_self ..

theorem setSubscriber_of_ne (c : NotificationChannel C X T) {i j : Slot} (other : j ≠ i)
    (s : Subscriber C X T) : (c.setSubscriber i s).subscribers j = c.subscribers j :=
  Function.update_of_ne other ..

theorem findSubscriber_eq_some {i : Slot} :
    c.findSubscriber channelId handle = some i ↔
      handle.channel = channelId ∧ handle.slot = BitVec.ofNat 8 i ∧
        (c.subscribers i).active = true ∧ (c.subscribers i).generation = handle.generation := by
  have own (inside : handle.slot.toNat < notificationSubscribersPerChannel) :
      (⟨handle.slot.toNat, inside⟩ : Slot) = i ↔ handle.slot = BitVec.ofNat 8 i := by
    have small : (i : ℕ) < 2 ^ 8 := i.isLt.trans (by decide)
    rw [Fin.ext_iff, ← BitVec.toNat_inj, BitVec.toNat_ofNat, Nat.mod_eq_of_lt small]
  unfold findSubscriber
  constructor
  · intro found
    split at found
    · rename_i inside
      simp only [Option.ite_none_right_eq_some, Option.some.injEq] at found
      obtain ⟨⟨active, generation⟩, rfl⟩ := found
      exact ⟨inside.1, (own inside.2).mp rfl, active, generation⟩
    · cases found
  · rintro ⟨channel, slot, active, generation⟩
    have inside : handle.slot.toNat < notificationSubscribersPerChannel := by
      rw [slot, BitVec.toNat_ofNat, Nat.mod_eq_of_lt (i.isLt.trans (by decide))]
      exact i.isLt
    obtain rfl := (own inside).mpr slot
    rw [dif_pos ⟨channel, inside⟩]
    exact if_pos ⟨active, generation⟩

theorem unsubscribe_eq_ok :
    c.unsubscribe channelId handle = .ok c' ↔ c.callbackActive = false ∧ c.running = false ∧
      ∃ i, c.findSubscriber channelId handle = some i ∧
        c' = c.setSubscriber i (c.subscribers i).release := by
  unfold unsubscribe
  cases c.callbackActive with
  | true => simp
  | false =>
    cases c.running with
    | true => simp
    | false =>
      cases c.findSubscriber channelId handle with
      | none => simp
      | some i => simp [eq_comm]

/-- No slot is subscribed anew, and none changes its generation. -/
structure SameRegistrations (c c' : NotificationChannel C X T) : Prop where
  nextOrder : c'.nextRegistrationOrder = c.nextRegistrationOrder
  generation : ∀ i, (c'.subscribers i).generation = (c.subscribers i).generation
  active : ∀ i, (c'.subscribers i).active = true → (c.subscribers i).active = true
  order : ∀ i, (c'.subscribers i).active = true →
    (c'.subscribers i).registrationOrder = (c.subscribers i).registrationOrder

theorem SameRegistrations.refl (c : NotificationChannel C X T) : SameRegistrations c c :=
  ⟨rfl, fun _ => rfl, fun _ => id, fun _ _ => rfl⟩

/-- A step of a subscriber that leaves its registration alone, for each of them. -/
theorem SameRegistrations.of_slots (nextOrder : c'.nextRegistrationOrder = c.nextRegistrationOrder)
    (slots : ∀ i, (c'.subscribers i).generation = (c.subscribers i).generation ∧
      (c'.subscribers i).active = (c.subscribers i).active ∧
      (c'.subscribers i).registrationOrder = (c.subscribers i).registrationOrder) :
    SameRegistrations c c' :=
  ⟨nextOrder, fun i => (slots i).1, fun i active => (slots i).2.1.symm.trans active,
    fun i _ => (slots i).2.2⟩

theorem mergePending_registration (s : Subscriber C X T) (update : Notification T) :
    (s.mergePending update).generation = s.generation ∧
      (s.mergePending update).active = s.active ∧
      (s.mergePending update).registrationOrder = s.registrationOrder := by
  unfold Subscriber.mergePending
  split <;> exact ⟨rfl, rfl, rfl⟩

theorem unsubscribe_registrations (h : c.unsubscribe channelId handle = .ok c') :
    SameRegistrations c c' := by
  obtain ⟨-, -, i, -, rfl⟩ := unsubscribe_eq_ok.mp h
  refine ⟨rfl, ?_, ?_, ?_⟩
  · intro j
    by_cases own : j = i
    · subst own
      rw [setSubscriber_self]
      rfl
    · rw [setSubscriber_of_ne c own]
  · intro j active
    by_cases own : j = i
    · subst own
      rw [setSubscriber_self] at active
      cases active
    · rwa [setSubscriber_of_ne c own] at active
  · intro j active
    by_cases own : j = i
    · subst own
      rw [setSubscriber_self] at active
      cases active
    · rw [setSubscriber_of_ne c own]

theorem start_registrations (h : c.start = .ok c') : SameRegistrations c c' := by
  unfold start at h
  split at h
  · cases h
  · obtain rfl := Except.ok.inj h
    exact .of_slots rfl fun i => ⟨rfl, rfl, rfl⟩

theorem stop_registrations (h : c.stop = .ok c') : SameRegistrations c c' := by
  unfold stop at h
  split at h
  · cases h
  · split at h
    · cases h
    · obtain rfl := Except.ok.inj h
      exact .of_slots rfl fun i => ⟨rfl, rfl, rfl⟩

theorem change_registrations (c : NotificationChannel C X T) (reading : Reading T) :
    SameRegistrations c (c.change reading) := by
  refine .of_slots rfl ?_
  intro i
  simp only [change]
  split_ifs
  · exact mergePending_registration _ _
  · exact ⟨rfl, rfl, rfl⟩

theorem publish_registrations [BEq T] {reading : Reading T} (h : c.publish reading = .ok c') :
    SameRegistrations c c' := by
  unfold publish at h
  split at h
  · cases h
  · split at h
    · obtain rfl := Except.ok.inj h
      exact .refl c
    · obtain rfl := Except.ok.inj h
      exact change_registrations c reading

theorem dispatchBegin_registrations {d : Delivery C X T} (h : c.dispatchBegin = .ok (d, c')) :
    SameRegistrations c c' := by
  obtain ⟨-, -, -, -, rfl⟩ := dispatchBegin_cases h
  refine .of_slots rfl ?_
  intro i
  by_cases own : i = d.slot
  · subst own
    rw [setSubscriber_self]
    exact ⟨rfl, rfl, rfl⟩
  · rw [setSubscriber_of_ne c own]
    exact ⟨rfl, rfl, rfl⟩

/-! ### Slots that are used again -/

/-- The channel after a subscription of the slot. -/
def subscribed (c : NotificationChannel C X T) (i : Slot) (f : C) (context : Option X) :
    NotificationChannel C X T :=
  { c.setSubscriber i ((c.subscribers i).register f context c.nextRegistrationOrder) with
    nextRegistrationOrder := nextNonzero c.nextRegistrationOrder }

theorem subscribed_self (c : NotificationChannel C X T) (i : Slot) (f : C) (context : Option X) :
    (subscribed c i f context).subscribers i =
      (c.subscribers i).register f context c.nextRegistrationOrder :=
  Function.update_self ..

theorem subscribed_of_ne (c : NotificationChannel C X T) {i j : Slot} (other : j ≠ i) (f : C)
    (context : Option X) : (subscribed c i f context).subscribers j = c.subscribers j :=
  Function.update_of_ne other ..

theorem subscribe_of_free (channelId : BitVec 16) {i : Slot} (idle : c.callbackActive = false)
    (stopped : c.running = false) (free : c.freeSlot = some i) (f : C) (context : Option X) :
    c.subscribe channelId (some f) context =
      .ok (⟨channelId, BitVec.ofNat 8 i, nextNonzero (c.subscribers i).generation⟩,
        subscribed c i f context) := by
  simp [subscribe, idle, stopped, free, subscribed, Subscriber.register, nextNonzero]

/-- A slot that the next subscription takes, on a channel that is stopped. -/
structure Recyclable (c : NotificationChannel C X T) (i : Slot) : Prop where
  idle : c.callbackActive = false
  stopped : c.running = false
  free : c.freeSlot = some i

/-- The channel after the slot was subscribed and released `n` times. -/
def recycled (c : NotificationChannel C X T) (i : Slot) (n : ℕ) : NotificationChannel C X T :=
  { c with
    subscribers := Function.update c.subscribers i
      { generation := nextNonzero^[n] (c.subscribers i).generation }
    nextRegistrationOrder := nextNonzero^[n] c.nextRegistrationOrder }

theorem recycled_self (c : NotificationChannel C X T) (i : Slot) (n : ℕ) :
    (recycled c i n).subscribers i =
      { generation := nextNonzero^[n] (c.subscribers i).generation } :=
  Function.update_self ..

theorem recycled_of_ne (c : NotificationChannel C X T) {i j : Slot} (other : j ≠ i) (n : ℕ) :
    (recycled c i n).subscribers j = c.subscribers j :=
  Function.update_of_ne other ..

theorem recycled_zero {i : Slot}
    (released : c.subscribers i = { generation := (c.subscribers i).generation }) :
    recycled c i 0 = c := by
  simp only [recycled, Function.iterate_zero, id_eq, ← released, Function.update_eq_self]

theorem Recyclable.again {i : Slot} (h : Recyclable c i) (n : ℕ) :
    Recyclable (recycled c i n) i := by
  refine ⟨h.idle, h.stopped, ?_⟩
  have inactive : (c.subscribers i).active = false := by simpa using List.find?_some h.free
  rw [← h.free]
  unfold freeSlot
  congr 1
  funext j
  by_cases own : j = i
  · subst own
    rw [recycled_self, inactive]
  · rw [recycled_of_ne c own]

/-- One more round. -/
theorem Recyclable.released {i : Slot} (h : Recyclable c i) (n : ℕ) (f : C) (context : Option X) :
    (subscribed (recycled c i n) i f context).unsubscribe channelId
        ⟨channelId, BitVec.ofNat 8 i, nextNonzero ((recycled c i n).subscribers i).generation⟩ =
      .ok (recycled c i (n + 1)) := by
  refine unsubscribe_eq_ok.mpr ⟨h.idle, h.stopped, i, findSubscriber_eq_some.mpr ?_, ?_⟩
  · rw [subscribed_self]
    exact ⟨rfl, rfl, rfl, rfl⟩
  · simp only [setSubscriber, subscribed, recycled, Function.update_self, Function.update_idem,
      Subscriber.register, Subscriber.release, Function.iterate_succ_apply']
    rfl

end Registrations

namespace Dispatchers

variable [BEq T] {channelId : BitVec 16} {s t : Dispatchers C X T} {k : Call C X T}
  {ks ls : List (Call C X T)}

/-- The handle that a step returns. -/
def issued (channelId : BitVec 16) (s : Dispatchers C X T) : Call C X T → List NotificationHandle
  | .operation (.subscribe callback context) =>
    ((s.channel.subscribe channelId callback context).toOption.map Prod.fst).toList
  | _ => []

/-- What a step does to the registrations: one free slot is subscribed, or nothing. -/
theorem next_registrations (step : s.next channelId k = some t) :
    (∃ i f context, (s.channel.subscribers i).active = false ∧
      s.issued channelId k =
        [⟨channelId, BitVec.ofNat 8 i, nextNonzero (s.channel.subscribers i).generation⟩] ∧
      t.channel.subscribers = Function.update s.channel.subscribers i
        ((s.channel.subscribers i).register f context s.channel.nextRegistrationOrder) ∧
      t.channel.nextRegistrationOrder = nextNonzero s.channel.nextRegistrationOrder) ∨
    s.issued channelId k = [] ∧ SameRegistrations s.channel t.channel := by
  cases k with
  | operation op =>
    obtain rfl := Option.some.inj step
    cases op with
    | subscribe callback context =>
      cases subscribed : s.channel.subscribe channelId callback context with
      | error status =>
        refine .inr ⟨by simp [issued, subscribed, Except.toOption], ?_⟩
        simp only [Operation.apply, subscribed, Except.map, Except.toOption, Option.getD_none]
        exact .refl _
      | ok result =>
        obtain ⟨handle, c⟩ := result
        obtain ⟨i, f, inactive, rfl, slots, order⟩ := subscribe_cases subscribed
        refine .inl ⟨i, f, context, inactive, by simp [issued, subscribed, Except.toOption], ?_⟩
        simp only [Operation.apply, subscribed, Except.map, Except.toOption, Option.getD_some]
        exact ⟨slots, order⟩
    | unsubscribe handle =>
      refine .inr ⟨rfl, ?_⟩
      simp only [Operation.apply]
      cases released : s.channel.unsubscribe channelId handle with
      | error status => exact .refl _
      | ok c => exact unsubscribe_registrations released
    | start =>
      refine .inr ⟨rfl, ?_⟩
      simp only [Operation.apply]
      cases started : s.channel.start with
      | error status => exact .refl _
      | ok c => exact start_registrations started
    | stop =>
      refine .inr ⟨rfl, ?_⟩
      simp only [Operation.apply]
      cases stopped : s.channel.stop with
      | error status => exact .refl _
      | ok c => exact stop_registrations stopped
    | publish reading =>
      refine .inr ⟨rfl, ?_⟩
      simp only [Operation.apply]
      cases published : s.channel.publish reading with
      | error status => exact .refl _
      | ok c => exact publish_registrations published
  | dispatchOne =>
    obtain rfl := Option.some.inj step
    exact .inr ⟨rfl, .refl _⟩
  | dispatchPending maxCallbacks =>
    obtain rfl := Option.some.inj step
    exact .inr ⟨rfl, .refl _⟩
  | thread i =>
    obtain ⟨pc, -, rfl⟩ := Option.map_eq_some_iff.mp step
    refine .inr ⟨rfl, ?_⟩
    cases pc with
    | callback call d => exact .of_slots rfl fun _ => ⟨rfl, rfl, rfl⟩
    | detach call =>
      cases begun : s.channel.dispatchBegin with
      | error status =>
        simp only [DispatchPc.step, begun]
        exact .refl _
      | ok result =>
        simp only [DispatchPc.step, begun]
        exact dispatchBegin_registrations begun

/-! ### Runs -/

/-- The handles of one slot. -/
def countOf (slot : BitVec 8) (handles : List NotificationHandle) : ℕ :=
  handles.countP (·.slot = slot)

theorem slot_inj {i j : Slot} : BitVec.ofNat 8 i = BitVec.ofNat 8 j ↔ i = j := by
  have small (i : Slot) : (i : ℕ) % 2 ^ 8 = i := Nat.mod_eq_of_lt (i.isLt.trans (by decide))
  rw [← BitVec.toNat_inj, BitVec.toNat_ofNat, BitVec.toNat_ofNat, small, small, Fin.ext_iff]

/-- From one state to another, with the handles that were returned between them. -/
structure Renewed (c : NotificationChannel C X T) (handles : List NotificationHandle)
    (c' : NotificationChannel C X T) : Prop where
  generation : ∀ i : Slot, (c'.subscribers i).generation =
    nextNonzero^[countOf (BitVec.ofNat 8 i) handles] (c.subscribers i).generation
  active : ∀ i : Slot, (c'.subscribers i).active = true →
    (c.subscribers i).active = true ∨ 0 < countOf (BitVec.ofNat 8 i) handles

theorem exec_renewed (run : exec (next channelId) s ks = some t) :
    Renewed s.channel (trace (next channelId) (issued channelId) s ks) t.channel := by
  refine exec_history (P := fun ks t =>
    Renewed s.channel (trace (next channelId) (issued channelId) s ks) t.channel)
    ⟨fun _ => rfl, fun _ => .inl⟩ ?_ run
  intro ks t k u run h step
  rw [trace_concat run]
  rcases next_registrations step with ⟨i, f, context, -, returned, slots, -⟩ | ⟨none, same⟩
  · rw [returned]
    refine ⟨?_, ?_⟩
    · intro j
      rw [slots, countOf, List.countP_append]
      by_cases own : j = i
      · subst own
        rw [Function.update_self, List.countP_singleton, if_pos (by simp),
          Function.iterate_succ_apply', ← countOf, ← h.generation]
        rfl
      · have other : ¬BitVec.ofNat 8 i = BitVec.ofNat 8 j :=
          fun same => own (slot_inj.mp same).symm
        rw [Function.update_of_ne own, List.countP_singleton, if_neg (by simpa using other)]
        exact h.generation j
    · intro j active
      rw [countOf, List.countP_append]
      by_cases own : j = i
      · subst own
        refine .inr ?_
        simp
      · rw [slots, Function.update_of_ne own] at active
        exact (h.active j active).imp_right fun some => Nat.add_pos_left some _
  · rw [none, List.append_nil]
    refine ⟨?_, ?_⟩
    · intro j
      rw [same.generation, h.generation]
    · intro j active
      exact h.active j (same.active j active)

/-- What the handles of a run look like. -/
theorem issued_handle (run : exec (next channelId) {} ks = some s) :
    ∀ before h after,
      trace (next channelId) (issued channelId) {} ks = before ++ h :: after →
        h.channel = channelId ∧
          h.generation = nextNonzero^[countOf h.slot before + 1] 0 := by
  refine exec_history (P := fun ks _ => ∀ before h after,
    trace (next channelId) (issued channelId) {} ks = before ++ h :: after →
      h.channel = channelId ∧ h.generation = nextNonzero^[countOf h.slot before + 1] 0) ?_ ?_ run
  · intro before h after split
    simp [trace] at split
  · intro ks t k u run past step before h after split
    rw [trace_concat run] at split
    rcases next_registrations step with ⟨i, f, context, -, returned, -⟩ | ⟨none, -⟩
    · rw [returned] at split
      rcases split_concat split with ⟨after', -, earlier⟩ | ⟨-, rfl, rfl⟩
      · exact past before h after' earlier
      · refine ⟨rfl, ?_⟩
        rw [Function.iterate_succ_apply', ← (exec_renewed run).generation i]
    · rw [none, List.append_nil] at split
      exact past before h after split

theorem countOf_append (slot : BitVec 8) (handles handles' : List NotificationHandle) :
    countOf slot (handles ++ handles') = countOf slot handles + countOf slot handles' :=
  List.countP_append

theorem countOf_cons_self (h : NotificationHandle) (handles : List NotificationHandle) :
    countOf h.slot (h :: handles) = countOf h.slot handles + 1 :=
  List.countP_cons_of_pos (by simp)

/-- Where a handle comes twice in a run. -/
theorem issued_eq_iff (run : exec (next channelId) {} ks = some s)
    {before between after : List NotificationHandle} {h h' : NotificationHandle}
    (split : trace (next channelId) (issued channelId) {} ks =
      before ++ h :: between ++ h' :: after) :
    h = h' ↔ h.slot = h'.slot ∧ 65535 ∣ countOf h.slot between + 1 := by
  obtain ⟨channel', generation'⟩ := issued_handle run (before ++ h :: between) h' after split
  rw [List.append_assoc] at split
  obtain ⟨channel, generation⟩ := issued_handle run before h (between ++ h' :: after) split
  -- from the first of the two handles, the generation goes on with its slot
  have later (same : h.slot = h'.slot) :
      h'.generation = nextNonzero^[countOf h.slot between + 1] h.generation := by
    rw [generation', generation, ← same, countOf_append, countOf_cons_self,
      ← Function.iterate_add_apply]
    congr 1
    omega
  have started : h.generation ≠ 0 := by
    rw [generation]
    exact iterate_ne_zero (by decide) 0 _
  have period := iterate_eq_self_iff (by decide) started (countOf h.slot between + 1)
  constructor
  · rintro rfl
    exact ⟨rfl, period.mp (later rfl).symm⟩
  · rintro ⟨same, multiple⟩
    have back := (later same).trans (period.mpr multiple)
    obtain ⟨channel₁, slot₁, generation₁⟩ := h
    obtain ⟨channel₂, slot₂, generation₂⟩ := h'
    rw [NotificationHandle.mk.injEq]
    exact ⟨channel.trans channel'.symm, same, back.symm⟩

theorem succeeds_unsubscribe {h : NotificationHandle} :
    s.succeeds channelId (.unsubscribe h) = true ↔ s.channel.callbackActive = false ∧
      s.channel.running = false ∧ ∃ i, s.channel.findSubscriber channelId h = some i := by
  have accepted : s.succeeds channelId (.unsubscribe h) = true ↔
      ∃ c, s.channel.unsubscribe channelId h = .ok c := by
    simp only [succeeds, Operation.apply]
    cases s.channel.unsubscribe channelId h <;> simp [Except.toBool]
  rw [accepted]
  constructor
  · rintro ⟨c, released⟩
    obtain ⟨idle, stopped, i, found, -⟩ := unsubscribe_eq_ok.mp released
    exact ⟨idle, stopped, i, found⟩
  · rintro ⟨idle, stopped, i, found⟩
    exact ⟨_, unsubscribe_eq_ok.mpr ⟨idle, stopped, i, found, rfl⟩⟩

theorem next_of_refused {op : Operation C X T} (refused : s.succeeds channelId op = false) :
    s.next channelId (.operation op) = some s := by
  simp only [succeeds] at refused
  simp only [next]
  cases applied : op.apply channelId s.channel with
  | error status => rfl
  | ok c => simp [applied, Except.toBool] at refused

/-- What a handle was that has been released. -/
theorem released_slot (run : exec (next channelId) {} ks = some s) {h : NotificationHandle}
    (accepted : s.succeeds channelId (.unsubscribe h) = true)
    (step : s.next channelId (.operation (.unsubscribe h)) = some t) :
    ∃ i : Slot, h.channel = channelId ∧ h.slot = BitVec.ofNat 8 i ∧ h.generation ≠ 0 ∧
      (t.channel.subscribers i).generation = h.generation ∧
      (t.channel.subscribers i).active = false := by
  obtain ⟨idle, stopped, i, found⟩ := succeeds_unsubscribe.mp accepted
  obtain ⟨channel, slot, active, generation⟩ := findSubscriber_eq_some.mp found
  have released := unsubscribe_eq_ok.mpr ⟨idle, stopped, i, found, rfl⟩
  obtain rfl := Option.some.inj step
  refine ⟨i, channel, slot, ?_, ?_, ?_⟩
  · have renewed := exec_renewed run
    have subscribed := (renewed.active i active).resolve_left (by simp)
    rw [← generation, renewed.generation, ← Nat.sub_add_cancel subscribed]
    exact iterate_ne_zero (by decide) _ _
  · simp [Operation.apply, released, Except.toOption, setSubscriber, Subscriber.release, generation]
  · simp [Operation.apply, released, Except.toOption, setSubscriber, Subscriber.release]

/-! ### The same handle twice -/

/-- A slot is subscribed, and released with the handle of that generation. -/
def cycle (f : C) (channelId : BitVec 16) (i : Slot) (generation : BitVec 16) :
    List (Call C X T) :=
  [.operation (.subscribe (some f) none),
    .operation (.unsubscribe ⟨channelId, BitVec.ofNat 8 i, generation⟩)]

/-- The slot of the channel goes through `n` such cycles. -/
def cycles (f : C) (channelId : BitVec 16) (c : NotificationChannel C X T) (i : Slot) (n : ℕ) :
    List (Call C X T) :=
  (List.range n).flatMap fun m =>
    cycle f channelId i (nextNonzero ((recycled c i m).subscribers i).generation)

theorem next_subscribe (channelId : BitVec 16) {c : NotificationChannel C X T} {i : Slot}
    (h : Recyclable c i) (f : C) (threads : List (DispatchPc C X T)) :
    next channelId ⟨c, threads⟩ (.operation (.subscribe (some f) none)) =
        some ⟨subscribed c i f none, threads⟩ ∧
      issued channelId ⟨c, threads⟩ (.operation (.subscribe (some f) none)) =
        [⟨channelId, BitVec.ofNat 8 i, nextNonzero (c.subscribers i).generation⟩] := by
  have accepted := subscribe_of_free channelId h.idle h.stopped h.free f none
  refine ⟨?_, ?_⟩
  · simp only [next, Operation.apply, accepted, Except.map, Except.toOption, Option.getD_some]
  · simp [issued, accepted, Except.toOption]

theorem exec_cycles (channelId : BitVec 16) {c : NotificationChannel C X T} {i : Slot}
    (h : Recyclable c i)
    (released : c.subscribers i = { generation := (c.subscribers i).generation }) (f : C)
    (threads : List (DispatchPc C X T)) (n : ℕ) :
    exec (next channelId) ⟨c, threads⟩ (cycles f channelId c i n) =
      some ⟨recycled c i n, threads⟩ := by
  induction n with
  | zero =>
    rw [recycled_zero released]
    rfl
  | succ n ih =>
    have cycle : exec (next channelId) ⟨recycled c i n, threads⟩
        (cycle f channelId i (nextNonzero ((recycled c i n).subscribers i).generation)) =
          some ⟨recycled c i (n + 1), threads⟩ := by
      obtain ⟨joined, -⟩ := next_subscribe channelId (h.again n) f threads
      refine exec_cons_eq_some.mpr ⟨_, joined, exec_single ?_⟩
      simp only [next, Operation.apply, h.released n f none, Except.toOption, Option.getD_some]
    rw [cycles, List.range_succ, List.flatMap_append, List.flatMap_singleton]
    exact exec_trans ih cycle

/-! ### Released handles -/

/-- Two handles of one run are equal if their slots are and a multiple of 65535 subscriptions
of it lies between them; and a handle that was released is accepted again exactly while
its slot is subscribed and such a number of subscriptions of it has followed. A refused
handle removes nothing. -/
theorem handle_reuse (run : exec (next channelId) {} ks = some s) :
    (∀ before h between h' after,
      trace (next channelId) (issued channelId) {} ks =
        before ++ h :: between ++ h' :: after →
      (h = h' ↔ h.slot = h'.slot ∧ 65535 ∣ countOf h.slot between + 1)) ∧
    ∀ h released, s.succeeds channelId (.unsubscribe h) = true →
      s.next channelId (.operation (.unsubscribe h)) = some released →
      ∀ ls t, exec (next channelId) released ls = some t →
        let n := countOf h.slot (trace (next channelId) (issued channelId) released ls)
        (t.succeeds channelId (.unsubscribe h) = true ↔
          t.channel.callbackActive = false ∧ t.channel.running = false ∧
            (∃ i : Slot, h.slot = BitVec.ofNat 8 i ∧ (t.channel.subscribers i).active = true) ∧
            0 < n ∧ 65535 ∣ n) ∧
        (t.succeeds channelId (.unsubscribe h) = false →
          t.next channelId (.operation (.unsubscribe h)) = some t) := by
  refine ⟨fun _ _ _ _ _ split => issued_eq_iff run split, ?_⟩
  intro h released accepted step ls t later n
  refine ⟨?_, next_of_refused⟩
  obtain ⟨i, channel, slot, started, generation, inactive⟩ := released_slot run accepted step
  have renewed := exec_renewed later
  have reached : (t.channel.subscribers i).generation = nextNonzero^[n] h.generation := by
    rw [renewed.generation, generation, ← slot]
  have period := iterate_eq_self_iff (by decide) started n
  rw [succeeds_unsubscribe]
  refine and_congr_right fun _ => and_congr_right fun _ => ?_
  constructor
  · rintro ⟨j, found⟩
    obtain ⟨-, slot', active, same⟩ := findSubscriber_eq_some.mp found
    obtain rfl := slot_inj.mp (slot'.symm.trans slot)
    have subscribed : 0 < n := by
      rcases renewed.active j active with before | some
      · exact absurd (inactive.symm.trans before) Bool.false_ne_true
      · rwa [← slot] at some
    exact ⟨⟨j, slot', active⟩, subscribed, period.mp (reached.symm.trans same)⟩
  · rintro ⟨⟨j, slot', active⟩, -, multiple⟩
    obtain rfl := slot_inj.mp (slot'.symm.trans slot)
    exact ⟨j, findSubscriber_eq_some.mpr
      ⟨channel, slot', active, reached.trans (period.mpr multiple)⟩⟩

def subscribeOnce : Call Unit Unit ℕ := .operation (.subscribe (some ()) none)

def firstHandle : NotificationHandle := ⟨7, 0, 1⟩

/-- The handle is released, and its slot subscribed again. -/
theorem handle_reuse_stale :
    ∃ t : Dispatchers Unit Unit ℕ,
      exec (next 7) {} [subscribeOnce, .operation (.unsubscribe firstHandle), subscribeOnce] =
        some t ∧
      t.next 7 (.operation (.unsubscribe firstHandle)) = some t := by
  have run := exec_eq_final (next 7) {} [subscribeOnce] (by decide)
  have step := next_eq_final (next 7) (final (next 7) {} [subscribeOnce])
    (.operation (.unsubscribe firstHandle)) (by decide)
  have later := exec_eq_final (next 7)
    (final (next 7) {} [subscribeOnce, .operation (.unsubscribe firstHandle)]) [subscribeOnce]
    (by decide)
  exact ⟨_, rfl, ((handle_reuse run).2 firstHandle _ (by decide) step _ _ later).2 (by decide)⟩

/-- After 65535 more subscriptions of its slot, a released handle is returned again, and
releases the subscription of another subscriber. -/
theorem released_handle_returns :
    ∃ s t u v : Dispatchers Unit Unit ℕ,
      exec (next 7) {} [subscribeOnce] = some s ∧
      trace (next 7) (issued 7) {} [subscribeOnce] = [firstHandle] ∧
      s.succeeds 7 (.unsubscribe firstHandle) = true ∧
      s.next 7 (.operation (.unsubscribe firstHandle)) = some t ∧
      exec (next 7) t (cycles () 7 t.channel 0 65534) = some u ∧
      u.next 7 subscribeOnce = some v ∧ u.issued 7 subscribeOnce = [firstHandle] ∧
      v.succeeds 7 (.unsubscribe firstHandle) = true := by
  have run := exec_eq_final (next 7) {} [subscribeOnce] (by decide)
  have step := next_eq_final (next 7) (final (next 7) {} [subscribeOnce])
    (.operation (.unsubscribe firstHandle)) (by decide)
  generalize released : final (next 7) (final (next 7) {} [subscribeOnce])
    [.operation (.unsubscribe firstHandle)] = t at step
  have recyclable : Recyclable t.channel 0 := by
    subst released
    exact ⟨by decide, by decide, by decide⟩
  have clean : t.channel.subscribers 0 = { generation := 1 } := by
    subst released
    rfl
  -- the number of rounds stays a variable, so that nothing is unfolded that often
  generalize rounds : 65534 = n
  obtain ⟨channel, threads⟩ := t
  have run' := exec_cycles 7 recyclable (by rw [clean]) () threads n
  obtain ⟨again, returned⟩ := next_subscribe 7 (recyclable.again n) () threads
  have period : nextNonzero ((recycled channel 0 n).subscribers 0).generation = 1 := by
    rw [recycled_self, clean, ← Function.iterate_succ_apply' nextNonzero]
    exact (iterate_eq_self_iff (by decide) (by decide) _).mpr (by omega)
  rw [period] at returned
  refine ⟨_, _, _, _, run, by decide, by decide, step, run', again, returned, ?_⟩
  refine succeeds_unsubscribe.mpr ⟨recyclable.idle, recyclable.stopped, 0, ?_⟩
  refine findSubscriber_eq_some.mpr ⟨rfl, rfl, ?_, ?_⟩
  · exact congrArg Subscriber.active (subscribed_self ..)
  · exact (congrArg Subscriber.generation (subscribed_self ..)).trans period

end Dispatchers

end CanTelemetry.VehicleCore.NotificationChannel
