import CanTelemetry.Foundation.Holder
import CanTelemetry.VehicleCore.NotificationHistory

/-! Who is inside a callback, and when. The threads that dispatch are program counters
of `dispatch_one` and of the bounded pass over it; every other operation is one locked
section. Nothing orders a thread and the callback it runs against the rest, so a
callback may call any operation again, a dispatch included. -/

namespace CanTelemetry.VehicleCore.NotificationChannel

open Execution Threads

variable {C X T : Type*}

/-! ### Operations and dispatches -/

/-- The operations that are one locked section. -/
inductive Operation (C X T : Type*)
  | subscribe (callback : Option C) (context : Option X)
  | unsubscribe (handle : NotificationHandle)
  | start
  | stop
  | publish (reading : Reading T)

def Operation.apply [BEq T] (channelId : BitVec 16) (c : NotificationChannel C X T) :
    Operation C X T → Except NotificationStatus (NotificationChannel C X T)
  | .subscribe callback context => (c.subscribe channelId callback context).map Prod.snd
  | .unsubscribe handle => c.unsubscribe channelId handle
  | .start => c.start
  | .stop => c.stop
  | .publish reading => c.publish reading

/-- `dispatch_one`, called by itself or from the loop of `dispatch_pending`. -/
inductive DispatchCall
  | dispatchOne
  | dispatchPending (maxCallbacks delivered : ℕ)

inductive DispatchResult
  | status (status : NotificationStatus)
  | delivered (count : ℕ)

inductive DispatchPc (C X T : Type*)
  | detach (call : DispatchCall)
  | callback (call : DispatchCall) (delivery : Delivery C X T)

/-- The head of the loop of `dispatch_pending`. -/
def dispatchLoop (maxCallbacks delivered : ℕ) : Control (DispatchPc C X T) DispatchResult :=
  if delivered < maxCallbacks then .next (.detach (.dispatchPending maxCallbacks delivered))
  else .ret (.delivered delivered)

/-- How a call goes on after `dispatch_one` was refused. -/
def DispatchCall.refused (status : NotificationStatus) : DispatchCall → DispatchResult
  | .dispatchOne => .status status
  | .dispatchPending _ delivered => .delivered delivered

/-- How a call goes on after `dispatch_one` returned `ok`. -/
def DispatchCall.succeeded : DispatchCall → Control (DispatchPc C X T) DispatchResult
  | .dispatchOne => .ret (.status .ok)
  | .dispatchPending maxCallbacks delivered => dispatchLoop maxCallbacks (delivered + 1)

namespace DispatchPc

/-- The callback stands between the two sections. -/
def step (c : NotificationChannel C X T) :
    DispatchPc C X T → NotificationChannel C X T × Control (DispatchPc C X T) DispatchResult
  | .detach call =>
    match c.dispatchBegin with
    | .ok (delivery, c') => (c', .next (.callback call delivery))
    | .error status => (c, .ret (call.refused status))
  | .callback call _ => (c.dispatchEnd, call.succeeded)

/-- The invocation that is in progress at a program counter. -/
def invocation : DispatchPc C X T → Option (Delivery C X T)
  | .detach _ => none
  | .callback _ delivery => some delivery

def invoking (pc : DispatchPc C X T) : Bool := pc.invocation.isSome

end DispatchPc

/-! ### The channel with its dispatching threads -/

structure Dispatchers (C X T : Type*) where
  channel : NotificationChannel C X T := {}
  threads : List (DispatchPc C X T) := []

/-- A call of any thread, or a step of a thread that dispatches. -/
inductive Call (C X T : Type*)
  | operation (op : Operation C X T)
  | dispatchOne
  | dispatchPending (maxCallbacks : ℕ)
  | thread (i : ℕ)

namespace Dispatchers

/-- The callbacks in progress. -/
def callbacks (s : Dispatchers C X T) : List (Delivery C X T) :=
  s.threads.filterMap (·.invocation)

variable [BEq T] (channelId : BitVec 16)

/-- A rejected operation leaves the channel as it was. -/
def next (s : Dispatchers C X T) : Call C X T → Option (Dispatchers C X T)
  | .operation op =>
    some { s with channel := (op.apply channelId s.channel).toOption.getD s.channel }
  | .dispatchOne => some { s with threads := s.threads ++ [.detach .dispatchOne] }
  | .dispatchPending maxCallbacks =>
    some { s with threads := s.threads ++ (dispatchLoop maxCallbacks 0).live }
  | .thread i => s.threads[i]?.map fun pc =>
    { channel := (pc.step s.channel).1, threads := resume s.threads i (pc.step s.channel).2 }

/-- The operation returns `ok`. -/
def succeeds (s : Dispatchers C X T) (op : Operation C X T) : Bool :=
  (op.apply channelId s.channel).toBool

/-- Every call but a start that returns `ok`. -/
def withoutStart (s : Dispatchers C X T) : Call C X T → Bool
  | .operation .start => !s.succeeds channelId .start
  | _ => true

end Dispatchers

/-! ### What an accepted operation does -/

/-- No callback is in progress. -/
structure Idle (c : NotificationChannel C X T) : Prop where
  callbackActive : c.callbackActive = false
  dispatching : c.dispatching = false

/-- Every subscription has a callback to call. -/
def Registered (c : NotificationChannel C X T) : Prop :=
  ∀ i, (c.subscribers i).active = true → (c.subscribers i).callback.isSome = true

/-- The delivery is that of a subscription which is still active. -/
structure Subscribed (c : NotificationChannel C X T) (d : Delivery C X T) : Prop where
  active : (c.subscribers d.slot).active = true
  callback : (c.subscribers d.slot).callback = d.callback
  context : (c.subscribers d.slot).context = d.context

/-- The callback of the delivery is in progress. -/
structure Invokes (c : NotificationChannel C X T) (d : Delivery C X T) : Prop where
  callbackActive : c.callbackActive = true
  running : c.running = true
  subscribed : Subscribed c d

/-- A section that touches neither the flags nor the subscriptions. -/
structure SameSubscriptions (c c' : NotificationChannel C X T) : Prop where
  running : c'.running = c.running
  dispatching : c'.dispatching = c.dispatching
  callbackActive : c'.callbackActive = c.callbackActive
  active : ∀ i, (c'.subscribers i).active = (c.subscribers i).active
  callback : ∀ i, (c'.subscribers i).callback = (c.subscribers i).callback
  context : ∀ i, (c'.subscribers i).context = (c.subscribers i).context

namespace SameSubscriptions

variable {c c' : NotificationChannel C X T}

theorem refl (c : NotificationChannel C X T) : SameSubscriptions c c :=
  ⟨rfl, rfl, rfl, fun _ => rfl, fun _ => rfl, fun _ => rfl⟩

theorem idle (same : SameSubscriptions c c') (idle : Idle c) : Idle c' :=
  ⟨same.callbackActive.trans idle.callbackActive, same.dispatching.trans idle.dispatching⟩

theorem registered (same : SameSubscriptions c c') (registered : Registered c) :
    Registered c' := by
  intro i active
  rw [same.active] at active
  rw [same.callback]
  exact registered i active

theorem invokes (same : SameSubscriptions c c') {d : Delivery C X T} (h : Invokes c d) :
    Invokes c' d where
  callbackActive := same.callbackActive.trans h.callbackActive
  running := same.running.trans h.running
  subscribed := {
    active := (same.active _).trans h.subscribed.active
    callback := (same.callback _).trans h.subscribed.callback
    context := (same.context _).trans h.subscribed.context }

end SameSubscriptions

theorem mergePending_subscription (s : Subscriber C X T) (update : Notification T) :
    (s.mergePending update).active = s.active ∧ (s.mergePending update).callback = s.callback ∧
      (s.mergePending update).context = s.context := by
  unfold Subscriber.mergePending
  split <;> exact ⟨rfl, rfl, rfl⟩

theorem change_same (c : NotificationChannel C X T) (reading : Reading T) :
    SameSubscriptions c (c.change reading) := by
  refine ⟨rfl, rfl, rfl, fun i => ?_, fun i => ?_, fun i => ?_⟩
  all_goals
    simp only [change]
    split
  · exact (mergePending_subscription _ _).1
  · rfl
  · exact (mergePending_subscription _ _).2.1
  · rfl
  · exact (mergePending_subscription _ _).2.2
  · rfl

/-- What every accepted operation keeps, and when it may be accepted at all. -/
structure Operation.Accepted (op : Operation C X T) (c c' : NotificationChannel C X T) : Prop where
  fromCallback : c.callbackActive = true → SameSubscriptions c c'
  idle : Idle c → Idle c'
  registered : Registered c → Registered c'
  running : c'.running = true → op = .start ∨ c.running = true

/-- A slot that is replaced between runs. -/
theorem accepted_of_setSubscriber {op : Operation C X T} {c c' : NotificationChannel C X T}
    {i : Slot} {s : Subscriber C X T} (idle : (c.callbackActive || c.running) = false)
    (subscription : s.active = true → s.callback.isSome = true)
    (subscribers : c'.subscribers = Function.update c.subscribers i s)
    (flags : c'.running = c.running ∧ c'.dispatching = c.dispatching ∧
      c'.callbackActive = c.callbackActive) : op.Accepted c c' := by
  obtain ⟨inactive, -⟩ := Bool.or_eq_false_iff.mp idle
  obtain ⟨running, dispatching, callbackActive⟩ := flags
  refine ⟨?_, ?_, ?_, ?_⟩
  · intro active
    exact absurd (inactive.symm.trans active) Bool.false_ne_true
  · intro quiet
    exact ⟨callbackActive.trans quiet.callbackActive, dispatching.trans quiet.dispatching⟩
  · intro registered j
    rw [subscribers]
    by_cases hj : j = i
    · subst hj
      rw [Function.update_self]
      exact subscription
    · rw [Function.update_of_ne hj]
      exact registered j
  · intro h
    exact .inr (running.symm.trans h)

theorem subscribe_accepted {channelId : BitVec 16} {op : Operation C X T}
    {c c' : NotificationChannel C X T} {callback : Option C} {context : Option X}
    {handle : NotificationHandle} (h : c.subscribe channelId callback context = .ok (handle, c')) :
    op.Accepted c c' ∧ c'.running = false := by
  unfold subscribe at h
  split at h
  · cases h
  · rename_i idle
    split at h
    · cases h
    · split at h
      · cases h
      · obtain ⟨-, rfl⟩ := Prod.mk.inj (Except.ok.inj h)
        rw [Bool.not_eq_true] at idle
        have stopped := (Bool.or_eq_false_iff.mp idle).2
        exact ⟨accepted_of_setSubscriber idle (fun _ => rfl) rfl ⟨rfl, rfl, rfl⟩, stopped⟩

theorem unsubscribe_accepted {channelId : BitVec 16} {op : Operation C X T}
    {c c' : NotificationChannel C X T} {handle : NotificationHandle}
    (h : c.unsubscribe channelId handle = .ok c') :
    op.Accepted c c' ∧ c'.running = false := by
  unfold unsubscribe at h
  split at h
  · cases h
  · rename_i idle
    split at h
    · cases h
    · obtain rfl := Except.ok.inj h
      rw [Bool.not_eq_true] at idle
      have stopped := (Bool.or_eq_false_iff.mp idle).2
      refine ⟨accepted_of_setSubscriber idle ?_ rfl ⟨rfl, rfl, rfl⟩, stopped⟩
      intro active
      cases active

theorem start_accepted {c c' : NotificationChannel C X T} (h : c.start = .ok c') :
    Operation.start.Accepted c c' := by
  unfold start at h
  split at h
  · cases h
  · rename_i idle
    obtain rfl := Except.ok.inj h
    rw [Bool.not_eq_true] at idle
    have inactive := (Bool.or_eq_false_iff.mp idle).1
    refine ⟨?_, fun quiet => ⟨quiet.callbackActive, rfl⟩, id, fun _ => .inl rfl⟩
    intro active
    exact absurd (inactive.symm.trans active) Bool.false_ne_true

theorem stop_accepted {c c' : NotificationChannel C X T} (h : c.stop = .ok c') :
    Operation.stop.Accepted c c' ∧ c'.running = false := by
  unfold stop at h
  split at h
  · cases h
  · rename_i idle
    split at h
    · cases h
    · obtain rfl := Except.ok.inj h
      rw [Bool.not_eq_true] at idle
      have inactive := (Bool.or_eq_false_iff.mp idle).1
      refine ⟨⟨?_, fun quiet => ⟨quiet.callbackActive, quiet.dispatching⟩, id, ?_⟩, rfl⟩
      · intro active
        exact absurd (inactive.symm.trans active) Bool.false_ne_true
      · intro running
        cases running

/-- The one operation that a callback can call with success. -/
theorem publish_accepted [BEq T] {c c' : NotificationChannel C X T} {reading : Reading T}
    (h : c.publish reading = .ok c') : (Operation.publish reading).Accepted c c' := by
  have same : SameSubscriptions c c' := by
    unfold publish at h
    split at h
    · cases h
    · split at h
      · obtain rfl := Except.ok.inj h
        exact SameSubscriptions.refl c
      · obtain rfl := Except.ok.inj h
        exact change_same c reading
  exact ⟨fun _ => same, same.idle, same.registered, fun running =>
    .inr (same.running.symm.trans running)⟩

/-- The operations after whose success no callback may be in progress. -/
def Operation.quiesces : Operation C X T → Bool
  | .subscribe _ _ | .unsubscribe _ | .stop => true
  | .start | .publish _ => false

theorem Operation.apply_accepted [BEq T] {channelId : BitVec 16} {op : Operation C X T}
    {c c' : NotificationChannel C X T} (h : op.apply channelId c = .ok c') :
    op.Accepted c c' ∧ (op.quiesces = true → c'.running = false) := by
  cases op with
  | subscribe callback context =>
    cases subscribed : c.subscribe channelId callback context with
    | error status => simp [apply, subscribed, Except.map] at h
    | ok result =>
      simp only [apply, subscribed, Except.map, Except.ok.injEq] at h
      subst h
      obtain ⟨accepted, stopped⟩ := subscribe_accepted subscribed
      exact ⟨accepted, fun _ => stopped⟩
  | unsubscribe handle =>
    obtain ⟨accepted, stopped⟩ := unsubscribe_accepted h
    exact ⟨accepted, fun _ => stopped⟩
  | start => exact ⟨start_accepted h, fun quiesces => by cases quiesces⟩
  | stop =>
    obtain ⟨accepted, stopped⟩ := stop_accepted h
    exact ⟨accepted, fun _ => stopped⟩
  | publish reading => exact ⟨publish_accepted h, fun quiesces => by cases quiesces⟩

/-! ### What a dispatch does -/

/-- What is taken out of the channel is the callback and the context of the slot. -/
theorem dispatchBegin_delivery {c c' : NotificationChannel C X T} {d : Delivery C X T}
    (h : c.dispatchBegin = .ok (d, c')) :
    (c.subscribers d.slot).callback = d.callback ∧ (c.subscribers d.slot).context = d.context := by
  unfold dispatchBegin at h
  split at h
  · cases h
  · split at h
    · cases h
    · split at h
      · cases h
      · obtain ⟨rfl, -⟩ := Prod.mk.inj (Except.ok.inj h)
        exact ⟨rfl, rfl⟩

theorem dispatchBegin_refused {c : NotificationChannel C X T} (active : c.callbackActive = true) :
    ∃ status, c.dispatchBegin = .error status := by
  unfold dispatchBegin
  split
  · exact ⟨_, rfl⟩
  · exact ⟨_, if_pos (by rw [active, Bool.true_or])⟩

theorem dispatchBegin_invokes {c c' : NotificationChannel C X T} {d : Delivery C X T}
    (h : c.dispatchBegin = .ok (d, c')) :
    c.running = true ∧ Invokes c' d ∧ (Registered c → Registered c') := by
  obtain ⟨callback, context⟩ := dispatchBegin_delivery h
  obtain ⟨running, active, -, -, rfl⟩ := dispatchBegin_cases h
  have detached : Function.update c.subscribers d.slot (c.subscribers d.slot).detach d.slot =
      (c.subscribers d.slot).detach := Function.update_self ..
  refine ⟨running, ⟨rfl, running, ?_, ?_, ?_⟩, ?_⟩
  · exact (congrArg Subscriber.active detached).trans active
  · exact (congrArg Subscriber.callback detached).trans callback
  · exact (congrArg Subscriber.context detached).trans context
  · intro registered j
    simp only [setSubscriber]
    by_cases hj : j = d.slot
    · subst hj
      rw [detached]
      exact registered d.slot
    · rw [Function.update_of_ne hj]
      exact registered j

/-! ### The invariant -/

/-- Either no callback is in progress and the flags are down, or one thread is between
its two sections and the flags, the run and its subscription are held for it. -/
abbrev Attended (c : NotificationChannel C X T) (threads : List (DispatchPc C X T)) : Prop :=
  Held DispatchPc.invoking (Idle c) (fun pc => ∀ d ∈ pc.invocation, Invokes c d) threads

structure Quiescence (s : Dispatchers C X T) : Prop where
  registered : Registered s.channel
  held : Attended s.channel s.threads

namespace Quiescence

variable {s t : Dispatchers C X T}

theorem start : Quiescence ({} : Dispatchers C X T) where
  registered := fun i active => by cases active
  held := .start ⟨rfl, rfl⟩

/-- An invocation in progress, with what is held for it. -/
theorem invokes (inv : Quiescence s) {d : Delivery C X T} (h : d ∈ s.callbacks) :
    Invokes s.channel d := by
  obtain ⟨pc, member, invocation⟩ := List.mem_filterMap.mp h
  refine inv.held.fact member ?_ d invocation
  rw [DispatchPc.invoking, invocation]
  rfl

theorem callbacks_of_stopped (inv : Quiescence s) (stopped : s.channel.running = false) :
    s.callbacks = [] := by
  refine List.eq_nil_iff_forall_not_mem.mpr fun d h => ?_
  exact absurd (stopped.symm.trans (inv.invokes h).running) Bool.false_ne_true

theorem join (inv : Quiescence s) {pc : DispatchPc C X T} (idle : pc.invoking = false) :
    Quiescence { s with threads := s.threads ++ [pc] } where
  registered := inv.registered
  held := inv.held.join idle

theorem operation [BEq T] {channelId : BitVec 16} (inv : Quiescence s) (op : Operation C X T) :
    Quiescence { s with channel := (op.apply channelId s.channel).toOption.getD s.channel } := by
  cases applied : op.apply channelId s.channel with
  | error status => exact inv
  | ok c =>
    obtain ⟨accepted, -⟩ := Operation.apply_accepted applied
    refine ⟨accepted.registered inv.registered, inv.held.mono accepted.idle ?_⟩
    intro pc _ _ fact d hd
    exact (accepted.fromCallback (fact d hd).callbackActive).invokes (fact d hd)

theorem dispatchLoop_settles {Rest : Prop} {Fact : DispatchPc C X T → Prop}
    (maxCallbacks delivered : ℕ) (rest : Rest) :
    (dispatchLoop maxCallbacks delivered).Settles DispatchPc.invoking Rest Fact := by
  unfold dispatchLoop
  split
  · exact .resting rfl rest
  · exact rest

theorem succeeded_settles {Rest : Prop} {Fact : DispatchPc C X T → Prop} (call : DispatchCall)
    (rest : Rest) : call.succeeded.Settles DispatchPc.invoking Rest Fact := by
  cases call with
  | dispatchOne => exact rest
  | dispatchPending maxCallbacks delivered => exact dispatchLoop_settles _ _ rest

/-- The first section: refused while another thread is inside a callback. -/
theorem detach (inv : Quiescence s) {i : ℕ} {call : DispatchCall}
    (found : s.threads[i]? = some (.detach call)) :
    Quiescence {
      channel := ((DispatchPc.detach call).step s.channel).1
      threads := resume s.threads i ((DispatchPc.detach call).step s.channel).2 } := by
  cases begun : s.channel.dispatchBegin with
  | error status =>
    have refused : (DispatchPc.detach call).step s.channel = (s.channel, .ret (call.refused status)) := by
      rw [DispatchPc.step, begun]
    have held : Attended s.channel
        (resume s.threads i (.ret (call.refused status) : Control (DispatchPc C X T) _)) := by
      refine inv.held.step found ?_ (fun _ idle => idle) ?_
      · intro invoking
        cases invoking
      · intro _ q _ _ fact
        exact ⟨fact, by simp⟩
    rw [refused]
    exact ⟨inv.registered, held⟩
  | ok result =>
    obtain ⟨d, c⟩ := result
    have taken : (DispatchPc.detach call).step s.channel = (c, .next (.callback call d)) := by
      rw [DispatchPc.step, begun]
    obtain ⟨-, invokes, registered⟩ := dispatchBegin_invokes begun
    have held : Attended c
        (resume s.threads i (.next (.callback call d) : Control _ DispatchResult)) := by
      refine inv.held.step found ?_ ?_ ?_
      · intro invoking
        cases invoking
      · intro _ _
        exact .holding rfl (by simpa [DispatchPc.invocation] using invokes)
      · intro _ q _ invoking fact
        obtain ⟨d', hd'⟩ := Option.isSome_iff_exists.mp invoking
        obtain ⟨status, refused⟩ := dispatchBegin_refused (fact d' hd').callbackActive
        rw [refused] at begun
        cases begun
    rw [taken]
    exact ⟨registered inv.registered, held⟩

/-- The second section: only the thread inside the callback gets there. -/
theorem callback (inv : Quiescence s) {i : ℕ} {call : DispatchCall} {d : Delivery C X T}
    (found : s.threads[i]? = some (.callback call d)) :
    Quiescence {
      channel := ((DispatchPc.callback call d).step s.channel).1
      threads := resume s.threads i ((DispatchPc.callback call d).step s.channel).2 } := by
  refine ⟨inv.registered, inv.held.step found ?_ ?_ ?_⟩
  · intro _ _
    exact succeeded_settles call ⟨rfl, rfl⟩
  · intro idle
    cases idle
  · intro idle
    cases idle

theorem next [BEq T] {channelId : BitVec 16} {k : Call C X T} (inv : Quiescence s)
    (step : s.next channelId k = some t) : Quiescence t := by
  cases k with
  | operation op =>
    obtain rfl := Option.some.inj step
    exact inv.operation op
  | dispatchOne =>
    obtain rfl := Option.some.inj step
    exact inv.join rfl
  | dispatchPending maxCallbacks =>
    obtain rfl := Option.some.inj step
    unfold dispatchLoop
    split
    · exact inv.join rfl
    · rw [Control.live_ret, List.append_nil]
      exact inv
  | thread i =>
    obtain ⟨pc, found, rfl⟩ := Option.map_eq_some_iff.mp step
    cases pc with
    | detach call => exact inv.detach found
    | callback call d => exact inv.callback found

theorem of_run [BEq T] {channelId : BitVec 16} {ks : List (Call C X T)}
    (run : exec (Dispatchers.next channelId) {} ks = some s) : Quiescence s :=
  exec_invariant (fun _ _ _ inv step => inv.next step) run start

end Quiescence

/-! ### From a successful operation to the next start -/

variable [BEq T] {channelId : BitVec 16} {s t : Dispatchers C X T}

/-- Only a start that returns `ok` makes a stopped channel run. -/
theorem stopped_next {k : Call C X T} (stopped : s.channel.running = false)
    (step : guarded (Dispatchers.withoutStart channelId) (Dispatchers.next channelId) s k = some t) :
    t.channel.running = false := by
  obtain ⟨noStart, step⟩ := guarded_eq_some.mp step
  cases k with
  | operation op =>
    obtain rfl := Option.some.inj step
    cases applied : op.apply channelId s.channel with
    | error status => exact stopped
    | ok c =>
      obtain ⟨accepted, -⟩ := Operation.apply_accepted applied
      refine Bool.eq_false_iff.mpr fun running => ?_
      rcases accepted.running running with rfl | before
      · simp [Dispatchers.withoutStart, Dispatchers.succeeds, applied, Except.toBool] at noStart
      · exact absurd (stopped.symm.trans before) Bool.false_ne_true
  | dispatchOne =>
    obtain rfl := Option.some.inj step
    exact stopped
  | dispatchPending maxCallbacks =>
    obtain rfl := Option.some.inj step
    exact stopped
  | thread i =>
    obtain ⟨pc, -, rfl⟩ := Option.map_eq_some_iff.mp step
    cases pc with
    | callback call d => exact stopped
    | detach call =>
      cases begun : s.channel.dispatchBegin with
      | error status => simpa only [DispatchPc.step, begun] using stopped
      | ok result =>
        obtain ⟨running, -⟩ := dispatchBegin_invokes begun
        exact absurd (stopped.symm.trans running) Bool.false_ne_true

theorem stopped_of_succeeds {op : Operation C X T} (quiesces : op.quiesces = true)
    (succeeds : s.succeeds channelId op = true)
    (step : s.next channelId (.operation op) = some t) : t.channel.running = false := by
  obtain rfl := Option.some.inj step
  cases applied : op.apply channelId s.channel with
  | error status => simp [Dispatchers.succeeds, applied, Except.toBool] at succeeds
  | ok c => exact (Operation.apply_accepted applied).2 quiesces

/-- In every interleaving at most one callback is in progress; while one is, the channel
runs and the callback and context are those of a subscription that is still active; and
once stop, subscribe or unsubscribe has returned `ok`, none is in progress in any state
up to the next start that returns `ok`. -/
theorem notification_quiescence (channelId : BitVec 16) (ks : List (Call C X T))
    (s : Dispatchers C X T) (run : exec (Dispatchers.next channelId) {} ks = some s) :
    s.callbacks.length ≤ 1 ∧
      (∀ d ∈ s.callbacks, s.channel.running = true ∧
        (s.channel.subscribers d.slot).active = true ∧ d.callback.isSome = true ∧
        (s.channel.subscribers d.slot).callback = d.callback ∧
        (s.channel.subscribers d.slot).context = d.context) ∧
      ∀ op t, op.quiesces = true → s.succeeds channelId op = true →
        s.next channelId (.operation op) = some t → ∀ ls u,
          exec (guarded (Dispatchers.withoutStart channelId) (Dispatchers.next channelId)) t ls =
            some u → u.callbacks = [] := by
  have inv := Quiescence.of_run run
  refine ⟨inv.held.filterMap_length_le fun _ => rfl, ?_, ?_⟩
  · intro d hd
    obtain ⟨-, running, active, callback, context⟩ := inv.invokes hd
    exact ⟨running, active, callback ▸ inv.registered d.slot active, callback, context⟩
  · intro op t quiesces succeeds step ls u rest
    have stopped := exec_invariant (P := fun u => u.channel.running = false)
      (fun _ _ _ stopped step => stopped_next stopped step) rest
      (stopped_of_succeeds quiesces succeeds step)
    have quiet := exec_invariant (P := Quiescence)
      (fun _ _ _ inv step => inv.next (guarded_eq_some.mp step).2) rest (inv.next step)
    exact quiet.callbacks_of_stopped stopped

/-- A callback publishes, is refused when it stops the channel, and ends. -/
def stopFromCallback : List (Call Unit Unit ℕ) :=
  [.operation (.subscribe (some ()) none), .operation .start, .dispatchOne, .thread 0,
    .operation (.publish (freshReading 1)), .operation .stop, .thread 0]

/-- The theorem after that callback: the next stop succeeds, and a pass of two dispatches
that follows it begins no callback. -/
theorem stop_from_callback_quiet :
    ∃ s t u : Dispatchers Unit Unit ℕ, exec (Dispatchers.next 7) {} stopFromCallback = some s ∧
      s.next 7 (.operation .stop) = some t ∧
      exec (guarded (Dispatchers.withoutStart 7) (Dispatchers.next 7)) t
        [.dispatchPending 2, .thread 0] = some u ∧ u.callbacks = [] := by
  have run := exec_eq_final (Dispatchers.next 7) {} stopFromCallback (by decide)
  have step := next_eq_final (Dispatchers.next 7)
    (final (Dispatchers.next 7) {} stopFromCallback) (.operation .stop) (by decide)
  have rest := exec_eq_final (guarded (Dispatchers.withoutStart 7) (Dispatchers.next 7))
    (final (Dispatchers.next 7) (final (Dispatchers.next 7) {} stopFromCallback) [.operation .stop])
    [.dispatchPending 2, .thread 0] (by decide)
  exact ⟨_, _, _, run, step, rest, (notification_quiescence 7 _ _ run).2.2 .stop _ rfl (by decide)
    step _ _ rest⟩

/-! ### Threads run the locked sections -/

/-- The locked section of an operation. -/
def Operation.choice : Operation C X T → Choice C X T
  | .subscribe callback context => .subscribe callback context
  | .unsubscribe handle => .unsubscribe handle
  | .start => .start
  | .stop => .stop
  | .publish reading => .publish reading

theorem Operation.next_choice (op : Operation C X T) (s : System C X T) :
    s.next channelId op.choice =
      some { s with channel := (op.apply channelId s.channel).toOption.getD s.channel } := by
  cases op with
  | subscribe callback context =>
    simp only [System.next, choice, apply]
    cases s.channel.subscribe channelId callback context <;> rfl
  | unsubscribe handle =>
    simp only [System.next, choice, apply]
    cases s.channel.unsubscribe channelId handle <;> rfl
  | start =>
    simp only [System.next, choice, apply]
    cases s.channel.start <;> rfl
  | stop =>
    simp only [System.next, choice, apply]
    cases s.channel.stop <;> rfl
  | publish reading =>
    simp only [System.next, choice, apply]
    cases s.channel.publish reading <;> rfl

/-- The same channel, and the same callbacks in some order. -/
structure Sections (s : Dispatchers C X T) (r : System C X T) : Prop where
  channel : r.channel = s.channel
  callbacks : r.callbacks.Perm s.callbacks

omit [BEq T] in
theorem callbacks_join (channel : NotificationChannel C X T) (threads : List (DispatchPc C X T))
    (call : DispatchCall) :
    Dispatchers.callbacks ⟨channel, threads ++ [.detach call]⟩ =
      Dispatchers.callbacks ⟨channel, threads⟩ := by
  simp [Dispatchers.callbacks, DispatchPc.invocation]

omit [BEq T] in
theorem succeeded_invocations (call : DispatchCall) :
    (call.succeeded : Control (DispatchPc C X T) DispatchResult).live.filterMap (·.invocation) =
      [] := by
  cases call with
  | dispatchOne => rfl
  | dispatchPending maxCallbacks delivered =>
    simp only [DispatchCall.succeeded, dispatchLoop]
    split <;> rfl

omit [BEq T] in
/-- The thread that leaves its callback ends the section of that callback. -/
theorem Sections.dispatchEnd {r : System C X T} (h : Sections s r) {i : ℕ} {call : DispatchCall}
    {d : Delivery C X T} (found : s.threads[i]? = some (.callback call d)) :
    ∃ k, k < r.callbacks.length ∧
      Sections ⟨s.channel.dispatchEnd, resume s.threads i call.succeeded⟩
        ⟨r.channel.dispatchEnd, r.callbacks.eraseIdx k⟩ := by
  obtain ⟨before, after, split, -, resumed⟩ := resume_split (ρ := DispatchResult) found
  have own : s.callbacks =
      before.filterMap (·.invocation) ++ d :: after.filterMap (·.invocation) := by
    rw [Dispatchers.callbacks, split, List.filterMap_append]
    rfl
  have others : (resume s.threads i (call.succeeded (X := X))).filterMap (·.invocation) =
      before.filterMap (·.invocation) ++ after.filterMap (·.invocation) := by
    rw [resumed, List.filterMap_append, List.filterMap_append, succeeded_invocations,
      List.append_nil]
  have perm : r.callbacks.Perm
      (d :: (before.filterMap (·.invocation) ++ after.filterMap (·.invocation))) :=
    (own ▸ h.callbacks).trans List.perm_middle
  obtain ⟨k, hk, rfl⟩ := List.getElem_of_mem (perm.mem_iff.mpr List.mem_cons_self)
  refine ⟨k, hk, ⟨congrArg NotificationChannel.dispatchEnd h.channel, ?_⟩⟩
  rw [Dispatchers.callbacks, others]
  exact ((List.getElem_cons_eraseIdx_perm hk).trans perm).cons_inv

omit [BEq T] in
/-- The invocations after a step of a thread that is not inside a callback. -/
theorem invocations_resume {threads : List (DispatchPc C X T)} {i : ℕ} {call : DispatchCall}
    (found : threads[i]? = some (.detach call))
    (control : Control (DispatchPc C X T) DispatchResult) :
    (threads.filterMap (·.invocation) ++ control.live.filterMap (·.invocation)).Perm
      ((resume threads i control).filterMap (·.invocation)) := by
  obtain ⟨before, after, split, -, resumed⟩ := resume_split (ρ := DispatchResult) found
  have own : threads.filterMap (·.invocation) =
      before.filterMap (·.invocation) ++ after.filterMap (·.invocation) := by
    rw [split, List.filterMap_append]
    rfl
  rw [own, resumed, List.filterMap_append, List.filterMap_append, List.append_assoc,
    List.append_assoc]
  exact List.perm_append_comm.append_left _

theorem Sections.next {k : Call C X T} {r : System C X T} (h : Sections s r)
    (step : s.next channelId k = some t) :
    ∃ ls r', exec (System.next channelId) r ls = some r' ∧ Sections t r' := by
  cases k with
  | operation op =>
    obtain rfl := Option.some.inj step
    refine ⟨[op.choice], _, exec_single (op.next_choice r), ⟨?_, h.callbacks⟩⟩
    rw [h.channel]
  | dispatchOne =>
    obtain rfl := Option.some.inj step
    exact ⟨[], r, rfl, h.channel, callbacks_join s.channel s.threads _ ▸ h.callbacks⟩
  | dispatchPending maxCallbacks =>
    obtain rfl := Option.some.inj step
    refine ⟨[], r, rfl, h.channel, ?_⟩
    unfold dispatchLoop
    split
    · exact callbacks_join s.channel s.threads _ ▸ h.callbacks
    · simpa [Dispatchers.callbacks] using h.callbacks
  | thread i =>
    obtain ⟨pc, found, rfl⟩ := Option.map_eq_some_iff.mp step
    cases pc with
    | callback call d =>
      obtain ⟨k, hk, same⟩ := h.dispatchEnd found
      exact ⟨[.dispatchEnd k], _, exec_single (if_pos hk), same⟩
    | detach call =>
      have moved := invocations_resume found ((DispatchPc.detach call).step s.channel).2
      cases begun : s.channel.dispatchBegin with
      | error status =>
        simp only [DispatchPc.step, begun] at moved ⊢
        exact ⟨[], r, rfl, h.channel, h.callbacks.trans (by simpa [Dispatchers.callbacks] using moved)⟩
      | ok result =>
        obtain ⟨d, c⟩ := result
        have detached : r.next channelId .dispatchBegin = some ⟨c, r.callbacks ++ [d]⟩ := by
          simp only [System.next, h.channel, begun]
        simp only [DispatchPc.step, begun] at moved ⊢
        exact ⟨[.dispatchBegin], _, exec_single detached, rfl,
          (h.callbacks.append_right [d]).trans moved⟩

/-- Every run of the threads is a run of the locked sections. -/
theorem sections_of_run {ks : List (Call C X T)} {r : System C X T} (h : Sections s r)
    (run : exec (Dispatchers.next channelId) s ks = some t) :
    ∃ ls r', exec (System.next channelId) r ls = some r' ∧ Sections t r' := by
  induction ks generalizing s r with
  | nil =>
    obtain rfl := Option.some.inj run
    exact ⟨[], r, rfl, h⟩
  | cons k ks ih =>
    obtain ⟨u, step, run⟩ := exec_cons_eq_some.mp run
    obtain ⟨first, r₁, hfirst, h₁⟩ := h.next step
    obtain ⟨rest, r₂, hrest, h₂⟩ := ih h₁ run
    exact ⟨first ++ rest, r₂, exec_trans hfirst hrest, h₂⟩

/-- What the sections keep, the threads keep: a stopped channel holds no notice. -/
theorem stopped_holds_no_notice {ks : List (Call C X T)}
    (run : exec (Dispatchers.next channelId) {} ks = some s) (stopped : s.channel.running = false)
    (i : Slot) : (s.channel.subscribers i).pending = false := by
  obtain ⟨ls, r, sections, same⟩ := sections_of_run (r := {}) ⟨rfl, .refl _⟩ run
  have inv := invariant_of_run sections
  rw [same.channel] at inv
  exact inv.stopped stopped i

end CanTelemetry.VehicleCore.NotificationChannel
