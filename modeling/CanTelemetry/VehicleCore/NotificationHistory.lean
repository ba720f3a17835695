import CanTelemetry.VehicleCore.NotificationChannel
import Mathlib.Tactic.Common

/-! What the subscribers of a channel are told. The readings of one run form a
list of changes; for each slot the detaches cut that list into consecutive
segments, and every notice is the fold of its segment. The segmentation is read
off the observable events alone; the invariant ties the five flags of a slot to
the segment that is still open. -/

namespace CanTelemetry.VehicleCore.NotificationChannel

open Execution

variable {C X T : Type*}

/-! ### Events and segments -/

/-- `changed` is a publish that returned `ok` with a reading that differs from
the current one; `delivered` is the detach of a notice by a dispatch. -/
inductive Event (T : Type*)
  | started
  | stopped
  | changed (reading : Reading T)
  | delivered (slot : Slot) (notice : Notification T)

def observe [BEq T] (s : System C X T) : Choice C X T → List (Event T)
  | .start => match s.channel.start with
    | .ok _ => [.started]
    | .error _ => []
  | .stop => match s.channel.stop with
    | .ok _ => [.stopped]
    | .error _ => []
  | .publish reading =>
    if s.channel.running && !sameReading s.channel.current reading then [.changed reading] else []
  | .dispatchBegin => match s.channel.dispatchBegin with
    | .ok (d, _) => [.delivered d.slot d.notice]
    | .error _ => []
  | .subscribe _ _ | .unsubscribe _ | .dispatchEnd _ => []

/-- The changes of the latest run, oldest first. -/
def changes (evs : List (Event T)) : List (Reading T) :=
  evs.foldl (fun rs e => match e with
    | .started => []
    | .changed r => rs ++ [r]
    | _ => rs) []

/-- The segments of one slot in the latest run: those closed by a delivery, with
the delivered notice, and the one that is still open. -/
structure History (T : Type*) where
  closed : List (List (Reading T) × Notification T) := []
  pending : List (Reading T) := []

def History.step (i : Slot) (h : History T) : Event T → History T
  | .started => {}
  | .stopped => h
  | .changed r => { h with pending := h.pending ++ [r] }
  | .delivered j n => if j = i then { closed := h.closed ++ [(h.pending, n)] } else h

def history (i : Slot) (evs : List (Event T)) : History T := evs.foldl (History.step i) {}

/-- The changes of the closed segments, oldest first. -/
def History.earlier (h : History T) : List (Reading T) := (h.closed.map Prod.fst).flatten

@[simp] theorem changes_concat (evs : List (Event T)) (e : Event T) :
    changes (evs ++ [e]) = match e with
      | .started => []
      | .changed r => changes evs ++ [r]
      | _ => changes evs := by
  cases e <;> simp [changes]

@[simp] theorem history_concat (i : Slot) (evs : List (Event T)) (e : Event T) :
    history i (evs ++ [e]) = (history i evs).step i e := by
  simp [history]

/-- The segments of a slot partition the changes of the run, in order. -/
theorem earlier_append_pending (i : Slot) (evs : List (Event T)) :
    (history i evs).earlier ++ (history i evs).pending = changes evs := by
  induction evs using List.reverseRecOn with
  | nil => rfl
  | append_singleton evs e ih =>
    rw [history_concat, changes_concat]
    cases e with
    | started => rfl
    | stopped => exact ih
    | changed r => simp only [History.step, ← ih, ← List.append_assoc]; rfl
    | delivered j n =>
      by_cases h : j = i
      · simp [History.step, h, History.earlier, ← ih]
      · simpa [History.step, h] using ih

/-! ### The fold of a segment -/

/-- The reading in force after a list of changes; before any it is empty. -/
def lastReading (rs : List (Reading T)) : Reading T := rs.getLast?.getD {}

/-- Some change of the segment is of kind `P`, which sees the changes before it. -/
def Transits (earlier segment : List (Reading T)) (P : List (Reading T) → Reading T → Prop) :
    Prop :=
  ∃ pre r post, segment = pre ++ r :: post ∧ P (earlier ++ pre) r

def BecomesUnavailable (before : List (Reading T)) (r : Reading T) : Prop :=
  available (lastReading before) = true ∧ available r = false

/-- A recovery needs an earlier available period in the same run. -/
def Recovers (before : List (Reading T)) (r : Reading T) : Prop :=
  available (lastReading before) = false ∧ available r = true ∧ ∃ q ∈ before, available q = true

/-- The notice is the fold of the segment, which follows the changes `earlier`;
`first` marks the first notice of a run. -/
structure Folds (earlier segment : List (Reading T)) (first : Prop) (n : Notification T) :
    Prop where
  initial : n.initial = true ↔ first
  current : n.current = lastReading segment
  becameUnavailable : n.becameUnavailable = true ↔ Transits earlier segment BecomesUnavailable
  recovered : n.recovered = true ↔ Transits earlier segment Recovers
  coalesced : n.coalesced = true ↔ 2 ≤ segment.length

@[simp] theorem lastReading_concat (rs : List (Reading T)) (r : Reading T) :
    lastReading (rs ++ [r]) = r := by
  simp [lastReading]

theorem not_transits_nil (earlier : List (Reading T)) (P) : ¬Transits earlier [] P := by
  rintro ⟨pre, r, post, h, -⟩
  simp at h

theorem transits_concat (earlier segment : List (Reading T)) (r : Reading T) (P) :
    Transits earlier (segment ++ [r]) P ↔ Transits earlier segment P ∨ P (earlier ++ segment) r := by
  constructor
  · rintro ⟨pre, q, post, h, hP⟩
    rcases List.eq_nil_or_concat post with rfl | ⟨post, q', rfl⟩
    · obtain ⟨rfl, hq⟩ := List.append_inj' h rfl
      obtain rfl := List.singleton_inj.mp hq
      exact Or.inr hP
    · rw [List.concat_eq_append, ← List.cons_append, ← List.append_assoc] at h
      exact Or.inl ⟨pre, q, post, (List.append_inj' h rfl).1, hP⟩
  · rintro (⟨pre, q, post, rfl, hP⟩ | hP)
    · exact ⟨pre, q, post ++ [r], by simp, hP⟩
    · exact ⟨segment, r, [], rfl, hP⟩

/-- The contribution of one change to a slot. -/
structure IsUpdate (before : List (Reading T)) (r : Reading T) (u : Notification T) : Prop where
  initial : u.initial = false
  current : u.current = r
  becameUnavailable : u.becameUnavailable = true ↔ BecomesUnavailable before r
  recovered : u.recovered = true ↔ Recovers before r
  coalesced : u.coalesced = false

/-- A slot whose notice was taken starts a new segment with the next change. -/
theorem IsUpdate.folds {earlier : List (Reading T)} {r : Reading T} {u : Notification T}
    (h : IsUpdate earlier r u) {first : Prop} (hf : ¬first) : Folds earlier [r] first u where
  initial := by simp [h.initial, hf]
  current := h.current
  becameUnavailable := by
    rw [h.becameUnavailable, ← List.nil_append [r], transits_concat]
    simp [not_transits_nil]
  recovered := by
    rw [h.recovered, ← List.nil_append [r], transits_concat]
    simp [not_transits_nil]
  coalesced := by simp [h.coalesced]

/-- What the flags of an active slot say about its segments while the channel runs. -/
structure SlotInvariant (h : History T) (s : Subscriber C X T) : Prop where
  pending_iff : s.pending = true ↔ h.closed = [] ∨ h.pending ≠ []
  seed_iff : s.pending = true → (s.pendingInitialSeed = true ↔ h.pending = [])
  folds : s.pending = true → Folds h.earlier h.pending (h.closed = []) s.pendingNotice

/-- Merging one change extends the open segment by that change. -/
theorem SlotInvariant.merge {h : History T} {s : Subscriber C X T} (inv : SlotInvariant h s)
    {r : Reading T} {u : Notification T} (hu : IsUpdate (h.earlier ++ h.pending) r u) :
    SlotInvariant { h with pending := h.pending ++ [r] } (s.mergePending u) := by
  unfold Subscriber.mergePending
  cases hp : s.pending with
  | false =>
    have hno : ¬(h.closed = [] ∨ h.pending ≠ []) := by simp [← inv.pending_iff, hp]
    obtain ⟨hc, ho⟩ := not_or.mp hno
    rw [not_not.mp ho] at hu ⊢
    rw [List.append_nil] at hu
    exact ⟨by simp, by simp, fun _ => hu.folds hc⟩
  | true =>
    have hf := inv.folds hp
    have hs := inv.seed_iff hp
    refine ⟨by simp, by simp, fun _ => ⟨hf.initial, ?_, ?_, ?_, ?_⟩⟩
    · simp [hu.current]
    · simp [hf.becameUnavailable, hu.becameUnavailable, transits_concat, History.earlier]
    · simp [hf.recovered, hu.recovered, transits_concat, History.earlier]
    · have hlen : h.pending ≠ [] ↔ 1 ≤ h.pending.length := by
        rw [← List.length_pos_iff]; exact Iff.rfl
      have hseed : s.pendingInitialSeed = false ↔ h.pending ≠ [] := by
        rw [← Bool.not_eq_true, not_iff_not.mpr hs]
      simp only [Bool.not_true, Bool.false_eq_true, ↓reduceIte, Bool.or_eq_true, hf.coalesced,
        Bool.not_eq_true', hseed, hlen, List.length_append, List.length_singleton]
      omega

/-- A delivered notice is the fold of the segment that the delivery closes. -/
theorem SlotInvariant.detach {h : History T} {s : Subscriber C X T} (n : Notification T) :
    SlotInvariant { closed := h.closed ++ [(h.pending, n)] } s.detach := by
  constructor <;> simp [Subscriber.detach]

theorem SlotInvariant.seed {s : Subscriber C X T} (ha : s.active = true) :
    SlotInvariant ({} : History T) (s.seed {}) := by
  refine ⟨by simp [Subscriber.seed, ha], by simp [Subscriber.seed], fun _ => ⟨?_, ?_, ?_, ?_, ?_⟩⟩
  · simp [Subscriber.seed]
  · rfl
  · simp [Subscriber.seed, not_transits_nil]
  · simp [Subscriber.seed, not_transits_nil]
  · simp [Subscriber.seed]

/-! ### The invariant of the channel -/

/-- Every delivered notice of the latest run is the fold of its segment. -/
def Delivered (h : History T) : Prop :=
  ∀ k segment n, h.closed[k]? = some (segment, n) →
    Folds ((h.closed.take k).map Prod.fst).flatten segment (k = 0) n ∧ (segment = [] → k = 0)

structure Running (evs : List (Event T)) (c : NotificationChannel C X T) : Prop where
  current : c.current = lastReading (changes evs)
  period : c.hasAvailablePeriod = true ↔ ∃ q ∈ changes evs, available q = true
  slots : ∀ i, (c.subscribers i).active = true → SlotInvariant (history i evs) (c.subscribers i)

structure Invariant (evs : List (Event T)) (c : NotificationChannel C X T) : Prop where
  delivered : ∀ i, Delivered (history i evs)
  running : c.running = true → Running evs c
  stopped : c.running = false → ∀ i, (c.subscribers i).pending = false

theorem Running.isUpdate {evs : List (Event T)} {c : NotificationChannel C X T}
    (inv : Running evs c) (r : Reading T) : IsUpdate (changes evs) r (c.updateOf r) where
  initial := rfl
  current := rfl
  becameUnavailable := by simp [updateOf, BecomesUnavailable, inv.current]
  recovered := by
    simp only [updateOf, Recovers, Bool.and_eq_true, Bool.not_eq_true', inv.current, inv.period,
      and_assoc]
  coalesced := rfl

/-- One change of the reading. -/
theorem Running.change {evs : List (Event T)} {c : NotificationChannel C X T}
    (inv : Running evs c) (r : Reading T) : Running (evs ++ [.changed r]) (c.change r) where
  current := by simp [NotificationChannel.change]
  period := by
    simp only [NotificationChannel.change, Bool.or_eq_true, inv.period, changes_concat,
      List.mem_append, List.mem_singleton]
    constructor
    · rintro (⟨q, hq, ha⟩ | ha)
      · exact ⟨q, Or.inl hq, ha⟩
      · exact ⟨r, Or.inr rfl, ha⟩
    · rintro ⟨q, hq | rfl, ha⟩
      · exact Or.inl ⟨q, hq, ha⟩
      · exact Or.inr ha
  slots := by
    intro i ha
    have hactive : (c.subscribers i).active = true := by
      simp only [NotificationChannel.change, Subscriber.mergePending] at ha
      split_ifs at ha <;> assumption
    have hu := inv.isUpdate r
    rw [← earlier_append_pending i evs] at hu
    rw [history_concat]
    simp only [NotificationChannel.change, hactive, ↓reduceIte]
    exact (inv.slots i hactive).merge hu

/-- The detach of the notice of slot `i`. -/
theorem Running.detach {evs : List (Event T)} {c c' : NotificationChannel C X T} {i : Slot}
    (inv : Running evs c) (n : Notification T) (hcurrent : c'.current = c.current)
    (hperiod : c'.hasAvailablePeriod = c.hasAvailablePeriod)
    (hsub : c'.subscribers = Function.update c.subscribers i (c.subscribers i).detach) :
    Running (evs ++ [.delivered i n]) c' where
  current := by rw [hcurrent, inv.current, changes_concat]
  period := by rw [hperiod, inv.period, changes_concat]
  slots := by
    intro j ha
    rw [history_concat, hsub]
    rw [hsub] at ha
    by_cases hj : j = i
    · subst hj
      simpa [History.step] using SlotInvariant.detach n
    · rw [Function.update_of_ne hj] at ha ⊢
      simpa [History.step, Ne.symm hj] using inv.slots j ha

theorem Running.start {c c' : NotificationChannel C X T} (evs : List (Event T))
    (hcurrent : c'.current = {}) (hperiod : c'.hasAvailablePeriod = false)
    (hsub : c'.subscribers = fun i => (c.subscribers i).seed {}) :
    Running (evs ++ [.started]) c' where
  current := by simp [hcurrent, lastReading]
  period := by simp [hperiod]
  slots := by
    intro i ha
    rw [hsub] at ha ⊢
    rw [history_concat]
    exact SlotInvariant.seed (s := c.subscribers i) ha

theorem Delivered.snoc {h : History T} (hd : Delivered h) {n : Notification T}
    (hf : Folds h.earlier h.pending (h.closed = []) n)
    (hne : h.closed = [] ∨ h.pending ≠ []) :
    Delivered { closed := h.closed ++ [(h.pending, n)] } := by
  intro k segment m hk
  rcases Nat.lt_trichotomy k h.closed.length with hlt | rfl | hgt
  · rw [List.getElem?_append_left hlt] at hk
    simpa [List.take_append_of_le_length (Nat.le_of_lt hlt)] using hd k segment m hk
  · simp only [List.getElem?_concat_length, Option.some.injEq, Prod.mk.injEq] at hk
    obtain ⟨rfl, rfl⟩ := hk
    have hfirst : h.closed.length = 0 ↔ h.closed = [] := List.length_eq_zero_iff
    refine ⟨by simpa [hfirst, History.earlier] using hf, fun hs => hfirst.mpr ?_⟩
    exact hne.resolve_right fun h' => h' hs
  · rw [List.getElem?_eq_none (by simp; omega)] at hk
    simp at hk

/-- A section that no subscriber can tell from no section at all: while the
channel runs it leaves readings and slots alone, and it never makes a notice. -/
structure Quiet (c c' : NotificationChannel C X T) : Prop where
  running : c'.running = c.running
  whileRunning : c.running = true → c'.current = c.current ∧
    c'.hasAvailablePeriod = c.hasAvailablePeriod ∧ c'.subscribers = c.subscribers
  whileStopped : c.running = false → ∀ i, (c'.subscribers i).pending = true →
    (c.subscribers i).pending = true

/-- Between runs a slot may be replaced by one without a notice. -/
theorem Quiet.of_setSubscriber {c c' : NotificationChannel C X T} {i : Slot}
    {s : Subscriber C X T} (hstopped : c.running = false) (hs : s.pending = false)
    (hrunning : c'.running = c.running)
    (hsub : c'.subscribers = Function.update c.subscribers i s) : Quiet c c' where
  running := hrunning
  whileRunning := fun h => absurd h (by simp [hstopped])
  whileStopped := by
    intro _ j hj
    rw [hsub] at hj
    by_cases hij : j = i
    · subst hij
      simp [hs] at hj
    · rwa [Function.update_of_ne hij] at hj

theorem subscribe_quiet {channelId : BitVec 16} {c c' : NotificationChannel C X T}
    {callback : Option C} {context : Option X} {handle : NotificationHandle}
    (h : c.subscribe channelId callback context = .ok (handle, c')) : Quiet c c' := by
  unfold subscribe at h
  split at h
  · cases h
  · rename_i hidle
    split at h
    · cases h
    · split at h
      · cases h
      · obtain ⟨rfl, rfl⟩ := Prod.mk.inj (Except.ok.inj h)
        simp only [Bool.or_eq_true, not_or, Bool.not_eq_true] at hidle
        exact Quiet.of_setSubscriber hidle.2 rfl rfl rfl

theorem unsubscribe_quiet {channelId : BitVec 16} {c c' : NotificationChannel C X T}
    {handle : NotificationHandle} (h : c.unsubscribe channelId handle = .ok c') : Quiet c c' := by
  unfold unsubscribe at h
  split at h
  · cases h
  · rename_i hidle
    split at h
    · cases h
    · obtain rfl := Except.ok.inj h
      simp only [Bool.or_eq_true, not_or, Bool.not_eq_true] at hidle
      exact Quiet.of_setSubscriber hidle.2 rfl rfl rfl

/-- The selected slot is active and has a pending notice. -/
def Selectable (c : NotificationChannel C X T) (i : Slot) : Prop :=
  (c.subscribers i).active = true ∧ (c.subscribers i).pending = true

theorem selectOlder_selectable {c : NotificationChannel C X T} {qualifies : Slot → Bool}
    {selected : Option Slot} {i : Slot} (hs : ∀ j ∈ selected, c.Selectable j) :
    ∀ j ∈ c.selectOlder qualifies selected i, c.Selectable j := by
  unfold selectOlder
  split
  · exact hs
  · rename_i hi
    simp only [Bool.not_not_eq, Bool.and_eq_true] at hi
    have hsel : c.Selectable i := hi.1
    split
    · simpa using hsel
    · split
      · simpa using hsel
      · simpa using hs

theorem oldestPending_selectable {c : NotificationChannel C X T} {qualifies : Slot → Bool} :
    ∀ j ∈ c.oldestPending qualifies, c.Selectable j := by
  unfold oldestPending
  suffices h : ∀ (slots : List Slot) (selected : Option Slot), (∀ j ∈ selected, c.Selectable j) →
      ∀ j ∈ slots.foldl (c.selectOlder qualifies) selected, c.Selectable j from
    h _ none (by simp)
  intro slots
  induction slots with
  | nil => exact fun selected h => h
  | cons i slots ih => exact fun selected h => ih _ (selectOlder_selectable h)

theorem nextPendingSubscriber_selectable {c : NotificationChannel C X T} :
    ∀ i ∈ c.nextPendingSubscriber, c.Selectable i := by
  unfold nextPendingSubscriber
  split
  · rename_i i hi
    simpa using oldestPending_selectable i hi
  · exact oldestPending_selectable

theorem start_cases {c c' : NotificationChannel C X T} (h : c.start = .ok c') :
    c'.running = true ∧ c'.current = {} ∧ c'.hasAvailablePeriod = false ∧
      c'.subscribers = fun i => (c.subscribers i).seed {} := by
  unfold start at h
  split at h
  · cases h
  · obtain rfl := Except.ok.inj h
    exact ⟨rfl, rfl, rfl, rfl⟩

theorem stop_cases {c c' : NotificationChannel C X T} (h : c.stop = .ok c') :
    c'.running = false ∧ c'.subscribers = fun i => (c.subscribers i).discard := by
  unfold stop at h
  split at h
  · cases h
  · split at h
    · cases h
    · obtain rfl := Except.ok.inj h
      exact ⟨rfl, rfl⟩

theorem Invariant.quiet {evs : List (Event T)} {c c' : NotificationChannel C X T}
    (inv : Invariant evs c) (h : Quiet c c') : Invariant evs c' where
  delivered := inv.delivered
  running := by
    intro hr
    rw [h.running] at hr
    obtain ⟨h1, h2, h3⟩ := h.whileRunning hr
    have old := inv.running hr
    exact ⟨h1 ▸ old.current, h2 ▸ old.period, h3 ▸ old.slots⟩
  stopped := by
    intro hr i
    rw [h.running] at hr
    exact Bool.eq_false_iff.mpr fun hp => absurd (h.whileStopped hr i hp) (by simp [inv.stopped hr i])

theorem dispatchBegin_cases {c c' : NotificationChannel C X T} {d : Delivery C X T}
    (h : c.dispatchBegin = .ok (d, c')) :
    c.running = true ∧ (c.subscribers d.slot).active = true ∧
      (c.subscribers d.slot).pending = true ∧ d.notice = (c.subscribers d.slot).pendingNotice ∧
      c' = { c.setSubscriber d.slot (c.subscribers d.slot).detach with
        dispatchCursorOrder := (c.subscribers d.slot).registrationOrder
        dispatching := true
        callbackActive := true } := by
  unfold dispatchBegin at h
  split at h
  · cases h
  · rename_i hr
    split at h
    · cases h
    · split at h
      · cases h
      · rename_i i hi
        obtain ⟨rfl, rfl⟩ := Prod.mk.inj (Except.ok.inj h)
        obtain ⟨ha, hp⟩ := nextPendingSubscriber_selectable i hi
        exact ⟨by simpa using hr, ha, hp, rfl, rfl⟩

theorem Invariant.start {evs : List (Event T)} {c c' : NotificationChannel C X T}
    (h : c.start = .ok c') : Invariant (evs ++ [.started]) c' := by
  obtain ⟨hr, hcurrent, hperiod, hsub⟩ := start_cases h
  refine ⟨fun i => ?_, fun _ => Running.start evs hcurrent hperiod hsub, by simp [hr]⟩
  rw [history_concat]
  intro k segment n hk
  simp [History.step] at hk

theorem Invariant.stop {evs : List (Event T)} {c c' : NotificationChannel C X T}
    (inv : Invariant evs c) (h : c.stop = .ok c') : Invariant (evs ++ [.stopped]) c' := by
  obtain ⟨hr, hsub⟩ := stop_cases h
  refine ⟨fun i => ?_, by simp [hr], fun _ i => by simp [hsub, Subscriber.discard]⟩
  rw [history_concat]
  exact inv.delivered i

theorem Invariant.change {evs : List (Event T)} {c : NotificationChannel C X T}
    (inv : Invariant evs c) (hr : c.running = true) (r : Reading T) :
    Invariant (evs ++ [.changed r]) (c.change r) := by
  refine ⟨fun i => ?_, fun _ => (inv.running hr).change r, fun h => ?_⟩
  · rw [history_concat]
    exact inv.delivered i
  · simp [NotificationChannel.change, hr] at h

theorem Invariant.detach {evs : List (Event T)} {c c' : NotificationChannel C X T}
    {d : Delivery C X T} (inv : Invariant evs c) (h : c.dispatchBegin = .ok (d, c')) :
    Invariant (evs ++ [.delivered d.slot d.notice]) c' := by
  obtain ⟨hr, ha, hp, hn, rfl⟩ := dispatchBegin_cases h
  have slot := (inv.running hr).slots d.slot ha
  refine ⟨fun i => ?_, fun _ => (inv.running hr).detach d.notice rfl rfl rfl, fun h => ?_⟩
  · rw [history_concat]
    by_cases hi : d.slot = i
    · subst hi
      simpa [History.step] using
        (inv.delivered d.slot).snoc (hn ▸ slot.folds hp) (slot.pending_iff.mp hp)
    · simpa [History.step, hi] using inv.delivered i
  · simp [setSubscriber, hr] at h

/-- Every locked section keeps the invariant, with its events appended. -/
theorem Invariant.step [BEq T] {channelId : BitVec 16} {evs : List (Event T)}
    {s t : System C X T} {k : Choice C X T} (inv : Invariant evs s.channel)
    (h : s.next channelId k = some t) : Invariant (evs ++ observe s k) t.channel := by
  cases k with
  | subscribe callback context =>
    simp only [System.next] at h
    rw [observe, List.append_nil]
    split at h <;> obtain rfl := Option.some.inj h
    · rename_i hc
      exact inv.quiet (subscribe_quiet hc)
    · exact inv
  | unsubscribe handle =>
    simp only [System.next] at h
    rw [observe, List.append_nil]
    split at h <;> obtain rfl := Option.some.inj h
    · rename_i hc
      exact inv.quiet (unsubscribe_quiet hc)
    · exact inv
  | start =>
    cases hc : s.channel.start <;> simp only [System.next, observe, hc, Option.some.injEq] at h ⊢ <;>
      subst h
    · simpa using inv
    · exact Invariant.start hc
  | stop =>
    cases hc : s.channel.stop <;> simp only [System.next, observe, hc, Option.some.injEq] at h ⊢ <;>
      subst h
    · simpa using inv
    · exact inv.stop hc
  | publish r =>
    simp only [System.next, publish] at h
    rw [observe]
    by_cases hr : s.channel.running = true
    · by_cases hsame : sameReading s.channel.current r = true
      · simp only [hr, hsame, Bool.not_true, Bool.false_eq_true, ↓reduceIte,
          Option.some.injEq] at h ⊢
        subst h
        simpa using inv
      · simp only [hr, hsame, Bool.not_true, Bool.false_eq_true, ↓reduceIte,
          Option.some.injEq] at h ⊢
        subst h
        simpa using inv.change hr r
    · simp only [Bool.not_eq_true] at hr
      simp only [hr, Bool.not_false, ↓reduceIte, Option.some.injEq] at h ⊢
      subst h
      simpa using inv
  | dispatchBegin =>
    cases hc : s.channel.dispatchBegin <;>
      simp only [System.next, observe, hc, Option.some.injEq] at h ⊢ <;> subst h
    · simpa using inv
    · exact inv.detach hc
  | dispatchEnd k =>
    simp only [System.next] at h
    rw [observe, List.append_nil]
    split at h
    · obtain rfl := Option.some.inj h
      exact inv.quiet ⟨rfl, fun _ => ⟨rfl, rfl, rfl⟩, fun _ _ => id⟩
    · cases h

theorem invariant_of_run [BEq T] {channelId : BitVec 16} {ks : List (Choice C X T)}
    {s : System C X T} (run : exec (System.next channelId) {} ks = some s) :
    Invariant (trace (System.next channelId) observe {} ks) s.channel := by
  refine exec_history (P := fun ks s => Invariant (trace (System.next channelId) observe {} ks)
    s.channel) ?_ ?_ run
  · exact ⟨fun i k segment n h => by simp [trace, history] at h, by simp, fun _ i => rfl⟩
  · intro ks t k u hrun inv hstep
    rw [trace_concat hrun k]
    exact inv.step hstep

/-- In every run and for every slot, the changes of the latest start..stop period
are cut into the segments of the delivered notices and one open segment, in order
and without loss; every delivered notice is the fold of its segment, and only the
first may be empty; an active slot of a running channel has a notice pending
exactly when its first one is still due or its open segment has a change, and that
notice is the fold of the open segment, which is also what a stop discards. -/
theorem delivered_notices_segment_changes [BEq T] (channelId : BitVec 16)
    (ks : List (Choice C X T)) (s : System C X T)
    (run : exec (System.next channelId) {} ks = some s) (i : Slot) :
    let h := history i (trace (System.next channelId) observe {} ks)
    (h.closed.map Prod.fst).flatten ++ h.pending =
        changes (trace (System.next channelId) observe {} ks) ∧
      (∀ k segment n, h.closed[k]? = some (segment, n) →
        Folds ((h.closed.take k).map Prod.fst).flatten segment (k = 0) n ∧
          (segment = [] → k = 0)) ∧
      (s.channel.running = true → (s.channel.subscribers i).active = true →
        ((s.channel.subscribers i).pending = true ↔ h.closed = [] ∨ h.pending ≠ []) ∧
          ((s.channel.subscribers i).pending = true →
            Folds (h.closed.map Prod.fst).flatten h.pending (h.closed = [])
              (s.channel.subscribers i).pendingNotice)) ∧
      (s.channel.running = false → (s.channel.subscribers i).pending = false) := by
  have inv := invariant_of_run run
  refine ⟨earlier_append_pending i _, inv.delivered i, fun hr ha => ?_, fun hr => inv.stopped hr i⟩
  have slot := (inv.running hr).slots i ha
  exact ⟨slot.pending_iff, slot.folds⟩

/-- A reading that is available with value `n`. -/
def freshReading (n : ℕ) : Reading ℕ := { value := some n, availability := .fresh }

/-- One subscriber is told the initial state, then loses and regains a reading
between two dispatches; a last reading is pending. -/
def failureAndRecovery : List (Choice Unit Unit ℕ) :=
  [.subscribe (some ()) none, .start, .dispatchBegin, .dispatchEnd 0, .publish (freshReading 1),
    .publish { availability := .unavailable }, .publish (freshReading 1), .dispatchBegin,
    .publish (freshReading 2)]

/-- The theorem at a run with an empty first segment, a coalesced second one and
an open third one. -/
theorem failure_and_recovery_segmented :
    ∃ s : System Unit Unit ℕ, exec (System.next 7) {} failureAndRecovery = some s ∧
      ((history 0 (trace (System.next 7) observe {} failureAndRecovery)).closed.map
        Prod.fst).flatten ++ (history 0 (trace (System.next 7) observe {} failureAndRecovery)).pending
        = changes (trace (System.next 7) observe {} failureAndRecovery) ∧
      (changes (trace (System.next 7) observe {} failureAndRecovery)).length = 4 :=
  ⟨_, rfl, (delivered_notices_segment_changes 7 failureAndRecovery _ rfl 0).1, by decide⟩

end CanTelemetry.VehicleCore.NotificationChannel
