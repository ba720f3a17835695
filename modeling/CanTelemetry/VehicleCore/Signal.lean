import CanTelemetry.VehicleCore.Contracts
import Mathlib.Data.List.Infix

/-! The latest-value signal. Updates are ordered by the timestamp of the last
accepted observation; an effective invalidation marks the value unavailable and
leaves that timestamp where it was. The consequence worked out here: after an
invalidation the order is still decided against the last accepted observation,
so an observation between the two instants makes the signal actionable again. -/

namespace CanTelemetry.VehicleCore

inductive SignalStatus
  | unknown | valid | stale
  deriving DecidableEq, Repr

inductive SignalUpdateResult
  | rejected | idempotent | updated
  deriving DecidableEq, Repr

inductive SignalUnit
  | none | kilometresPerHour | revolutionsPerMinute | boolean
  deriving DecidableEq, Repr

/-- `lastUpdateUs` is meaningful only when `hasValue` is true. -/
structure Signal (T : Type*) where
  value : T
  unit : SignalUnit := .none
  hasValue : Bool := false
  lastUpdateUs : MonotonicTimestamp := 0
  freshnessTimeoutUs : Option Microseconds := none
  status : SignalStatus := .unknown

namespace Signal

variable {T : Type*}

/-- The constructor `Signal(unit, timeout)`. -/
def create [Inhabited T] (unit : SignalUnit) (timeout : Option Microseconds) : Signal T :=
  { value := default, unit := unit, freshnessTimeoutUs := timeout }

def isValid (s : Signal T) : Bool := s.status = .valid

def isStale (s : Signal T) : Bool := s.status = .stale

def isUnknown (s : Signal T) : Bool := s.status = .unknown

/-- The state after an accepted observation. -/
def accept (s : Signal T) (newValue : T) (timestamp : MonotonicTimestamp) : Signal T :=
  { s with value := newValue, lastUpdateUs := timestamp, hasValue := true, status := .valid }

def updateStatus [BEq T] (s : Signal T) (newValue : T) (timestamp : MonotonicTimestamp) :
    SignalUpdateResult × Signal T :=
  if !s.hasValue then (.updated, s.accept newValue timestamp)
  else if timestamp < s.lastUpdateUs then (.rejected, s)
  else if timestamp = s.lastUpdateUs then
    -- a conflicting value at the same instant must not overwrite or recover
    (if s.value == newValue then .idempotent else .rejected, s)
  else (.updated, s.accept newValue timestamp)

def update [BEq T] (s : Signal T) (newValue : T) (timestamp : MonotonicTimestamp) :
    Bool × Signal T :=
  ((s.updateStatus newValue timestamp).1 ≠ .rejected, (s.updateStatus newValue timestamp).2)

def invalidate (s : Signal T) (timestamp : MonotonicTimestamp) : Bool × Signal T :=
  if s.hasValue ∧ timestamp ≤ s.lastUpdateUs then (false, s)
  else (true, { s with status := .unknown })

def setFreshnessTimeout (s : Signal T) (timeout : Option Microseconds) : Signal T :=
  { s with freshnessTimeoutUs := timeout }

def refresh (s : Signal T) (now : MonotonicTimestamp) : Signal T :=
  if s.status ≠ .valid ∨ now < s.lastUpdateUs then s
  else match s.freshnessTimeoutUs with
    | none => if s.lastUpdateUs < now then { s with status := .stale } else s
    | some timeout => if timeout < now - s.lastUpdateUs then { s with status := .stale } else s

/-- The age of the last value; a reader whose clock is behind sees age zero. -/
def age (s : Signal T) (now : MonotonicTimestamp) : Microseconds :=
  if s.lastUpdateUs ≤ now then now - s.lastUpdateUs else 0

def statusAt (s : Signal T) (now : MonotonicTimestamp) : Availability :=
  if !s.hasValue then .noData
  else if s.status = .unknown then .unavailable
  else match s.freshnessTimeoutUs with
    | none => .freshnessUnverified
    | some timeout => if s.age now ≤ timeout then .fresh else .stale

def snapshot (s : Signal T) (now : MonotonicTimestamp) (validation : ValidationStatus) :
    Reading T where
  value := if s.hasValue then some s.value else none
  availability := s.statusAt now
  validation := validation

/-- The mutating calls of the public surface. -/
inductive Call (T : Type*)
  | updateStatus (newValue : T) (timestamp : MonotonicTimestamp)
  | invalidate (timestamp : MonotonicTimestamp)
  | refresh (now : MonotonicTimestamp)
  | setFreshnessTimeout (timeout : Option Microseconds)

variable [BEq T]

def Call.run : Call T → Signal T → Signal T
  | .updateStatus v t, s => (s.updateStatus v t).2
  | .invalidate t, s => (s.invalidate t).2
  | .refresh now, s => s.refresh now
  | .setFreshnessTimeout timeout, s => s.setFreshnessTimeout timeout

def run (s : Signal T) (calls : List (Call T)) : Signal T := calls.foldl (fun s c => c.run s) s

@[simp] theorem run_nil (s : Signal T) : s.run [] = s := rfl

@[simp] theorem run_cons (s : Signal T) (c : Call T) (calls : List (Call T)) :
    s.run (c :: calls) = (c.run s).run calls := rfl

/-! ### Expiry -/

/-- The reader's clock has passed the last observation by more than the timeout; a
signal without a timeout is overdue from the next instant on. -/
def Overdue (s : Signal T) (now : MonotonicTimestamp) : Prop :=
  s.lastUpdateUs ≤ now ∧
    match s.freshnessTimeoutUs with
    | none => s.lastUpdateUs < now
    | some timeout => timeout < now - s.lastUpdateUs

omit [BEq T] in
/-- A refresh marks a valid signal stale when it is overdue, and does nothing else. -/
theorem refresh_of_overdue {s : Signal T} {now : MonotonicTimestamp} (hs : s.status = .valid)
    (h : s.Overdue now) : s.refresh now = { s with status := .stale } := by
  obtain ⟨hle, hexpired⟩ := h
  unfold refresh
  rw [if_neg (by simp [hs, BitVec.not_lt.mpr hle])]
  cases ht : s.freshnessTimeoutUs with
  | none =>
    rw [ht] at hexpired
    exact if_pos hexpired
  | some timeout =>
    rw [ht] at hexpired
    exact if_pos hexpired

omit [BEq T] in
theorem refresh_of_not_overdue {s : Signal T} {now : MonotonicTimestamp}
    (h : s.status = .valid → ¬s.Overdue now) : s.refresh now = s := by
  unfold refresh
  by_cases hskip : s.status ≠ .valid ∨ now < s.lastUpdateUs
  · rw [if_pos hskip]
  · rw [if_neg hskip]
    push Not at hskip
    have hn := h hskip.1
    cases ht : s.freshnessTimeoutUs with
    | none =>
      apply if_neg
      intro hlt
      exact hn ⟨BitVec.not_lt.mp hskip.2, by rw [ht]; exact hlt⟩
    | some timeout =>
      apply if_neg
      intro hlt
      exact hn ⟨BitVec.not_lt.mp hskip.2, by rw [ht]; exact hlt⟩

omit [BEq T] in
/-- A refresh touches the status only. -/
theorem refresh_eq (s : Signal T) (now : MonotonicTimestamp) :
    s.refresh now = { s with status := (s.refresh now).status } := by
  by_cases h : s.status = .valid ∧ s.Overdue now
  · rw [refresh_of_overdue h.1 h.2]
  · rw [refresh_of_not_overdue fun hs ho => h ⟨hs, ho⟩]

/-! ### Revival after an invalidation -/

omit [BEq T] in
/-- A signal of unknown status carries no actionable reading at any instant. -/
theorem statusAt_of_unknown {s : Signal T} (h : s.status = .unknown) (now : MonotonicTimestamp) :
    s.statusAt now = .unavailable ∨ s.statusAt now = .noData := by
  unfold statusAt
  rw [if_pos h]
  split
  · exact Or.inr rfl
  · exact Or.inl rfl

omit [BEq T] in
/-- A signal with a value and a known status is actionable at every instant. -/
theorem statusAt_of_known {s : Signal T} (hv : s.hasValue = true) (hs : s.status ≠ .unknown)
    (now : MonotonicTimestamp) :
    ¬(s.statusAt now = .unavailable ∨ s.statusAt now = .noData) := by
  unfold statusAt
  rw [if_neg (by simp [hv]), if_neg hs]
  cases s.freshnessTimeoutUs with
  | none => simp
  | some timeout => by_cases h : s.age now ≤ timeout <;> simp [h]

/-- An observation is late when a value was accepted at its instant or after. -/
def Late (s : Signal T) : Call T → Prop
  | .updateStatus _ t => s.hasValue = true ∧ t ≤ s.lastUpdateUs
  | _ => True

/-- A late observation changes nothing, whatever its value. -/
theorem updateStatus_of_late {s : Signal T} {v : T} {t : MonotonicTimestamp}
    (h : s.Late (.updateStatus v t)) : (s.updateStatus v t).2 = s := by
  obtain ⟨hv, ht⟩ := h
  unfold updateStatus
  rw [if_neg (by simp [hv])]
  split
  · rfl
  · rename_i hlt
    rw [if_pos (BitVec.le_antisymm ht (BitVec.not_lt.mp hlt))]

/-- Every other observation is accepted. -/
theorem updateStatus_of_not_late {s : Signal T} {v : T} {t : MonotonicTimestamp}
    (h : ¬s.Late (.updateStatus v t)) : (s.updateStatus v t).2 = s.accept v t := by
  unfold updateStatus
  by_cases hv : s.hasValue = true
  · have ht : s.lastUpdateUs < t := BitVec.not_le.mp fun hle => h ⟨hv, hle⟩
    rw [if_neg (by simp [hv]), if_neg (BitVec.not_lt.mpr (BitVec.le_of_lt ht)),
      if_neg (by rintro rfl; exact BitVec.lt_irrefl _ ht)]
  · rw [if_pos (by simpa using hv)]

/-- One call that brings no new observation leaves an unknown signal unknown and
its ordering data in place. -/
theorem run_of_late {s : Signal T} {c : Call T} (hs : s.status = .unknown) (hc : s.Late c) :
    (c.run s).status = .unknown ∧ (c.run s).Late = s.Late := by
  cases c with
  | updateStatus v t => rw [Call.run, updateStatus_of_late hc]; exact ⟨hs, rfl⟩
  | invalidate t =>
    rw [Call.run, invalidate]
    split_ifs
    · exact ⟨hs, rfl⟩
    · exact ⟨rfl, rfl⟩
  | refresh now =>
    have he : s.refresh now = s := by simp [refresh, hs]
    rw [Call.run, he]
    exact ⟨hs, rfl⟩
  | setFreshnessTimeout timeout => exact ⟨hs, rfl⟩

/-- While every observation is late, an unknown signal stays unknown. -/
theorem unknown_of_late {s : Signal T} {calls : List (Call T)} (hs : s.status = .unknown)
    (late : ∀ c ∈ calls, s.Late c) : (s.run calls).status = .unknown := by
  induction calls generalizing s with
  | nil => exact hs
  | cons c calls ih =>
    obtain ⟨hu, hl⟩ := run_of_late hs (late c List.mem_cons_self)
    exact ih hu fun c' hc => hl ▸ late c' (List.mem_cons_of_mem c hc)

/-- If an unknown signal is never actionable along a sequence of calls, then no
call of the sequence brought a new observation. -/
theorem late_of_unavailable {s : Signal T} {calls : List (Call T)} (hs : s.status = .unknown)
    (h : ∀ pre, pre <+: calls → ∀ now,
      (s.run pre).statusAt now = .unavailable ∨ (s.run pre).statusAt now = .noData) :
    ∀ c ∈ calls, s.Late c := by
  induction calls generalizing s with
  | nil => simp
  | cons c calls ih =>
    have hc : s.Late c := by
      by_contra hn
      have hone := h [c] (List.prefix_cons_inj c |>.mpr List.nil_prefix) 0
      cases c with
      | updateStatus v t =>
        simp only [run_cons, run_nil, Call.run, updateStatus_of_not_late hn] at hone
        exact statusAt_of_known (s := s.accept v t) rfl (by simp [accept]) 0 hone
      | _ => exact hn trivial
    obtain ⟨hu, hl⟩ := run_of_late hs hc
    have hrest := ih hu fun pre hp => h (c :: pre) (List.prefix_cons_inj c |>.mpr hp)
    intro c' hc'
    rcases List.mem_cons.mp hc' with rfl | hc'
    · exact hc
    · exact hl ▸ hrest c' hc'

/-- After an effective invalidation, a sequence of later calls keeps the signal
unavailable throughout exactly when each of its observations is late with respect
to the last accepted one. The instant of the invalidation itself plays no part:
an observation between the two instants makes the signal actionable again. -/
theorem invalidated_stays_unavailable_iff (s : Signal T) (tInv : MonotonicTimestamp)
    (effective : (s.invalidate tInv).1 = true) (later : List (Call T)) :
    (∀ pre, pre <+: later → ∀ now,
        ((s.invalidate tInv).2.run pre).statusAt now = .unavailable ∨
          ((s.invalidate tInv).2.run pre).statusAt now = .noData) ↔
      ∀ v t, Call.updateStatus v t ∈ later → s.hasValue = true ∧ t ≤ s.lastUpdateUs := by
  have he : (s.invalidate tInv).2 = { s with status := .unknown } := by
    unfold invalidate at effective ⊢
    split_ifs at effective ⊢
    rfl
  rw [he]
  constructor
  · intro h v t hm
    exact late_of_unavailable rfl h _ hm
  · intro h pre hp now
    refine statusAt_of_unknown (unknown_of_late rfl fun c hc => ?_) now
    cases c with
    | updateStatus v t => exact h v t (hp.subset hc)
    | _ => trivial

/-- A signal with one value accepted at instant 5 and a timeout of 100. -/
def accepted : Signal ℕ := (create .none (some 100)).run [.updateStatus 1 5]

/-- A duplicate of the last value leaves the invalidated signal unavailable. -/
theorem duplicate_stays_unavailable :
    ((accepted.invalidate 10).2.run [.updateStatus 1 5]).statusAt 20 = .unavailable ∨
      ((accepted.invalidate 10).2.run [.updateStatus 1 5]).statusAt 20 = .noData :=
  (invalidated_stays_unavailable_iff accepted 10 (by decide) [.updateStatus 1 5]).mpr
    (by simp; decide) _ (List.prefix_refl _) 20

/-- An observation at instant 7, older than the invalidation at 10, is accepted
and reported as fresh. -/
theorem older_observation_revives :
    (accepted.invalidate 10).1 = true ∧ (7 : MonotonicTimestamp) ≤ 10 ∧
      ((accepted.invalidate 10).2.run [.updateStatus 2 7]).statusAt 10 = .fresh := by
  decide

end Signal

end CanTelemetry.VehicleCore
