import CanTelemetry.VehicleCore.Signal

/-! The two views of freshness. `refresh` writes the legacy status, `status_at` and
`snapshot` compute theirs from the observation and the reader's clock. What a refresh
writes is invisible to the pure view and to every other result; and for a timeout that
stays as constructed the two views agree right after a refresh. -/

namespace CanTelemetry.VehicleCore.Signal

variable {T : Type*}

/-! ### Refreshes are invisible to the other calls -/

section Invisible

/-- The calls of the public surface, the pure views included. -/
inductive Request (T : Type*)
  | updateStatus (newValue : T) (timestamp : MonotonicTimestamp)
  | update (newValue : T) (timestamp : MonotonicTimestamp)
  | invalidate (timestamp : MonotonicTimestamp)
  | setFreshnessTimeout (timeout : Option Microseconds)
  | refresh (now : MonotonicTimestamp)
  | statusAt (now : MonotonicTimestamp)
  | snapshot (now : MonotonicTimestamp) (validation : ValidationStatus)

inductive Reply (T : Type*)
  | result (r : SignalUpdateResult)
  | changed (b : Bool)
  | availability (a : Availability)
  | reading (r : Reading T)

/-- What a call returns, nothing for a `void` one, and the signal it leaves. -/
def Request.perform [BEq T] : Request T → Signal T → Option (Reply T) × Signal T
  | .updateStatus v t, s => (some (.result (s.updateStatus v t).1), (s.updateStatus v t).2)
  | .update v t, s => (some (.changed (s.update v t).1), (s.update v t).2)
  | .invalidate t, s => (some (.changed (s.invalidate t).1), (s.invalidate t).2)
  | .setFreshnessTimeout timeout, s => (none, s.setFreshnessTimeout timeout)
  | .refresh now, s => (none, s.refresh now)
  | .statusAt now, s => (some (.availability (s.statusAt now)), s)
  | .snapshot now validation, s => (some (.reading (s.snapshot now validation)), s)

/-- The values returned along a sequence of calls. -/
def replies [BEq T] (s : Signal T) : List (Request T) → List (Reply T)
  | [] => []
  | r :: requests => (r.perform s).1.toList ++ (r.perform s).2.replies requests

/-- `kept` is left of `requests` when some of the refreshes are deleted. -/
inductive Thinned : List (Request T) → List (Request T) → Prop
  | nil : Thinned [] []
  | keep {requests kept : List (Request T)} (r : Request T) (rest : Thinned requests kept) :
      Thinned (r :: requests) (r :: kept)
  | drop {requests kept : List (Request T)} (now : MonotonicTimestamp)
      (rest : Thinned requests kept) : Thinned (.refresh now :: requests) kept

/-- Two signals that differ at most in valid against stale. -/
structure Alike (s s' : Signal T) : Prop where
  same : s' = { s with status := s'.status }
  known : s.status = .unknown ↔ s'.status = .unknown

namespace Alike

variable {s s' : Signal T}

theorem refl (s : Signal T) : Alike s s := ⟨rfl, Iff.rfl⟩

theorem symm (h : Alike s s') : Alike s' s :=
  ⟨by rw [h.same], h.known.symm⟩

theorem trans {s'' : Signal T} (h : Alike s s') (h' : Alike s' s'') : Alike s s'' :=
  ⟨by rw [h'.same, h.same], h.known.trans h'.known⟩

/-- A refresh is a move between alike signals. -/
theorem of_refresh (s : Signal T) (now : MonotonicTimestamp) : Alike s (s.refresh now) := by
  refine ⟨refresh_eq s now, ?_⟩
  by_cases h : s.status = .valid ∧ s.Overdue now
  · rw [refresh_of_overdue h.1 h.2, h.1]
    simp
  · rw [refresh_of_not_overdue fun hs ho => h ⟨hs, ho⟩]

theorem statusAt_eq (h : Alike s s') (now : MonotonicTimestamp) :
    s.statusAt now = s'.statusAt now := by
  have hu : (s.status = .unknown) = (s'.status = .unknown) := propext h.known
  rw [h.same]
  unfold statusAt
  simp only [hu]
  rfl

theorem snapshot_eq (h : Alike s s') (now : MonotonicTimestamp) (validation : ValidationStatus) :
    s.snapshot now validation = s'.snapshot now validation := by
  unfold snapshot
  rw [h.statusAt_eq now, h.same]

theorem invalidate (h : Alike s s') (t : MonotonicTimestamp) :
    (s.invalidate t).1 = (s'.invalidate t).1 ∧ Alike (s.invalidate t).2 (s'.invalidate t).2 := by
  have hs := h.same
  unfold Signal.invalidate
  rw [show s'.hasValue = s.hasValue by rw [hs], show s'.lastUpdateUs = s.lastUpdateUs by rw [hs]]
  split_ifs
  · exact ⟨rfl, h⟩
  · exact ⟨rfl, by rw [hs], Iff.rfl⟩

theorem setFreshnessTimeout (h : Alike s s') (timeout : Option Microseconds) :
    Alike (s.setFreshnessTimeout timeout) (s'.setFreshnessTimeout timeout) :=
  ⟨by rw [h.same]; rfl, h.known⟩

variable [BEq T]

theorem updateStatus (h : Alike s s') (v : T) (t : MonotonicTimestamp) :
    (s.updateStatus v t).1 = (s'.updateStatus v t).1 ∧
      Alike (s.updateStatus v t).2 (s'.updateStatus v t).2 := by
  have hs := h.same
  have haccept : Alike (s.accept v t) (s'.accept v t) := ⟨by rw [hs]; rfl, Iff.rfl⟩
  unfold Signal.updateStatus
  rw [show s'.hasValue = s.hasValue by rw [hs], show s'.lastUpdateUs = s.lastUpdateUs by rw [hs],
    show s'.value = s.value by rw [hs]]
  split_ifs
  · exact ⟨rfl, haccept⟩
  · exact ⟨rfl, h⟩
  · exact ⟨rfl, h⟩
  · exact ⟨rfl, h⟩
  · exact ⟨rfl, haccept⟩

/-- Alike signals give the same reply to every call and stay alike. -/
theorem perform (h : Alike s s') (r : Request T) :
    (r.perform s).1 = (r.perform s').1 ∧ Alike (r.perform s).2 (r.perform s').2 := by
  cases r with
  | updateStatus v t =>
    obtain ⟨hr, ha⟩ := h.updateStatus v t
    simp only [Request.perform, hr]
    exact ⟨trivial, ha⟩
  | update v t =>
    obtain ⟨hr, ha⟩ := h.updateStatus v t
    simp only [Request.perform, update, hr]
    exact ⟨trivial, ha⟩
  | invalidate t =>
    obtain ⟨hr, ha⟩ := h.invalidate t
    simp only [Request.perform, hr]
    exact ⟨trivial, ha⟩
  | setFreshnessTimeout timeout => exact ⟨rfl, h.setFreshnessTimeout timeout⟩
  | refresh now =>
    exact ⟨rfl, (of_refresh s now).symm.trans (h.trans (of_refresh s' now))⟩
  | statusAt now =>
    simp only [Request.perform, h.statusAt_eq now]
    exact ⟨trivial, h⟩
  | snapshot now validation =>
    simp only [Request.perform, h.snapshot_eq now validation]
    exact ⟨trivial, h⟩

end Alike

variable [BEq T]

theorem replies_of_alike {requests kept : List (Request T)} (thinned : Thinned requests kept)
    {s s' : Signal T} (h : Alike s s') : s.replies requests = s'.replies kept := by
  induction thinned generalizing s s' with
  | nil => rfl
  | keep r _ ih =>
    obtain ⟨hr, ha⟩ := h.perform r
    rw [replies, replies, hr, ih ha]
  | drop now _ ih =>
    rw [replies]
    exact ih ((Alike.of_refresh s now).symm.trans h)

/-- Deleting refreshes from a sequence of calls changes no value that the other calls
return. -/
theorem replies_of_thinned (s : Signal T) {requests kept : List (Request T)}
    (thinned : Thinned requests kept) : s.replies requests = s.replies kept :=
  replies_of_alike thinned (Alike.refl s)

/-- A refresh that marks the value stale, deleted before a duplicate and two reads. -/
theorem replies_without_refresh :
    (create .none (some 100) : Signal ℕ).replies
        [.updateStatus 1 5, .refresh 200, .update 1 5, .statusAt 50, .snapshot 300 .observed] =
      (create .none (some 100) : Signal ℕ).replies
        [.updateStatus 1 5, .update 1 5, .statusAt 50, .snapshot 300 .observed] :=
  replies_of_thinned _ (.keep _ (.drop 200 (.keep _ (.keep _ (.keep _ .nil)))))

end Invisible

/-! ### Agreement of the two views after a refresh -/

section Agreement

def Call.refreshInstant : Call T → Option MonotonicTimestamp
  | .refresh now => some now
  | _ => none

/-- The instants of the refreshes, in the order of the calls. -/
def refreshInstants (calls : List (Call T)) : List MonotonicTimestamp :=
  calls.filterMap Call.refreshInstant

/-- What holds of a signal that was last refreshed at `reader` or before: a known status
needs a value, and a stored stale status is justified for that reader and so for every
later one. -/
structure Settled (timeout : Microseconds) (reader : MonotonicTimestamp) (s : Signal T) :
    Prop where
  unchanged : s.freshnessTimeoutUs = some timeout
  hasValue : s.status ≠ .unknown → s.hasValue = true
  justified : s.status = .stale → s.Overdue reader

theorem Overdue.mono {s : Signal T} {reader now : MonotonicTimestamp} {timeout : Microseconds}
    (ht : s.freshnessTimeoutUs = some timeout) (h : s.Overdue reader) (hle : reader ≤ now) :
    s.Overdue now := by
  obtain ⟨hlast, hexpired⟩ := h
  rw [ht] at hexpired
  refine ⟨by bv_omega, ?_⟩
  rw [ht]
  dsimp only at hexpired ⊢
  bv_omega

/-- The clamped age exceeds the timeout exactly when the value is overdue. -/
theorem age_le_iff {s : Signal T} {timeout : Microseconds} (now : MonotonicTimestamp)
    (ht : s.freshnessTimeoutUs = some timeout) : s.age now ≤ timeout ↔ ¬s.Overdue now := by
  unfold age Overdue
  rw [ht]
  dsimp only
  by_cases hle : s.lastUpdateUs ≤ now
  · rw [if_pos hle]
    simp [hle, BitVec.not_lt]
  · rw [if_neg hle]
    simp only [hle, false_and, not_false_eq_true, iff_true]
    bv_omega

theorem Overdue.of_status {s : Signal T} {status : SignalStatus} {now : MonotonicTimestamp}
    (h : s.Overdue now) : ({ s with status := status } : Signal T).Overdue now := h

namespace Settled

variable {s : Signal T} {timeout : Microseconds} {reader now : MonotonicTimestamp}

theorem create [Inhabited T] (unit : SignalUnit) (timeout : Microseconds)
    (reader : MonotonicTimestamp) :
    (Signal.create unit (some timeout) : Signal T).Settled timeout reader where
  unchanged := rfl
  hasValue h := absurd rfl h
  justified h := by cases h

theorem updateStatus [BEq T] (h : s.Settled timeout reader) (v : T) (t : MonotonicTimestamp) :
    (s.updateStatus v t).2.Settled timeout reader := by
  by_cases hlate : s.Late (.updateStatus v t)
  · rw [updateStatus_of_late hlate]
    exact h
  · rw [updateStatus_of_not_late hlate]
    refine ⟨h.unchanged, ?_, ?_⟩
    · intro _
      rfl
    · intro hs
      cases hs

theorem invalidate (h : s.Settled timeout reader) (t : MonotonicTimestamp) :
    (s.invalidate t).2.Settled timeout reader := by
  unfold Signal.invalidate
  split_ifs
  · exact h
  · refine ⟨h.unchanged, ?_, ?_⟩
    · intro hs
      exact absurd rfl hs
    · intro hs
      cases hs

/-- The reader of a refresh becomes the latest reader. -/
theorem refresh (h : s.Settled timeout reader) (hle : reader ≤ now) :
    (s.refresh now).Settled timeout now := by
  by_cases hs : s.status = .valid ∧ s.Overdue now
  · rw [refresh_of_overdue hs.1 hs.2]
    refine ⟨h.unchanged, ?_, ?_⟩
    · intro _
      exact h.hasValue (by simp [hs.1])
    · intro _
      exact hs.2.of_status
  · rw [refresh_of_not_overdue fun hv ho => hs ⟨hv, ho⟩]
    refine ⟨h.unchanged, h.hasValue, ?_⟩
    intro hstale
    exact (h.justified hstale).mono h.unchanged hle

/-- What the pure view says of a settled signal with a known status. -/
theorem statusAt_of_known (h : s.Settled timeout reader) (hs : s.status ≠ .unknown) :
    s.statusAt now = if s.age now ≤ timeout then .fresh else .stale := by
  unfold statusAt
  rw [if_neg (by simp [h.hasValue hs]), if_neg hs, h.unchanged]

/-- The two views agree when a valid status is not overdue. -/
theorem agrees (h : s.Settled timeout now) (hv : s.status = .valid → ¬s.Overdue now) :
    (s.isValid = true ↔ s.statusAt now = .fresh) ∧
      (s.isStale = true ↔ s.statusAt now = .stale) ∧
      (s.isUnknown = true ↔ s.statusAt now = .noData ∨ s.statusAt now = .unavailable) := by
  unfold isValid isStale isUnknown
  cases hs : s.status with
  | unknown =>
    rcases statusAt_of_unknown hs now with ha | ha
    · simp [ha]
    · simp [ha]
  | valid =>
    rw [h.statusAt_of_known (by simp [hs]), if_pos ((age_le_iff now h.unchanged).mpr (hv hs))]
    simp
  | stale =>
    have hage : ¬s.age now ≤ timeout := by
      rw [age_le_iff now h.unchanged, not_not]
      exact h.justified hs
    rw [h.statusAt_of_known (by simp [hs]), if_neg hage]
    simp

/-- A run of calls that ends with a refresh leaves the signal settled for its instant. -/
theorem run_refresh [BEq T] {calls : List (Call T)} (h : s.Settled timeout reader)
    (unchanged : ∀ x, Call.setFreshnessTimeout x ∉ calls)
    (ordered : (reader :: refreshInstants (calls ++ [.refresh now])).Pairwise (· ≤ ·)) :
    (s.run (calls ++ [.refresh now])).Settled timeout now := by
  induction calls generalizing s reader with
  | nil =>
    apply h.refresh
    exact List.rel_of_pairwise_cons ordered (by simp [refreshInstants, Call.refreshInstant])
  | cons c calls ih =>
    have hrest : ∀ x, Call.setFreshnessTimeout x ∉ calls := by
      intro x hx
      exact unchanged x (List.mem_cons_of_mem c hx)
    rw [List.cons_append, run_cons]
    cases c with
    | updateStatus v t => exact ih (h.updateStatus v t) hrest ordered
    | invalidate t => exact ih (h.invalidate t) hrest ordered
    | refresh earlier =>
      have hle : reader ≤ earlier :=
        List.rel_of_pairwise_cons ordered (by simp [refreshInstants, Call.refreshInstant])
      exact ih (h.refresh hle) hrest ordered.of_cons
    | setFreshnessTimeout x => exact absurd List.mem_cons_self (unchanged x)

end Settled

/-- A signal just refreshed is not both valid and overdue. -/
theorem not_overdue_of_refresh {s : Signal T} {now : MonotonicTimestamp}
    (hv : (s.refresh now).status = .valid) : ¬(s.refresh now).Overdue now := by
  by_cases hs : s.status = .valid ∧ s.Overdue now
  · rw [refresh_of_overdue hs.1 hs.2] at hv
    cases hv
  · have he : s.refresh now = s := refresh_of_not_overdue fun hv ho => hs ⟨hv, ho⟩
    rw [he] at hv ⊢
    intro ho
    exact hs ⟨hv, ho⟩

variable [BEq T]

theorem run_concat (s : Signal T) (calls : List (Call T)) (c : Call T) :
    s.run (calls ++ [c]) = c.run (s.run calls) := by
  simp [run]

/-- For a timeout that stays as constructed and refreshes at non-decreasing instants,
the legacy status and the pure view agree right after every refresh. -/
theorem views_agree_after_refresh [Inhabited T] (unit : SignalUnit) (timeout : Microseconds)
    (calls : List (Call T)) (unchanged : ∀ x, Call.setFreshnessTimeout x ∉ calls)
    (ordered : (refreshInstants calls).Pairwise (· ≤ ·)) (earlier : List (Call T))
    (now : MonotonicTimestamp) (reached : earlier ++ [.refresh now] <+: calls) :
    let s : Signal T := (create unit (some timeout)).run (earlier ++ [.refresh now])
    (s.isValid = true ↔ s.statusAt now = .fresh) ∧
      (s.isStale = true ↔ s.statusAt now = .stale) ∧
      (s.isUnknown = true ↔ s.statusAt now = .noData ∨ s.statusAt now = .unavailable) := by
  obtain ⟨later, rfl⟩ := reached
  have hinstants : (0 :: refreshInstants (earlier ++ [.refresh now])).Pairwise (· ≤ ·) := by
    rw [refreshInstants, List.filterMap_append, List.pairwise_append] at ordered
    refine List.pairwise_cons.mpr ⟨?_, ordered.1⟩
    intro t _
    bv_omega
  have hsettled := (Settled.create (T := T) unit timeout 0).run_refresh
    (fun x hx => unchanged x (List.mem_append_left _ (List.mem_append_left _ hx))) hinstants
  intro s
  apply hsettled.agrees
  rw [run_concat]
  exact not_overdue_of_refresh

/-- A run that goes stale, stays stale for a duplicate, recovers and is invalidated. -/
theorem views_agree_after_recovery :
    let s : Signal ℕ := (create .none (some 100)).run
      [.updateStatus 1 5, .refresh 200, .updateStatus 1 5, .updateStatus 2 250, .refresh 210]
    (s.isValid = true ↔ s.statusAt 210 = .fresh) ∧
      (s.isStale = true ↔ s.statusAt 210 = .stale) ∧
      (s.isUnknown = true ↔ s.statusAt 210 = .noData ∨ s.statusAt 210 = .unavailable) :=
  views_agree_after_refresh .none 100
    [.updateStatus 1 5, .refresh 200, .updateStatus 1 5, .updateStatus 2 250, .refresh 210,
      .invalidate 300]
    (by simp) (by decide)
    [.updateStatus 1 5, .refresh 200, .updateStatus 1 5, .updateStatus 2 250] 210 (by simp)

end Agreement

end CanTelemetry.VehicleCore.Signal
