import CanTelemetry.Foundation.LastWriter
import CanTelemetry.VehicleCore.Signal

/-! A signal as a last-writer-wins register. Only `update_status` writes to it, with
its timestamp as the stamp; invalidations, refreshes and timeouts change how the
stored observation is read but neither the observation nor the order of the writes. -/

namespace CanTelemetry.VehicleCore.Signal

open LastWriter

variable {T : Type*}

/-- An observation: a value and its timestamp. -/
abbrev Observation (T : Type*) := T × MonotonicTimestamp

def instant (w : Observation T) : ℕ := w.2.toNat

/-- The observation held, if one was accepted. -/
def observed (s : Signal T) : Option (Observation T) :=
  if s.hasValue then some (s.value, s.lastUpdateUs) else none

def Call.observation : Call T → Option (Observation T)
  | .updateStatus v t => some (v, t)
  | _ => none

/-- The arguments of the `update_status` calls, in the order of the calls. -/
def observations (calls : List (Call T)) : List (Observation T) :=
  calls.filterMap Call.observation

theorem observed_eq_some {s : Signal T} {w : Observation T} :
    s.observed = some w ↔ s.hasValue = true ∧ s.value = w.1 ∧ s.lastUpdateUs = w.2 := by
  unfold observed
  by_cases hv : s.hasValue = true
  · simp [hv, Prod.ext_iff]
  · simp [hv]

theorem observed_eq_none {s : Signal T} : s.observed = none ↔ s.hasValue = false := by
  unfold observed
  by_cases hv : s.hasValue = true
  · simp [hv]
  · simp [hv]

theorem observed_accept (s : Signal T) (v : T) (t : MonotonicTimestamp) :
    (s.accept v t).observed = some (v, t) := rfl

theorem observed_invalidate (s : Signal T) (t : MonotonicTimestamp) :
    (s.invalidate t).2.observed = s.observed := by
  unfold invalidate
  split_ifs
  · rfl
  · rfl

theorem observed_refresh (s : Signal T) (now : MonotonicTimestamp) :
    (s.refresh now).observed = s.observed := by
  rw [refresh_eq]
  rfl

/-- A signal without data holds no observation and takes whatever comes. -/
theorem late_iff {s : Signal T} {v : T} {t : MonotonicTimestamp} :
    s.Late (.updateStatus v t) ↔ ∃ w, s.observed = some w ∧ instant (v, t) ≤ instant w := by
  constructor
  · rintro ⟨hv, ht⟩
    exact ⟨(s.value, s.lastUpdateUs), observed_eq_some.mpr ⟨hv, rfl, rfl⟩, ht⟩
  · rintro ⟨w, hw, ht⟩
    obtain ⟨hv, -, hlast⟩ := observed_eq_some.mp hw
    refine ⟨hv, ?_⟩
    rw [hlast]
    exact ht

variable [BEq T]

/-- An update is a write to the register. -/
theorem observed_updateStatus (s : Signal T) (v : T) (t : MonotonicTimestamp) :
    (s.updateStatus v t).2.observed = write instant s.observed (v, t) := by
  by_cases hlate : s.Late (.updateStatus v t)
  · rw [updateStatus_of_late hlate]
    obtain ⟨w, hw, ht⟩ := late_iff.mp hlate
    rw [hw, write, if_neg (not_lt.mpr ht)]
  · rw [updateStatus_of_not_late hlate, observed_accept]
    cases hw : s.observed with
    | none => rfl
    | some w =>
      have hlt : instant w < instant (v, t) :=
        not_le.mp fun hle => hlate (late_iff.mpr ⟨w, hw, hle⟩)
      rw [write, if_pos hlt]

/-- The signal refines the register: a run of calls writes the observations of the
run, whatever calls stand between them. -/
theorem observed_run (s : Signal T) (calls : List (Call T)) :
    (s.run calls).observed = (observations calls).foldl (write instant) s.observed := by
  induction calls generalizing s with
  | nil => rfl
  | cons c calls ih =>
    rw [run_cons, ih]
    cases c with
    | updateStatus v t =>
      rw [Call.run, observed_updateStatus]
      rfl
    | invalidate t =>
      rw [Call.run, observed_invalidate]
      rfl
    | refresh now =>
      rw [Call.run, observed_refresh]
      rfl
    | setFreshnessTimeout timeout => rfl

theorem observed_run_create [Inhabited T] (unit : SignalUnit) (timeout : Option Microseconds)
    (calls : List (Call T)) :
    ((create unit timeout).run calls).observed = written instant (observations calls) :=
  observed_run _ calls

/-! ### Results of an update -/

theorem updateStatus_updated_iff (s : Signal T) (v : T) (t : MonotonicTimestamp) :
    (s.updateStatus v t).1 = .updated ↔ ¬s.Late (.updateStatus v t) := by
  unfold updateStatus Late
  by_cases hv : s.hasValue = true
  · by_cases hlt : t < s.lastUpdateUs
    · simp [hv, hlt, BitVec.le_of_lt hlt]
    · by_cases heq : t = s.lastUpdateUs
      · cases s.value == v <;> simp [hv, heq]
      · simp only [hv, hlt, heq, Bool.not_true, Bool.false_eq_true, ite_false, true_and, true_iff]
        intro hle
        exact heq (BitVec.le_antisymm hle (BitVec.not_lt.mp hlt))
  · simp [hv]

theorem updateStatus_idempotent_iff (s : Signal T) (v : T) (t : MonotonicTimestamp) :
    (s.updateStatus v t).1 = .idempotent ↔
      s.hasValue = true ∧ t = s.lastUpdateUs ∧ (s.value == v) = true := by
  unfold updateStatus
  by_cases hv : s.hasValue = true
  · by_cases hlt : t < s.lastUpdateUs
    · have hne : t ≠ s.lastUpdateUs := by
        rintro rfl
        exact BitVec.lt_irrefl _ hlt
      simp [hv, hlt, hne]
    · by_cases heq : t = s.lastUpdateUs
      · cases s.value == v <;> simp [hv, heq]
      · simp [hv, hlt, heq]
  · simp [hv]

/-- Every update that is not accepted leaves the whole signal as it was. -/
theorem updateStatus_of_not_updated {s : Signal T} {v : T} {t : MonotonicTimestamp}
    (h : (s.updateStatus v t).1 ≠ .updated) : (s.updateStatus v t).2 = s := by
  rw [Ne, updateStatus_updated_iff, not_not] at h
  exact updateStatus_of_late h

/-! ### The register law -/

/-- A call that is no update leaves the stored value and its timestamp alone. -/
theorem run_of_no_observation {s : Signal T} {calls : List (Call T)}
    (h : observations calls = []) :
    (s.run calls).value = s.value ∧ (s.run calls).lastUpdateUs = s.lastUpdateUs := by
  induction calls generalizing s with
  | nil => exact ⟨rfl, rfl⟩
  | cons c calls ih =>
    rw [run_cons]
    cases c with
    | updateStatus v t => cases h
    | invalidate t =>
      rw [Call.run, (ih h).1, (ih h).2]
      unfold invalidate
      split_ifs
      · exact ⟨rfl, rfl⟩
      · exact ⟨rfl, rfl⟩
    | refresh now =>
      rw [Call.run, (ih h).1, (ih h).2, refresh_eq]
      exact ⟨rfl, rfl⟩
    | setFreshnessTimeout timeout =>
      rw [Call.run, (ih h).1, (ih h).2]
      exact ⟨rfl, rfl⟩

section Fresh

variable [Inhabited T] (unit : SignalUnit) (timeout : Option Microseconds)

/-- What a fresh signal holds after a run with at least one observation. -/
theorem run_create_firstLatest {calls : List (Call T)} (some_update : observations calls ≠ []) :
    ((create unit timeout).run calls).hasValue = true ∧
      FirstLatest instant (observations calls)
        (((create unit timeout).run calls).value,
          ((create unit timeout).run calls).lastUpdateUs) := by
  rcases written_firstLatest instant (observations calls) with ⟨hnil, -⟩ | ⟨w, hw, hl⟩
  · exact absurd hnil some_update
  · rw [← observed_run_create unit timeout] at hw
    obtain ⟨hv, hvalue, hlast⟩ := observed_eq_some.mp hw
    rw [hvalue, hlast]
    exact ⟨hv, hl⟩

/-- A fresh signal has a value as soon as an observation has been made. -/
theorem run_create_hasValue_iff (calls : List (Call T)) :
    ((create unit timeout).run calls).hasValue = true ↔ observations calls ≠ [] := by
  constructor
  · intro hv hnil
    have hnone := observed_run_create unit timeout calls
    rw [hnil, written_nil, observed_eq_none, hv] at hnone
    cases hnone
  · intro h
    exact (run_create_firstLatest unit timeout h).1

/-- An observation is late when one of its instant or of a later one was made. -/
theorem run_create_late_iff (calls : List (Call T)) (v : T) (t : MonotonicTimestamp) :
    ((create unit timeout).run calls).Late (.updateStatus v t) ↔
      ∃ w ∈ observations calls, t ≤ w.2 := by
  constructor
  · rintro ⟨hv, ht⟩
    have hne := (run_create_hasValue_iff unit timeout calls).mp hv
    exact ⟨_, (run_create_firstLatest unit timeout hne).2.mem, ht⟩
  · rintro ⟨w, hw, ht⟩
    obtain ⟨hv, hlatest⟩ := run_create_firstLatest unit timeout (List.ne_nil_of_mem hw)
    exact ⟨hv, le_trans (BitVec.le_def.mp ht) (hlatest.le w hw)⟩

theorem run_create_result (calls : List (Call T)) (v : T) (t : MonotonicTimestamp) :
    (((create unit timeout).run calls).updateStatus v t).1 =
      if ∀ w ∈ observations calls, w.2 < t then .updated
      else if t = ((create unit timeout).run calls).lastUpdateUs ∧
          (((create unit timeout).run calls).value == v) = true then .idempotent
      else .rejected := by
  have hlater : (∀ w ∈ observations calls, w.2 < t) ↔
      ¬((create unit timeout).run calls).Late (.updateStatus v t) := by
    rw [run_create_late_iff]
    push Not
    simp only [BitVec.not_le]
  by_cases hlate : ((create unit timeout).run calls).Late (.updateStatus v t)
  · rw [if_neg fun h => hlater.mp h hlate]
    split_ifs with hsame
    · exact (updateStatus_idempotent_iff _ v t).mpr ⟨hlate.1, hsame⟩
    · have hupdated := mt (updateStatus_updated_iff _ v t).mp (not_not.mpr hlate)
      have hidempotent := mt (updateStatus_idempotent_iff _ v t).mp fun h => hsame h.2
      cases hr : (((create unit timeout).run calls).updateStatus v t).1 with
      | rejected => rfl
      | idempotent => exact absurd hr hidempotent
      | updated => exact absurd hr hupdated
  · rw [if_pos (hlater.mpr hlate)]
    exact (updateStatus_updated_iff _ v t).mpr hlate

/-- Observations of distinct timestamps end in the same reading in every order. -/
theorem run_create_perm {calls calls' : List (Call T)} (unit' : SignalUnit)
    (timeout' : Option Microseconds) (perm : (observations calls).Perm (observations calls'))
    (distinct : ((observations calls).map Prod.snd).Nodup) :
    ((create unit timeout).run calls).hasValue = ((create unit' timeout').run calls').hasValue ∧
      ((create unit timeout).run calls).value = ((create unit' timeout').run calls').value ∧
      ((create unit timeout).run calls).lastUpdateUs =
        ((create unit' timeout').run calls').lastUpdateUs := by
  have hinstants : ((observations calls).map instant).Nodup := by
    have hmap : (observations calls).map instant =
        ((observations calls).map Prod.snd).map BitVec.toNat := by
      rw [List.map_map]
      rfl
    rw [hmap]
    exact distinct.map fun a b => BitVec.eq_of_toNat_eq
  have hsame : ((create unit timeout).run calls).observed =
      ((create unit' timeout').run calls').observed := by
    rw [observed_run_create, observed_run_create]
    exact written_eq_of_perm hinstants perm
  cases hw : ((create unit timeout).run calls).observed with
  | none =>
    have hv := observed_eq_none.mp hw
    have hv' := observed_eq_none.mp (hsame ▸ hw)
    have hnil : observations calls = [] := by
      by_contra hne
      rw [(run_create_hasValue_iff unit timeout calls).mpr hne] at hv
      cases hv
    have hnil' : observations calls' = [] := List.nil_perm.mp (hnil ▸ perm)
    rw [(run_of_no_observation hnil).1, (run_of_no_observation hnil).2,
      (run_of_no_observation hnil').1, (run_of_no_observation hnil').2]
    exact ⟨hv.trans hv'.symm, rfl, rfl⟩
  | some w =>
    obtain ⟨hv, hvalue, hlast⟩ := observed_eq_some.mp hw
    obtain ⟨hv', hvalue', hlast'⟩ := observed_eq_some.mp (hsame ▸ hw)
    exact ⟨hv.trans hv'.symm, hvalue.trans hvalue'.symm, hlast.trans hlast'.symm⟩

end Fresh

/-- A fresh signal is a last-writer-wins register. It holds the first observation of
the greatest timestamp; an update is accepted exactly when its timestamp exceeds all
earlier ones, is idempotent exactly when it repeats the stored observation, and
otherwise is rejected, and only an accepted one changes a field; and observations of
distinct timestamps end in the same reading in every order of arrival, whatever calls
stand between them. -/
theorem last_writer_wins [Inhabited T] (unit : SignalUnit) (timeout : Option Microseconds)
    (calls : List (Call T)) :
    (observations calls ≠ [] →
      ((create unit timeout).run calls).hasValue = true ∧
      (∀ w ∈ observations calls, w.2 ≤ ((create unit timeout).run calls).lastUpdateUs) ∧
      ∃ before after,
        observations calls = before ++
          (((create unit timeout).run calls).value,
            ((create unit timeout).run calls).lastUpdateUs) :: after ∧
        ∀ w ∈ before, w.2 < ((create unit timeout).run calls).lastUpdateUs) ∧
    (∀ v t,
      (((create unit timeout).run calls).updateStatus v t).1 =
        (if ∀ w ∈ observations calls, w.2 < t then .updated
        else if t = ((create unit timeout).run calls).lastUpdateUs ∧
            (((create unit timeout).run calls).value == v) = true then .idempotent
        else .rejected) ∧
      ((((create unit timeout).run calls).updateStatus v t).1 ≠ .updated →
        (((create unit timeout).run calls).updateStatus v t).2 =
          (create unit timeout).run calls)) ∧
    ∀ unit' timeout' (calls' : List (Call T)),
      (observations calls).Perm (observations calls') →
      ((observations calls).map Prod.snd).Nodup →
      ((create unit timeout).run calls).hasValue = ((create unit' timeout').run calls').hasValue ∧
      ((create unit timeout).run calls).value = ((create unit' timeout').run calls').value ∧
      ((create unit timeout).run calls).lastUpdateUs =
        ((create unit' timeout').run calls').lastUpdateUs := by
  refine ⟨?latest, ?results, ?orders⟩
  case latest =>
    intro hne
    obtain ⟨hv, hlatest⟩ := run_create_firstLatest unit timeout hne
    have hle := hlatest.le
    obtain ⟨before, after, hcalls, hbefore, -⟩ := hlatest
    exact ⟨hv, hle, before, after, hcalls, hbefore⟩
  case results =>
    intro v t
    exact ⟨run_create_result unit timeout calls v t, updateStatus_of_not_updated⟩
  case orders =>
    intro unit' timeout' calls' perm distinct
    exact run_create_perm unit timeout unit' timeout' perm distinct

end CanTelemetry.VehicleCore.Signal
