import CanTelemetry.Foundation.Execution
import Mathlib.Algebra.Group.Basic
import Mathlib.Algebra.Group.Hom.Defs
import Mathlib.Algebra.GroupWithZero.Nat

/-! Sums along a run. What every step contributes is added up in a commutative monoid, so
that the same rule serves numbers of events and counters that wrap. -/

namespace CanTelemetry.Execution

variable {σ κ M : Type*} [AddCommMonoid M] {next : σ → κ → Option σ} {s t u : σ} {k : κ}
  {ks ls : List κ}

/-- The sum of the contributions of a schedule's steps. -/
def total (next : σ → κ → Option σ) (amount : σ → κ → M) (s : σ) : List κ → M
  | [] => 0
  | k :: ks => amount s k + ((next s k).map fun t => total next amount t ks).getD 0

@[simp] theorem total_nil (amount : σ → κ → M) (s : σ) : total next amount s [] = 0 := rfl

theorem total_cons {amount : σ → κ → M} (step : next s k = some t) (ks : List κ) :
    total next amount s (k :: ks) = amount s k + total next amount t ks := by
  simp [total, step]

theorem total_single (amount : σ → κ → M) (s : σ) (k : κ) :
    total next amount s [k] = amount s k := by
  simp only [total]
  cases next s k <;> simp

theorem total_concat {amount : σ → κ → M} (run : exec next s ks = some t) (k : κ) :
    total next amount s (ks ++ [k]) = total next amount s ks + amount t k := by
  induction ks generalizing s with
  | nil =>
    obtain rfl := Option.some.inj run
    cases h : next s k <;> simp [total, h]
  | cons k' ks ih =>
    obtain ⟨u, hu, run⟩ := exec_cons_eq_some.mp run
    rw [List.cons_append, total_cons hu, total_cons hu, ih run, add_assoc]

theorem total_append {amount : σ → κ → M} (first : exec next s ks = some t) (ls : List κ) :
    total next amount s (ks ++ ls) = total next amount s ks + total next amount t ls := by
  induction ks generalizing s with
  | nil =>
    obtain rfl := Option.some.inj first
    exact (zero_add _).symm
  | cons k ks ih =>
    obtain ⟨u, hu, first⟩ := exec_cons_eq_some.mp first
    rw [List.cons_append, total_cons hu, total_cons hu, ih first, add_assoc]

/-- A run in which no step contributes anything. -/
theorem total_eq_zero {amount : σ → κ → M} (nothing : ∀ k ∈ ks, ∀ s, amount s k = 0) (s : σ) :
    total next amount s ks = 0 := by
  induction ks generalizing s with
  | nil => rfl
  | cons k ks ih =>
    have rest := ih fun k mem => nothing k (List.mem_cons_of_mem _ mem)
    cases h : next s k with
    | none => simp [total, h, nothing k List.mem_cons_self s]
    | some t => rw [total_cons h, nothing k List.mem_cons_self s, rest t, add_zero]

/-- A run in which an invariant keeps every step from contributing anything. -/
theorem total_eq_zero_of {P : σ → Prop} {cond : σ → κ → Bool} {amount : σ → κ → M}
    (step : ∀ s k t, P s → cond s k = true → next s k = some t → P t ∧ amount s k = 0)
    (start : P s) (run : exec (guarded cond next) s ks = some t) :
    total next amount s ks = 0 := by
  induction ks generalizing s with
  | nil => rfl
  | cons k ks ih =>
    obtain ⟨u, first, run⟩ := exec_cons_eq_some.mp run
    obtain ⟨allowed, first⟩ := guarded_eq_some.mp first
    obtain ⟨keeps, nothing⟩ := step s k u start allowed first
    rw [total_cons first, nothing, zero_add, ih keeps run]

theorem total_map {N : Type*} [AddCommMonoid N] (f : M →+ N) (amount : σ → κ → M) (s : σ)
    (ks : List κ) : f (total next amount s ks) = total next (fun s k => f (amount s k)) s ks := by
  induction ks generalizing s with
  | nil => exact f.map_zero
  | cons k ks ih =>
    cases h : next s k with
    | none => simp [total, h]
    | some t => rw [total_cons h, total_cons h, f.map_add, ih]

theorem total_add (amount amount' : σ → κ → M) (s : σ) (ks : List κ) :
    total next (fun s k => amount s k + amount' s k) s ks =
      total next amount s ks + total next amount' s ks := by
  induction ks generalizing s with
  | nil => exact (add_zero 0).symm
  | cons k ks ih =>
    cases h : next s k with
    | none => simp [total, h]
    | some t =>
      rw [total_cons h, total_cons h, total_cons h, ih]
      exact add_add_add_comm _ _ _ _

/-- A run none of whose steps fails a further condition is a run under that condition too. -/
theorem exec_guarded_of_total {cond cond' : σ → κ → Bool}
    (run : exec (guarded cond next) s ks = some t)
    (none : total next (fun s k => if cond' s k then 0 else 1) s ks = 0) :
    exec (guarded (fun s k => cond s k && cond' s k) next) s ks = some t := by
  induction ks generalizing s with
  | nil => exact run
  | cons k ks ih =>
    obtain ⟨u, step, run⟩ := exec_cons_eq_some.mp run
    obtain ⟨allowed, step⟩ := guarded_eq_some.mp step
    rw [total_cons step] at none
    obtain ⟨first, rest⟩ := Nat.add_eq_zero_iff.mp none
    have also : cond' s k = true := by
      by_contra failed
      simp [failed] at first
    refine exec_cons_eq_some.mpr ⟨u, guarded_eq_some.mpr ⟨?_, step⟩, ih run rest⟩
    rw [allowed, also]
    rfl

/-- What is held before and comes in along a run is what goes out and is held after it.
The steps may rely on an invariant. -/
theorem total_balance {P : σ → Prop} {held : σ → M} {entering leaving : σ → κ → M}
    (step : ∀ s k t, P s → next s k = some t →
      P t ∧ held s + entering s k = leaving s k + held t)
    (start : P s) (run : exec next s ks = some t) :
    held s + total next entering s ks = total next leaving s ks + held t := by
  induction ks generalizing s with
  | nil =>
    obtain rfl := Option.some.inj run
    simp
  | cons k ks ih =>
    obtain ⟨u, hu, run⟩ := exec_cons_eq_some.mp run
    obtain ⟨keeps, balance⟩ := step s k u start hu
    rw [total_cons hu, total_cons hu, ← add_assoc, balance, add_assoc, ih keeps run, add_assoc]

end CanTelemetry.Execution
