import CanTelemetry.Foundation.Execution

/-! Possible progress: a state reaches a goal when some schedule leads it there. The
variant rule turns a measure that some choice makes fall into a whole schedule. -/

namespace CanTelemetry.Execution

variable {σ κ : Type*}

/-- Some schedule leads to the goal. -/
def Reaches (next : σ → κ → Option σ) (s : σ) (goal : σ → Prop) : Prop :=
  ∃ ks t, exec next s ks = some t ∧ goal t

namespace Reaches

variable {next : σ → κ → Option σ} {s t : σ} {k : κ} {goal goal' : σ → Prop}

theorem here (h : goal s) : Reaches next s goal := ⟨[], s, rfl, h⟩

theorem step (first : next s k = some t) (rest : Reaches next t goal) : Reaches next s goal := by
  obtain ⟨ks, u, run, h⟩ := rest
  exact ⟨k :: ks, u, exec_cons_eq_some.mpr ⟨t, first, run⟩, h⟩

theorem trans (first : Reaches next s goal) (rest : ∀ t, goal t → Reaches next t goal') :
    Reaches next s goal' := by
  obtain ⟨ks, t, run, h⟩ := first
  obtain ⟨ls, u, run', h'⟩ := rest t h
  exact ⟨ks ++ ls, u, exec_trans run run', h'⟩

/-- While the goal is not reached, some choice keeps the invariant and lowers the variant. -/
theorem of_variant {P : σ → Prop} (variant : σ → ℕ)
    (progress : ∀ s, P s → goal s ∨ ∃ k t, next s k = some t ∧ P t ∧ variant t < variant s)
    (start : P s) : Reaches next s goal := by
  induction bound : variant s using Nat.strongRecOn generalizing s with
  | ind n ih =>
    rcases progress s start with reached | ⟨k, t, first, keeps, falls⟩
    · exact here reached
    · rw [bound] at falls
      exact step first (ih _ falls keeps rfl)

end Reaches

end CanTelemetry.Execution
