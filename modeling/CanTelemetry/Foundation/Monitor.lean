import CanTelemetry.Foundation.Execution

/-! Runs with a monitor beside them. The monitor sees every choice together with the state
it is made in and never interferes; it carries what a condition on the schedule has to
remember and the program does not. -/

namespace CanTelemetry.Execution

variable {σ κ μ : Type*} {next : σ → κ → Option σ} {watch : σ → κ → μ → μ}

def watched (next : σ → κ → Option σ) (watch : σ → κ → μ → μ) (p : σ × μ) (k : κ) :
    Option (σ × μ) :=
  (next p.1 k).map (·, watch p.1 k p.2)

variable {p q : σ × μ} {k : κ}

theorem watched_eq_some :
    watched next watch p k = some q ↔ next p.1 k = some q.1 ∧ q.2 = watch p.1 k p.2 := by
  constructor
  · intro step
    obtain ⟨t, ht, rfl⟩ := Option.map_eq_some_iff.mp step
    exact ⟨ht, rfl⟩
  · rintro ⟨step, same⟩
    rw [watched, step, ← same]
    rfl

end CanTelemetry.Execution
