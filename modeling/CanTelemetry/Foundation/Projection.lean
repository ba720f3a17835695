import CanTelemetry.Foundation.Totals

/-! One system inside another. Every step of the outer system is some steps of the inner
one, or none, so that a run of the outer system is a run of the inner one under the
schedule of those steps. What is proved of every inner run holds of the outer runs, and
what is observed along the two is the same if it is the same along a step. -/

namespace CanTelemetry.Execution

variable {σ τ κ ι ε M : Type*}

/-- How the inner system is seen in the outer one. The steps may rely on an invariant. -/
structure Projection (next : σ → κ → Option σ) (next' : τ → ι → Option τ) where
  Inv : σ → Prop
  view : σ → τ
  moves : σ → κ → List ι
  keeps : ∀ {s k t}, Inv s → next s k = some t → Inv t
  step : ∀ {s k t}, Inv s → next s k = some t → exec next' (view s) (moves s k) = some (view t)

namespace Projection

variable {next : σ → κ → Option σ} {next' : τ → ι → Option τ} (p : Projection next next')
  {s t : σ} {ks : List κ}

/-- The schedule of the inner run. -/
def schedule (s : σ) (ks : List κ) : List ι := trace next p.moves s ks

theorem exec_schedule (start : p.Inv s) (run : exec next s ks = some t) :
    exec next' (p.view s) (p.schedule s ks) = some (p.view t) := by
  induction ks generalizing s with
  | nil =>
    obtain rfl := Option.some.inj run
    rfl
  | cons k ks ih =>
    obtain ⟨u, hu, run⟩ := exec_cons_eq_some.mp run
    rw [schedule, trace_cons hu]
    exact exec_trans (p.step start hu) (ih (p.keeps start hu) run)

/-- What is observed along both runs. -/
theorem trace_schedule {obs : σ → κ → List ε} {obs' : τ → ι → List ε}
    (same : ∀ {s k t}, p.Inv s → next s k = some t →
      trace next' obs' (p.view s) (p.moves s k) = obs s k)
    (start : p.Inv s) (run : exec next s ks = some t) :
    trace next' obs' (p.view s) (p.schedule s ks) = trace next obs s ks := by
  induction ks generalizing s with
  | nil => rfl
  | cons k ks ih =>
    obtain ⟨u, hu, run⟩ := exec_cons_eq_some.mp run
    rw [schedule, trace_cons hu, trace_cons hu, trace_append (p.step start hu), same start hu]
    exact congrArg _ (ih (p.keeps start hu) run)

/-- What adds up along both runs. -/
theorem total_schedule [AddCommMonoid M] {amount : σ → κ → M} {amount' : τ → ι → M}
    (same : ∀ {s k t}, p.Inv s → next s k = some t →
      total next' amount' (p.view s) (p.moves s k) = amount s k)
    (start : p.Inv s) (run : exec next s ks = some t) :
    total next' amount' (p.view s) (p.schedule s ks) = total next amount s ks := by
  induction ks generalizing s with
  | nil => rfl
  | cons k ks ih =>
    obtain ⟨u, hu, run⟩ := exec_cons_eq_some.mp run
    rw [schedule, trace_cons hu, total_cons hu, total_append (p.step start hu), same start hu]
    exact congrArg _ (ih (p.keeps start hu) run)

end Projection

end CanTelemetry.Execution
