import CanTelemetry.Foundation.Threads
import CanTelemetry.Foundation.Totals
import Mathlib.Algebra.GroupWithZero.Nat

/-! How many steps a pool of threads spends. Every thread has a potential, a bound on its steps
while it is left alone. A step lowers the potential of its own thread, but for what it asks
for, and it may raise that of the others, who have to start over. Along a run the steps are
bounded by the potential at its beginning and by these two. -/

namespace CanTelemetry

namespace Execution

variable {σ κ : Type*} {next : σ → κ → Option σ} {s t : σ} {ks : List κ}

/-- What is spent along a run comes from the potential at its beginning, or is granted on the
way. The steps may rely on an invariant. -/
theorem total_le {P : σ → Prop} {f : σ → ℕ} {spent granted : σ → κ → ℕ}
    (step : ∀ s k t, P s → next s k = some t →
      P t ∧ spent s k + f t ≤ f s + granted s k)
    (start : P s) (run : exec next s ks = some t) :
    total next spent s ks + f t ≤ f s + total next granted s ks := by
  induction ks generalizing s with
  | nil =>
    obtain rfl := Option.some.inj run
    simp
  | cons k ks ih =>
    obtain ⟨u, first, rest⟩ := exec_cons_eq_some.mp run
    obtain ⟨keeps, one⟩ := step s k u start first
    have more := ih keeps rest
    rw [total_cons first, total_cons first]
    omega

end Execution

namespace Threads

variable {π π' ρ ρ' : Type*} {pool : List π}

/-- A thread that goes on where less is left, whatever it is granted. -/
theorem spends_next {f : π → ℕ} {pc' : π} {m n : ℕ} (less : f pc' < n) :
    1 + (((.next pc' : Control π ρ).live).map f).sum ≤ n + m := by
  rw [Control.live_next, List.map_cons, List.map_nil, List.sum_singleton]
  omega

/-- A procedure that is called from another one: so much is left of the caller behind it. -/
theorem spends_call {c : Control π ρ} {embed : π → π'} {resume : ρ → Control π' ρ'}
    {f : π → ℕ} {f' : π' → ℕ} {b m n : ℕ} (inner : 1 + (c.live.map f).sum ≤ b + m)
    (embedded : ∀ pc, f' (embed pc) ≤ f pc + n)
    (resumed : ∀ value, c = .ret value → ((resume value).live.map f').sum ≤ n) :
    1 + ((c.call embed resume).live.map f').sum ≤ b + n + m := by
  have outer : ((c.call embed resume).live.map f').sum ≤ (c.live.map f).sum + n := by
    cases c with
    | next pc => simpa using embedded pc
    | ret value => simpa using resumed value rfl
  omega

/-- What a step of somebody else costs the threads of a pool. -/
theorem sum_map_le {f f' cost : π → ℕ} (others : ∀ p ∈ pool, f' p ≤ f p + cost p) :
    (pool.map f').sum ≤ (pool.map f).sum + (pool.map cost).sum := by
  induction pool with
  | nil => simp
  | cons p pool ih =>
    have first := others p List.mem_cons_self
    have rest := ih fun q mem => others q (List.mem_cons_of_mem p mem)
    simp only [List.map_cons, List.sum_cons]
    omega

/-- A step of a thread of the pool costs the others something, but not the thread itself. -/
theorem sum_resume_le {i : ℕ} {pc : π} {c : Control π ρ} {f f' cost : π → ℕ} {m : ℕ}
    (found : pool[i]? = some pc) (own : 1 + (c.live.map f').sum ≤ f pc + m)
    (others : ∀ p ∈ pool, f' p ≤ f p + cost p) :
    1 + ((resume pool i c).map f').sum ≤
      (pool.map f).sum + m + ((pool.eraseIdx i).map cost).sum := by
  obtain ⟨before, after, rfl, rfl, resumed⟩ := resume_split (ρ := ρ) found
  have rest : (before ++ pc :: after).eraseIdx before.length = before ++ after := by
    rw [List.eraseIdx_append_of_length_le (Nat.le_refl _), Nat.sub_self, List.eraseIdx_cons_zero]
  have left : (before.map f').sum ≤ (before.map f).sum + (before.map cost).sum :=
    sum_map_le fun p mem => others p (by simp [mem])
  have right : (after.map f').sum ≤ (after.map f).sum + (after.map cost).sum :=
    sum_map_le fun p mem => others p (by simp [mem])
  rw [resumed, rest]
  simp only [List.map_append, List.sum_append, List.map_cons, List.sum_cons]
  omega

end Threads

end CanTelemetry
