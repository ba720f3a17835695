import Mathlib.Data.List.Induction

/-! Executions of a partial step function under a schedule. A schedule lists the
choices made by the environment: which actor moves next and what every external
call returns. All interleavings of a concurrent program are schedules of one
step function, so a property of every run is a property of every schedule. -/

namespace CanTelemetry.Execution

variable {σ τ κ ν ε : Type*}

/-- Execute a schedule; a choice that is not offered by the state fails. -/
def exec (next : σ → κ → Option σ) (s : σ) : List κ → Option σ
  | [] => some s
  | k :: ks => (next s k).bind fun t => exec next t ks

/-- Everything observed along a schedule, in order. -/
def trace (next : σ → κ → Option σ) (obs : σ → κ → List ε) (s : σ) : List κ → List ε
  | [] => []
  | k :: ks => obs s k ++ ((next s k).map fun t => trace next obs t ks).getD []

/-- The step function restricted to the choices that meet a condition. -/
def guarded (cond : σ → κ → Bool) (next : σ → κ → Option σ) (s : σ) (k : κ) : Option σ :=
  if cond s k then next s k else none

variable {next : σ → κ → Option σ} {s t u : σ} {k : κ} {ks ls : List κ}

@[simp] theorem exec_nil (s : σ) : exec next s [] = some s := rfl

theorem exec_cons_eq_some :
    exec next s (k :: ks) = some u ↔ ∃ t, next s k = some t ∧ exec next t ks = some u := by
  simp only [exec, Option.bind_eq_some_iff]

theorem exec_append (s : σ) (ks ls : List κ) :
    exec next s (ks ++ ls) = (exec next s ks).bind fun t => exec next t ls := by
  induction ks generalizing s with
  | nil => simp
  | cons k ks ih =>
    simp only [List.cons_append, exec, Option.bind_assoc]
    congr 1
    funext t
    exact ih t

theorem exec_trans (first : exec next s ks = some t) (second : exec next t ls = some u) :
    exec next s (ks ++ ls) = some u := by
  rw [exec_append, first]
  exact second

theorem exec_single (h : next s k = some t) : exec next s [k] = some t := by
  simp [exec, h]

theorem exec_concat_eq_some :
    exec next s (ks ++ [k]) = some u ↔ ∃ t, exec next s ks = some t ∧ next t k = some u := by
  simp [exec_append, exec, Option.bind_eq_some_iff]

/-- What holds at the start and is kept by every step holds after every run. -/
theorem exec_invariant {P : σ → Prop}
    (step : ∀ s k t, P s → next s k = some t → P t)
    (run : exec next s ks = some t) (start : P s) : P t := by
  induction ks generalizing s with
  | nil =>
    obtain rfl := Option.some.inj run
    exact start
  | cons k ks ih =>
    obtain ⟨u, hu, run⟩ := exec_cons_eq_some.mp run
    exact ih run (step s k u start hu)

/-- The state a schedule leads to, for schedules that are known to run through. -/
def final (next : σ → κ → Option σ) (s : σ) (ks : List κ) : σ := (exec next s ks).getD s

theorem exec_eq_final (next : σ → κ → Option σ) (s : σ) (ks : List κ)
    (through : (exec next s ks).isSome = true) :
    exec next s ks = some (final next s ks) := by
  obtain ⟨t, ht⟩ := Option.isSome_iff_exists.mp through
  rw [final, ht, Option.getD_some]

theorem next_eq_final (next : σ → κ → Option σ) (s : σ) (k : κ)
    (through : (next s k).isSome = true) : next s k = some (final next s [k]) := by
  obtain ⟨t, ht⟩ := Option.isSome_iff_exists.mp through
  rw [final, exec_single ht, Option.getD_some, ht]

/-- The invariant rule for properties that also mention the schedule so far. -/
theorem exec_history {P : List κ → σ → Prop} (start : P [] s)
    (step : ∀ ks t k u, exec next s ks = some t → P ks t → next t k = some u → P (ks ++ [k]) u)
    (run : exec next s ks = some t) : P ks t := by
  induction ks using List.reverseRecOn generalizing t with
  | nil =>
    obtain rfl := Option.some.inj run
    exact start
  | append_singleton ks k ih =>
    obtain ⟨u, hu, hk⟩ := exec_concat_eq_some.mp run
    exact step ks u k t hu (ih hu) hk

theorem guarded_eq_some {cond : σ → κ → Bool} :
    guarded cond next s k = some t ↔ cond s k = true ∧ next s k = some t := by
  unfold guarded
  split <;> simp_all

/-- Runs under a condition are runs under every weaker condition. -/
theorem exec_guarded_mono {cond cond' : σ → κ → Bool}
    (weaker : ∀ s k, cond s k = true → cond' s k = true)
    (run : exec (guarded cond next) s ks = some t) :
    exec (guarded cond' next) s ks = some t := by
  induction ks generalizing s with
  | nil => exact run
  | cons k ks ih =>
    obtain ⟨u, hu, run⟩ := exec_cons_eq_some.mp run
    obtain ⟨hc, hn⟩ := guarded_eq_some.mp hu
    exact exec_cons_eq_some.mpr ⟨u, guarded_eq_some.mpr ⟨weaker s k hc, hn⟩, ih run⟩

theorem exec_of_guarded {cond : σ → κ → Bool} (run : exec (guarded cond next) s ks = some t) :
    exec next s ks = some t := by
  induction ks generalizing s with
  | nil => exact run
  | cons k ks ih =>
    obtain ⟨u, step, run⟩ := exec_cons_eq_some.mp run
    exact exec_cons_eq_some.mpr ⟨u, (guarded_eq_some.mp step).2, ih run⟩

/-- Observations along two runs, one after the other. -/
theorem trace_append {obs : σ → κ → List ε} (first : exec next s ks = some t) (ls : List κ) :
    trace next obs s (ks ++ ls) = trace next obs s ks ++ trace next obs t ls := by
  induction ks generalizing s with
  | nil =>
    obtain rfl := Option.some.inj first
    rfl
  | cons k ks ih =>
    obtain ⟨u, hu, first⟩ := exec_cons_eq_some.mp first
    simp [trace, hu, ih first, List.append_assoc]

@[simp] theorem trace_single (obs : σ → κ → List ε) (s : σ) (k : κ) :
    trace next obs s [k] = obs s k := by
  cases h : next s k <;> simp [trace, h]

/-- A run in which no step shows anything. -/
theorem trace_eq_nil {obs : σ → κ → List ε} (nothing : ∀ k ∈ ks, ∀ s, obs s k = []) (s : σ) :
    trace next obs s ks = [] := by
  induction ks generalizing s with
  | nil => rfl
  | cons k ks ih =>
    have rest := ih fun k mem => nothing k (List.mem_cons_of_mem _ mem)
    cases h : next s k <;> simp [trace, h, nothing k List.mem_cons_self s, rest]

theorem trace_cons {obs : σ → κ → List ε} (step : next s k = some t) (ks : List κ) :
    trace next obs s (k :: ks) = obs s k ++ trace next obs t ks := by
  simp [trace, step]

/-- Observations after one more choice. -/
theorem trace_concat {obs : σ → κ → List ε} (run : exec next s ks = some t) (k : κ) :
    trace next obs s (ks ++ [k]) = trace next obs s ks ++ obs t k := by
  induction ks generalizing s with
  | nil =>
    obtain rfl := Option.some.inj run
    exact trace_single obs _ k
  | cons k' ks ih =>
    obtain ⟨u, hu, run⟩ := exec_cons_eq_some.mp run
    simp [trace, hu, ih run, List.append_assoc]

/-- Where an observation stands in a list that has one more at its end. -/
theorem split_concat {c x : ε} {made before after : List ε}
    (split : made ++ [c] = before ++ x :: after) :
    (∃ after', after = after' ++ [c] ∧ made = before ++ x :: after') ∨
      after = [] ∧ made = before ∧ c = x := by
  induction after using List.reverseRecOn with
  | nil =>
    obtain ⟨same, own⟩ := List.append_inj' split rfl
    exact .inr ⟨rfl, same, List.head_eq_of_cons_eq own⟩
  | append_singleton after last _ =>
    rw [← List.cons_append, ← List.append_assoc] at split
    obtain ⟨same, own⟩ := List.append_inj' split rfl
    obtain rfl := List.head_eq_of_cons_eq own
    exact .inl ⟨after, rfl, same⟩

/-- What is held before and comes in along a run is what goes out and is held after it. -/
theorem trace_balance {held : σ → List ε} {entering leaving : σ → κ → List ε}
    (step : ∀ s k t, next s k = some t → held s ++ entering s k = leaving s k ++ held t)
    (run : exec next s ks = some t) :
    held s ++ trace next entering s ks = trace next leaving s ks ++ held t := by
  induction ks generalizing s with
  | nil =>
    obtain rfl := Option.some.inj run
    exact List.append_nil _
  | cons k ks ih =>
    obtain ⟨u, hu, run⟩ := exec_cons_eq_some.mp run
    rw [trace_cons hu, trace_cons hu, ← List.append_assoc, step s k u hu, List.append_assoc,
      ih run, List.append_assoc]

theorem trace_flatMap {ζ : Type*} (obs : σ → κ → List ε) (f : ε → List ζ) (s : σ)
    (ks : List κ) :
    (trace next obs s ks).flatMap f = trace next (fun s k => (obs s k).flatMap f) s ks := by
  induction ks generalizing s with
  | nil => rfl
  | cons k ks ih =>
    cases h : next s k <;> simp [trace, h, ih]

end CanTelemetry.Execution
