import Mathlib.Algebra.BigOperators.Group.List.Basic
import Mathlib.Data.List.Basic
import Mathlib.Data.List.Infix

/-! Threads as program counters. A procedure is a step function that either goes on
at another program counter or returns; a caller embeds it by mapping both outcomes.
A pool is the list of the threads that have not returned yet. -/

namespace CanTelemetry.Threads

/-- Where a procedure stands after one step. -/
inductive Control (π ρ : Type*) where
  | next (pc : π)
  | ret (value : ρ)
  deriving DecidableEq

variable {π π' ρ ρ' : Type*}

namespace Control

/-- A procedure called from another one: its program counters are embedded in the
caller's, and the caller goes on with the value it returns. -/
def call (embed : π → π') (resume : ρ → Control π' ρ') : Control π ρ → Control π' ρ'
  | .next pc => .next (embed pc)
  | .ret value => resume value

@[simp] theorem call_next (embed : π → π') (resume : ρ → Control π' ρ') (pc : π) :
    (next pc).call embed resume = .next (embed pc) := rfl

@[simp] theorem call_ret (embed : π → π') (resume : ρ → Control π' ρ') (value : ρ) :
    (ret value : Control π ρ).call embed resume = resume value := rfl

/-- A procedure embedded twice is embedded once. -/
@[simp] theorem call_call {π'' ρ'' : Type*} (c : Control π ρ) (embed : π → π') (embed' : π' → π'')
    (resume : ρ' → Control π'' ρ'') (value : ρ → ρ') :
    (c.call embed fun r => .ret (value r) : Control π' ρ').call embed' resume =
      c.call (fun pc => embed' (embed pc)) fun r => resume (value r) := by
  cases c <;> rfl

/-- What is left of the thread in its pool. -/
def live : Control π ρ → List π
  | .next pc => [pc]
  | .ret _ => []

@[simp] theorem live_next (pc : π) : (next pc : Control π ρ).live = [pc] := rfl

@[simp] theorem live_ret (value : ρ) : (ret value : Control π ρ).live = [] := rfl

/-- Where a caller stands after a step of the procedure it called. -/
theorem forall_mem_live_call {c : Control π ρ} {embed : π → π'} {resume : ρ → Control π' ρ'}
    {Good : π' → Prop} (embedded : ∀ pc, c = .next pc → Good (embed pc))
    (resumed : ∀ value, c = .ret value → ∀ pc' ∈ (resume value).live, Good pc') :
    ∀ pc' ∈ (c.call embed resume).live, Good pc' := by
  cases c with
  | next pc =>
    intro pc' live
    obtain rfl := List.mem_singleton.mp live
    exact embedded pc rfl
  | ret value => exact resumed value rfl

def pc? : Control π ρ → Option π
  | .next pc => some pc
  | .ret _ => none

@[simp] theorem pc?_next (pc : π) : (next pc : Control π ρ).pc? = some pc := rfl

@[simp] theorem pc?_ret (value : ρ) : (ret value : Control π ρ).pc? = none := rfl

/-- What the step returned, if it did. -/
def value? : Control π ρ → Option ρ
  | .next _ => none
  | .ret value => some value

@[simp] theorem value?_next (pc : π) : (next pc : Control π ρ).value? = none := rfl

@[simp] theorem value?_ret (value : ρ) : (ret value : Control π ρ).value? = some value := rfl

end Control

/-- The pool after thread `i` made a step; a thread that returned leaves the pool. -/
def resume (pool : List π) (i : ℕ) : Control π ρ → List π
  | .next pc => pool.set i pc
  | .ret _ => pool.eraseIdx i

/-- A step of one thread leaves the threads on both sides of it alone. -/
theorem resume_split {pool : List π} {i : ℕ} {pc : π} (h : pool[i]? = some pc) :
    ∃ before after, pool = before ++ pc :: after ∧ before.length = i ∧
      ∀ c : Control π ρ, resume pool i c = before ++ c.live ++ after := by
  obtain ⟨hi, rfl⟩ := List.getElem?_eq_some_iff.mp h
  refine ⟨pool.take i, pool.drop (i + 1), ?_, ?_, ?_⟩
  · rw [List.getElem_cons_drop, List.take_append_drop]
  · rw [List.length_take]
    omega
  · intro c
    cases c with
    | next pc => simp [resume, List.set_eq_take_append_cons_drop, hi]
    | ret value => simp [resume, List.eraseIdx_eq_take_drop_succ]

/-- A thread that stays where it is. -/
theorem resume_next_self {pool : List π} {i : ℕ} {pc : π} (found : pool[i]? = some pc) :
    resume pool i (.next pc : Control π ρ) = pool := by
  obtain ⟨before, after, split, -, resumed⟩ := resume_split (ρ := ρ) found
  rw [resumed, split, Control.live_next, List.append_assoc, List.singleton_append]

/-- A step of the thread that joined last. -/
theorem resume_concat (pool : List π) (pc : π) (c : Control π ρ) :
    resume (pool ++ [pc]) pool.length c = pool ++ c.live := by
  cases c with
  | next pc' => simp [resume]
  | ret value => simp [resume, List.eraseIdx_append_of_length_le]

theorem mem_of_mem_resume {pool : List π} {i : ℕ} {pc p : π} {c : Control π ρ}
    (found : pool[i]? = some pc) (h : p ∈ resume pool i c) : p ∈ pool ∨ p ∈ c.live := by
  obtain ⟨before, after, split, -, resumed⟩ := resume_split (ρ := ρ) found
  rw [resumed, List.mem_append, List.mem_append] at h
  rw [split, List.mem_append, List.mem_cons]
  rcases h with (left | own) | right
  · exact .inl (.inl left)
  · exact .inr own
  · exact .inl (.inr (.inr right))

theorem mem_resume_of_ne {pool : List π} {i : ℕ} {pc p : π} (c : Control π ρ)
    (found : pool[i]? = some pc) (h : p ∈ pool) (other : p ≠ pc) : p ∈ resume pool i c := by
  obtain ⟨before, after, split, -, resumed⟩ := resume_split (ρ := ρ) found
  rw [split, List.mem_append, List.mem_cons] at h
  rw [resumed, List.mem_append, List.mem_append]
  rcases h with left | own | right
  · exact .inl (.inl left)
  · exact absurd own other
  · exact .inr right

theorem mem_resume_live {pool : List π} {i : ℕ} {pc p : π} {c : Control π ρ}
    (found : pool[i]? = some pc) (h : p ∈ c.live) : p ∈ resume pool i c := by
  obtain ⟨before, after, split, -, resumed⟩ := resume_split (ρ := ρ) found
  rw [resumed, List.mem_append, List.mem_append]
  exact .inl (.inr h)

/-- What a pool holds together, after a step of one of its threads. -/
theorem sum_resume {M : Type*} [AddCommMonoid M] {pool : List π} {i : ℕ} {pc : π} (f : π → M)
    (found : pool[i]? = some pc) (c : Control π ρ) :
    (pool.map f).sum + (c.live.map f).sum = f pc + ((resume pool i c).map f).sum := by
  obtain ⟨before, after, split, -, resumed⟩ := resume_split (ρ := ρ) found
  rw [resumed, split]
  simp only [List.map_append, List.map_cons, List.sum_append, List.sum_cons]
  ac_rfl

/-- The threads of one kind, counted after a step of one thread. -/
theorem countP_resume {pool : List π} {i : ℕ} {pc : π} (p : π → Bool)
    (found : pool[i]? = some pc) (c : Control π ρ) :
    (resume pool i c).countP p + [pc].countP p = pool.countP p + c.live.countP p := by
  obtain ⟨before, after, split, -, resumed⟩ := resume_split (ρ := ρ) found
  have own : pool = before ++ [pc] ++ after := by
    rw [split, List.append_assoc, List.singleton_append]
  rw [resumed, own]
  simp only [List.countP_append]
  omega

/-- Where the thread that steps is the only one of its kind, no other is of that kind
afterwards. -/
theorem mem_live_of_alone {pool : List π} {i : ℕ} {pc p : π} {kind : π → Bool}
    {c : Control π ρ} (found : pool[i]? = some pc) (alone : pool.countP kind ≤ 1)
    (mine : kind pc = true) (h : p ∈ resume pool i c) (same : kind p = true) : p ∈ c.live := by
  obtain ⟨before, after, split, -, resumed⟩ := resume_split (ρ := ρ) found
  rw [split, List.countP_append, List.countP_cons, if_pos mine] at alone
  rw [resumed, List.mem_append, List.mem_append] at h
  rcases h with (left | own) | right
  · have none : before.countP kind = 0 := by omega
    exact absurd same (List.countP_eq_zero.mp none p left)
  · exact own
  · have none : after.countP kind = 0 := by omega
    exact absurd same (List.countP_eq_zero.mp none p right)

/-- Where at most one thread is of a kind and it steps, it decides alone what is of that kind
afterwards. -/
theorem filter_resume_alone {pool : List π} {i : ℕ} {pc : π} {kind : π → Bool} {one : Option π}
    (found : pool[i]? = some pc) (alone : pool.filter kind = one.toList) (mine : kind pc = true)
    (c : Control π ρ) :
    one = some pc ∧ (resume pool i c).filter kind = (c.pc?.filter kind).toList := by
  obtain ⟨before, after, split, -, resumed⟩ := resume_split (ρ := ρ) found
  rw [split, List.filter_append, List.filter_cons, if_pos mine] at alone
  have apart : before.filter kind = [] ∧ after.filter kind = [] ∧ one = some pc := by
    cases one with
    | none => simp at alone
    | some pc' =>
      cases left : before.filter kind with
      | nil =>
        rw [left] at alone
        obtain ⟨rfl, right⟩ := List.cons.inj alone
        exact ⟨rfl, right, rfl⟩
      | cons head tail =>
        rw [left] at alone
        have lengths := congrArg List.length alone
        simp at lengths
  obtain ⟨left, right, same⟩ := apart
  refine ⟨same, ?_⟩
  rw [resumed, List.filter_append, List.filter_append, left, right, List.nil_append, List.append_nil]
  cases c with
  | next pc' => cases alive : kind pc' <;> simp [alive, Option.filter]
  | ret value => rfl

/-- A thread that is not of a kind and does not become so leaves the threads of that kind. -/
theorem filter_resume_other {pool : List π} {i : ℕ} {pc : π} {kind : π → Bool} {c : Control π ρ}
    (found : pool[i]? = some pc) (other : kind pc = false) (gone : c.live.filter kind = []) :
    (resume pool i c).filter kind = pool.filter kind := by
  obtain ⟨before, after, split, -, resumed⟩ := resume_split (ρ := ρ) found
  rw [resumed, split, List.filter_append, List.filter_append, gone, List.append_nil,
    List.filter_append, List.filter_cons, other]
  rfl

/-- A pool and the marks of its threads, one for each, stay in step. -/
theorem resume_zip {μ : Type*} (pool : List π) (marks : List μ) (i : ℕ) (c : Control π ρ)
    (mark : μ) :
    (resume pool i c).zip (resume marks i (c.call (fun _ => mark) .ret : Control μ ρ)) =
      resume (pool.zip marks) i (c.call (·, mark) .ret : Control (π × μ) ρ) := by
  induction pool generalizing marks i with
  | nil => cases c <;> simp [resume]
  | cons pc pool ih =>
    cases marks with
    | nil => cases c <;> simp [resume]
    | cons m marks =>
      cases i with
      | zero => cases c <;> simp [resume]
      | succ i =>
        have rest := ih marks i
        cases c <;> simpa [resume] using rest

theorem resume_length_eq {μ : Type*} {pool : List π} {marks : List μ}
    (same : marks.length = pool.length) (i : ℕ) (c : Control π ρ) (mark : μ) :
    (resume marks i (c.call (fun _ => mark) .ret : Control μ ρ)).length =
      (resume pool i c).length := by
  cases c <;> simp [resume, List.length_eraseIdx, same]

/-- In a pool of one thread, that thread is the one that steps. -/
theorem resume_singleton {pc pc' : π} {i : ℕ} (h : [pc'][i]? = some pc) :
    pc' = pc ∧ ∀ c : Control π ρ, resume [pc'] i c = c.live := by
  obtain ⟨before, after, split, -, resumed⟩ := resume_split (ρ := ρ) h
  cases before with
  | nil =>
    obtain ⟨rfl, rfl⟩ := List.cons.inj split
    exact ⟨rfl, fun c => by rw [resumed, List.nil_append, List.append_nil]⟩
  | cons head tail => simp at split

end CanTelemetry.Threads
