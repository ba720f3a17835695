import CanTelemetry.Foundation.Threads

/-! A pool of threads that take turns at something only one of them can hold. While
nobody holds it, what it protects is at rest; while a thread holds it, what is known is
the fact that belongs to that thread's program counter. -/

namespace CanTelemetry.Threads

variable {π ρ : Type*} {holds : π → Bool} {Rest Rest' : Prop} {Fact Fact' : π → Prop}
  {pool : List π}

/-- Nobody holds it and it is at rest, or one thread holds it and its fact holds. -/
inductive Held (holds : π → Bool) (Rest : Prop) (Fact : π → Prop) (pool : List π) : Prop
  | free (idle : ∀ p ∈ pool, holds p = false) (rest : Rest)
  | taken (before after : List π) (pc : π) (split : pool = before ++ pc :: after)
      (before_idle : ∀ p ∈ before, holds p = false) (after_idle : ∀ p ∈ after, holds p = false)
      (holding : holds pc = true) (fact : Fact pc)

/-- What a step of the holder, or of a thread that found nobody holding, leads to. -/
def Control.Settles (holds : π → Bool) (Rest : Prop) (Fact : π → Prop) : Control π ρ → Prop
  | .next pc => if holds pc then Fact pc else Rest
  | .ret _ => Rest

namespace Control.Settles

variable {π' ρ' : Type*} {holds' : π' → Bool} {Fact'' : π' → Prop}

theorem holding {pc : π} (h : holds pc = true) (fact : Fact pc) :
    (next pc : Control π ρ).Settles holds Rest Fact := by
  rw [Settles, if_pos h]
  exact fact

theorem resting {pc : π} (h : holds pc = false) (rest : Rest) :
    (next pc : Control π ρ).Settles holds Rest Fact := by
  rw [Settles, if_neg (by simp [h])]
  exact rest

/-- A step after which a fact is known wherever the thread stands. -/
theorem of_live {control : Control π ρ} (returned : control.live = [] → Rest)
    (fact : ∀ pc ∈ control.live, Fact pc) (rest : ∀ pc, holds pc = false → Fact pc → Rest) :
    control.Settles holds Rest Fact := by
  cases control with
  | ret value => exact returned rfl
  | next pc =>
    have known := fact pc (List.mem_singleton.mpr rfl)
    cases h : holds pc with
    | true => exact holding h known
    | false => exact resting h (rest pc h known)

/-- A procedure that is called from one that does nothing more when it returns. -/
theorem call {control : Control π ρ} {embed : π → π'} {value : ρ → ρ'}
    (h : control.Settles holds Rest Fact) (same : ∀ pc, holds' (embed pc) = holds pc)
    (fact : ∀ pc, Fact pc → Fact'' (embed pc)) :
    (control.call embed fun v => .ret (value v)).Settles holds' Rest Fact'' := by
  cases control with
  | next pc =>
    simp only [Settles, call_next, same] at h ⊢
    split_ifs at h ⊢
    · exact fact pc h
    · exact h
  | ret v => exact h

end Control.Settles

namespace Held

theorem start (rest : Rest) : Held holds Rest Fact [] :=
  .free (by simp) rest

theorem rest_of_nil (h : Held holds Rest Fact []) : Rest := by
  cases h with
  | free idle rest => exact rest
  | taken before after pc split => simp at split

/-- The only thread of a pool, which holds it from the beginning. -/
theorem alone (h : Held holds Rest Fact []) {pc : π} (holding : holds pc = true)
    (fact : Rest → Fact' pc) : Held holds Rest' Fact' [pc] :=
  .taken [] [] pc rfl (by simp) (by simp) holding (fact h.rest_of_nil)

/-- A thread that joins the pool does not hold it yet. -/
theorem join (h : Held holds Rest Fact pool) {pc : π} (idle : holds pc = false) :
    Held holds Rest Fact (pool ++ [pc]) := by
  cases h with
  | free idles rest =>
    refine .free ?_ rest
    simp only [List.mem_append, List.mem_singleton]
    rintro p (earlier | rfl)
    · exact idles p earlier
    · exact idle
  | taken before after pc' split before_idle after_idle holding fact =>
    refine .taken before (after ++ [pc]) pc' ?_ before_idle ?_ holding fact
    · rw [split, List.append_assoc, List.cons_append]
    · simp only [List.mem_append, List.mem_singleton]
      rintro p (earlier | rfl)
      · exact after_idle p earlier
      · exact idle

/-- A step outside the pool that keeps the rest and every fact. -/
theorem mono (h : Held holds Rest Fact pool) (rest : Rest → Rest')
    (fact : ∀ pc ∈ pool, holds pc = true → Fact pc → Fact' pc) :
    Held holds Rest' Fact' pool := by
  cases h with
  | free idle known => exact .free idle (rest known)
  | taken before after pc split before_idle after_idle holding known =>
    have member : pc ∈ pool := by simp [split]
    exact .taken before after pc split before_idle after_idle holding (fact pc member holding known)

/-- The fact of a thread that holds it. -/
theorem fact (h : Held holds Rest Fact pool) {pc : π} (member : pc ∈ pool)
    (holding : holds pc = true) : Fact pc := by
  cases h with
  | free idle rest => exact absurd ((idle pc member).symm.trans holding) Bool.false_ne_true
  | taken before after pc' split before_idle after_idle holding' known =>
    rw [split, List.mem_append, List.mem_cons] at member
    rcases member with left | rfl | right
    · exact absurd ((before_idle pc left).symm.trans holding) Bool.false_ne_true
    · exact known
    · exact absurd ((after_idle pc right).symm.trans holding) Bool.false_ne_true

/-- Two threads that hold it are one. -/
theorem unique (h : Held holds Rest Fact pool) {pc pc' : π} (member : pc ∈ pool)
    (member' : pc' ∈ pool) (holding : holds pc = true) (holding' : holds pc' = true) : pc = pc' := by
  have one : Held holds Rest (fun p => ∀ q ∈ pool, holds q = true → q = p) pool := by
    cases h with
    | free idle rest => exact .free idle rest
    | taken before after p split before_idle after_idle own fact =>
      refine .taken before after p split before_idle after_idle own ?_
      intro q mem holds'
      rw [split, List.mem_append, List.mem_cons] at mem
      rcases mem with left | same | right
      · exact absurd ((before_idle q left).symm.trans holds') Bool.false_ne_true
      · exact same
      · exact absurd ((after_idle q right).symm.trans holds') Bool.false_ne_true
  exact (one.fact member' holding') pc member holding

/-- What only the holder has, at most one thread has. -/
theorem filterMap_length_le {β : Type*} (h : Held holds Rest Fact pool) {has : π → Option β}
    (same : ∀ p, holds p = (has p).isSome) : (pool.filterMap has).length ≤ 1 := by
  have nothing {threads : List π} (idle : ∀ p ∈ threads, holds p = false) :
      threads.filterMap has = [] := by
    refine List.filterMap_eq_nil_iff.mpr fun p member => ?_
    have lacks : (has p).isSome = false := (same p).symm.trans (idle p member)
    exact Option.isNone_iff_eq_none.mp (Option.isSome_eq_false_iff.mp lacks)
  cases h with
  | free idle rest => simp [nothing idle]
  | taken before after pc split before_idle after_idle holding fact =>
    rw [split, List.filterMap_append, List.filterMap_cons, nothing before_idle,
      nothing after_idle]
    cases has pc <;> simp

private theorem settle {before after : List π} {control : Control π ρ}
    (before_idle : ∀ p ∈ before, holds p = false) (after_idle : ∀ p ∈ after, holds p = false)
    (settles : control.Settles holds Rest' Fact') :
    Held holds Rest' Fact' (before ++ control.live ++ after) := by
  cases control with
  | next pc =>
    cases holding : holds pc with
    | true =>
      rw [Control.Settles, if_pos holding] at settles
      exact .taken before after pc (by simp) before_idle after_idle holding settles
    | false =>
      rw [Control.Settles, if_neg (by simp [holding])] at settles
      refine .free ?_ settles
      simp only [Control.live_next, List.mem_append, List.mem_singleton]
      rintro p ((left | rfl) | right)
      · exact before_idle p left
      · exact holding
      · exact after_idle p right
  | ret value =>
    refine .free ?_ settles
    simp only [Control.live_ret, List.append_nil, List.mem_append]
    rintro p (left | right)
    · exact before_idle p left
    · exact after_idle p right

private theorem replace {before after live : List π} {pc : π}
    (idle : ∀ p ∈ before ++ pc :: after, holds p = false) (live_idle : ∀ p ∈ live, holds p = false) :
    ∀ p ∈ before ++ live ++ after, holds p = false := by
  simp only [List.mem_append, List.mem_cons] at idle ⊢
  rintro p ((left | own) | right)
  · exact idle p (.inl left)
  · exact live_idle p own
  · exact idle p (.inr (.inr right))

/-- A step of one thread of the pool: of the holder, of a thread that finds nobody
holding, or of a thread that has to leave the holder alone. -/
theorem step (h : Held holds Rest Fact pool) {i : ℕ} {pc : π} {control : Control π ρ}
    (found : pool[i]? = some pc)
    (own : holds pc = true → Fact pc → control.Settles holds Rest' Fact')
    (enters : holds pc = false → Rest → control.Settles holds Rest' Fact')
    (passes : holds pc = false → ∀ q ∈ pool, holds q = true → Fact q →
      Fact' q ∧ ∀ p ∈ control.live, holds p = false) :
    Held holds Rest' Fact' (resume pool i control) := by
  obtain ⟨left, right, split, -, resumed⟩ := resume_split (ρ := ρ) found
  rw [resumed]
  cases h with
  | free idle rest =>
    have sides : ∀ p, p ∈ left ∨ p ∈ right → holds p = false := by
      intro p side
      refine idle p ?_
      rw [split, List.mem_append, List.mem_cons]
      exact side.imp_right .inr
    exact settle (fun p h => sides p (.inl h)) (fun p h => sides p (.inr h))
      (enters (idle pc (by simp [split])) rest)
  | taken before after pc' split' before_idle after_idle holding known =>
    have halves := split.symm.trans split'
    have member : pc' ∈ pool := by simp [split']
    rw [List.append_eq_append_iff] at halves
    rcases halves with ⟨middle, rfl, rest⟩ | ⟨middle, rfl, rest⟩
    · cases middle with
      | nil =>
        obtain ⟨rfl, rfl⟩ := List.cons.inj rest
        rw [List.append_nil] at before_idle
        exact settle before_idle after_idle (own holding known)
      | cons first middle =>
        obtain ⟨rfl, rfl⟩ := List.cons.inj rest
        have idle := before_idle pc (by simp)
        obtain ⟨fact', live_idle⟩ := passes idle pc' member holding known
        refine .taken (left ++ control.live ++ middle) after pc' (by simp) ?_ after_idle holding fact'
        exact replace before_idle live_idle
    · cases middle with
      | nil =>
        obtain ⟨rfl, rfl⟩ := List.cons.inj rest
        rw [List.append_nil]
        exact settle before_idle after_idle (own holding known)
      | cons first middle =>
        obtain ⟨rfl, rfl⟩ := List.cons.inj rest
        have idle := after_idle pc (by simp)
        obtain ⟨fact', live_idle⟩ := passes idle pc' member holding known
        refine .taken before (middle ++ control.live ++ right) pc' (by simp) before_idle ?_ holding fact'
        exact replace after_idle live_idle

/-- The holder stays where it is, and something else is known of it. -/
theorem update (h : Held holds Rest Fact pool) {i : ℕ} {pc : π} (found : pool[i]? = some pc)
    (holding : holds pc = true) (fact : Fact pc → Fact' pc) : Held holds Rest' Fact' pool := by
  have idle (waiting : holds pc = false) : False :=
    Bool.false_ne_true (waiting.symm.trans holding)
  have stepped : Held holds Rest' Fact' (resume pool i (.next pc : Control π Unit)) :=
    h.step found (fun _ known => .holding holding (fact known)) (fun waiting => (idle waiting).elim)
      fun waiting => (idle waiting).elim
  rwa [resume_next_self found] at stepped

end Held

end CanTelemetry.Threads
