import Mathlib.Order.Basic

/-! Semaphores with a bounded number of tokens. A binary semaphore is one with the
limit 1. Giving at the limit is reported and changes nothing, as an RTOS does it. -/

namespace CanTelemetry

/-- The number of tokens never exceeds the limit. -/
structure Semaphore (limit : ℕ) where
  tokens : ℕ
  within : tokens ≤ limit
  deriving DecidableEq

namespace Semaphore

variable {limit : ℕ}

def empty : Semaphore limit := ⟨0, Nat.zero_le limit⟩

/-- One more token, unless the limit is reached. -/
def give (s : Semaphore limit) : Semaphore limit :=
  if h : s.tokens < limit then ⟨s.tokens + 1, h⟩ else s

/-- One token fewer; without a token there is nothing to take. -/
def take? (s : Semaphore limit) : Option (Semaphore limit) :=
  if 0 < s.tokens then some ⟨s.tokens - 1, by have := s.within; omega⟩ else none

@[ext] theorem ext {s t : Semaphore limit} (h : s.tokens = t.tokens) : s = t := by
  cases s
  cases t
  simp_all

@[simp] theorem empty_tokens : (empty : Semaphore limit).tokens = 0 := rfl

theorem give_tokens_of_lt {s : Semaphore limit} (h : s.tokens < limit) :
    s.give.tokens = s.tokens + 1 := by
  simp [give, h]

theorem give_tokens (s : Semaphore limit) :
    s.give.tokens = s.tokens + if s.tokens < limit then 1 else 0 := by
  unfold give
  split <;> rfl

theorem le_give_tokens (s : Semaphore limit) : s.tokens ≤ s.give.tokens := by
  rw [give_tokens]
  exact Nat.le_add_right _ _

theorem take?_eq_some {s t : Semaphore limit} :
    s.take? = some t ↔ s.tokens = t.tokens + 1 := by
  unfold take?
  split
  · constructor
    · intro h
      obtain rfl := Option.some.inj h
      show s.tokens = s.tokens - 1 + 1
      omega
    · intro h
      congr 1
      ext
      show s.tokens - 1 = t.tokens
      omega
  · constructor
    · intro h
      cases h
    · intro h
      omega

theorem take?_eq_none {s : Semaphore limit} : s.take? = none ↔ s.tokens = 0 := by
  unfold take?
  split <;> simp <;> omega

end Semaphore

end CanTelemetry
