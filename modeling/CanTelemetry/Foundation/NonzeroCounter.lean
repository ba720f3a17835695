import Mathlib.Data.Nat.ModEq
import Mathlib.Logic.Function.Iterate

/-! A counter of `w` bits that leaves zero out, so that zero can say that nothing has been
counted. It comes back to a number after `2 ^ w - 1` steps, and not before. -/

namespace CanTelemetry

variable {w : ℕ}

/-- The next number that is not zero. -/
def nextNonzero (x : BitVec w) : BitVec w := if x + 1 = 0 then 1 else x + 1

namespace NonzeroCounter

theorem toNat_next (wide : 0 < w) (x : BitVec w) :
    (nextNonzero x).toNat = x.toNat % (2 ^ w - 1) + 1 := by
  have one : (1 : BitVec w).toNat = 1 := Nat.mod_eq_of_lt (Nat.one_lt_two_pow wide.ne')
  have sum : (x + 1).toNat = (x.toNat + 1) % 2 ^ w := by rw [BitVec.toNat_add, one]
  have small := x.isLt
  unfold nextNonzero
  split_ifs with wraps
  · have zero : (x.toNat + 1) % 2 ^ w = 0 := by
      rw [← sum, wraps]
      rfl
    have last : x.toNat = 2 ^ w - 1 := by
      by_contra other
      rw [Nat.mod_eq_of_lt (by omega)] at zero
      omega
    rw [last, Nat.mod_self, one]
  · have below : x.toNat < 2 ^ w - 1 := by
      by_contra last
      refine wraps (BitVec.eq_of_toNat_eq ?_)
      rw [sum, show x.toNat + 1 = 2 ^ w by omega, Nat.mod_self]
      rfl
    rw [sum, Nat.mod_eq_of_lt (by omega), Nat.mod_eq_of_lt below]

theorem toNat_iterate (wide : 0 < w) (x : BitVec w) (n : ℕ) :
    (nextNonzero^[n + 1] x).toNat = (x.toNat + n) % (2 ^ w - 1) + 1 := by
  induction n with
  | zero => exact toNat_next wide x
  | succ n ih =>
    rw [Function.iterate_succ_apply', toNat_next wide, ih, Nat.mod_add_mod, Nat.add_assoc]

theorem iterate_ne_zero (wide : 0 < w) (x : BitVec w) (n : ℕ) : nextNonzero^[n + 1] x ≠ 0 := by
  intro zero
  have := toNat_iterate wide x n
  rw [zero] at this
  simp at this

/-- The counter is back after a multiple of its period, and only then. -/
theorem iterate_eq_self_iff (wide : 0 < w) {x : BitVec w} (started : x ≠ 0) (n : ℕ) :
    nextNonzero^[n] x = x ↔ 2 ^ w - 1 ∣ n := by
  cases n with
  | zero => simp
  | succ n =>
    have small := x.isLt
    have positive : 0 < x.toNat := by
      refine Nat.pos_of_ne_zero fun zero => started (BitVec.eq_of_toNat_eq ?_)
      rw [zero]
      rfl
    have shifted : x.toNat + n = (x.toNat - 1) + (n + 1) := by omega
    have residue : (x.toNat - 1 + 0) % (2 ^ w - 1) = x.toNat - 1 := Nat.mod_eq_of_lt (by omega)
    rw [← BitVec.toNat_inj, toNat_iterate wide, shifted, ← Nat.modEq_zero_iff_dvd]
    constructor
    · intro same
      have back : (x.toNat - 1) + (n + 1) ≡ (x.toNat - 1) + 0 [MOD 2 ^ w - 1] := by
        show _ % _ = _ % _
        rw [residue]
        omega
      exact Nat.ModEq.add_left_cancel' _ back
    · intro period
      have back : ((x.toNat - 1) + (n + 1)) % (2 ^ w - 1) = ((x.toNat - 1) + 0) % (2 ^ w - 1) :=
        Nat.ModEq.add_left _ period
      rw [back, residue]
      omega

theorem iterate_started (wide : 0 < w) {x : BitVec w} (started : x ≠ 0) (n : ℕ) :
    nextNonzero^[n] x ≠ 0 := by
  cases n with
  | zero => exact started
  | succ n => exact iterate_ne_zero wide x n

/-- Numbers of the counter that are fewer steps apart than its period differ. -/
theorem iterate_ne_of_near (wide : 0 < w) {x : BitVec w} (started : x ≠ 0) {m n : ℕ} (below : m < n)
    (near : n - m < 2 ^ w - 1) : nextNonzero^[m] x ≠ nextNonzero^[n] x := by
  intro same
  have apart : nextNonzero^[n] x = nextNonzero^[n - m] (nextNonzero^[m] x) := by
    rw [← Function.iterate_add_apply, Nat.sub_add_cancel below.le]
  have period : 2 ^ w - 1 ∣ n - m :=
    (iterate_eq_self_iff wide (iterate_started wide started m) _).mp (apart.symm.trans same.symm)
  have := Nat.le_of_dvd (Nat.sub_pos_of_lt below) period
  omega

end NonzeroCounter

end CanTelemetry
