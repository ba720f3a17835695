import Mathlib.Data.BitVec

/-! Deadlines on a tick counter that wraps. The difference of two readings, taken as a signed
number, tells which of them is the later one as long as they lie less than half the range of
the counter apart. -/

namespace CanTelemetry.WrappingClock

variable {w : ℕ}

/-- `static_cast<int>(now - deadline) >= 0` -/
def due (now deadline : BitVec w) : Bool := 0 ≤ (now - deadline).toInt

theorem due_iff (now deadline : BitVec w) :
    due now deadline = true ↔ 2 * (now - deadline).toNat < 2 ^ w := by
  simp only [due, decide_eq_true_eq, BitVec.toInt_eq_toNat_cond]
  split
  · rename_i ahead
    exact iff_of_true (Int.natCast_nonneg _) ahead
  · rename_i behind
    have := (now - deadline).isLt
    exact iff_of_false (by omega) behind

/-- Both readings are those of one clock. Before the deadline it is not due, however far the
counter is from it; afterwards it is due for half a turn of the counter, and again after a
whole turn. -/
theorem due_ofNat {last period time : ℕ} (half : 2 * period ≤ 2 ^ w) (later : last ≤ time) :
    due (BitVec.ofNat w time) (BitVec.ofNat w (last + period)) = true ↔
      period ≤ time - last ∧ 2 * ((time - last - period) % 2 ^ w) < 2 ^ w := by
  have positive : 0 < 2 ^ w := Nat.two_pow_pos w
  rw [due_iff]
  by_cases passed : period ≤ time - last
  · have sum : BitVec.ofNat w time =
        BitVec.ofNat w (time - last - period) + BitVec.ofNat w (last + period) := by
      rw [← BitVec.ofNat_add]
      congr 1
      omega
    rw [sum, BitVec.add_sub_cancel, BitVec.toNat_ofNat]
    exact (and_iff_right passed).symm
  · have back : BitVec.ofNat w (last + period) =
        BitVec.ofNat w (last + period - time) + BitVec.ofNat w time := by
      rw [← BitVec.ofNat_add]
      congr 1
      omega
    have short : last + period - time < 2 ^ w := by omega
    have behind : (BitVec.ofNat w time - BitVec.ofNat w (last + period)).toNat =
        2 ^ w - (last + period - time) := by
      rw [back, sub_add_cancel_right, BitVec.toNat_neg, BitVec.toNat_ofNat, Nat.mod_eq_of_lt short]
      exact Nat.mod_eq_of_lt (by omega)
    rw [behind]
    omega

end CanTelemetry.WrappingClock
