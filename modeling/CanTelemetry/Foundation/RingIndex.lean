import Mathlib.Data.BitVec
import Mathlib.Data.Nat.ModEq

/-! Free-running ring indices. A position is a natural number that only grows; the
index of a position is its value modulo `2 ^ w`, and its slot is the index modulo the
capacity. When the capacity divides `2 ^ w`, wrapping the index keeps the slots of a
window of `capacity` positions apart. -/

namespace CanTelemetry.RingIndex

variable {w capacity T H i j k : ℕ}

/-- The number of positions from `tail` up to `head`, as unsigned subtraction computes it. -/
def distance (head tail : BitVec w) : ℕ := (head - tail).toNat

def slot (capacity : ℕ) [NeZero capacity] (index : BitVec w) : Fin capacity :=
  Fin.ofNat capacity index.toNat

@[simp] theorem distance_self (index : BitVec w) : distance index index = 0 := by
  simp [distance]

theorem index_succ (w k : ℕ) : BitVec.ofNat w k + 1 = BitVec.ofNat w (k + 1) :=
  (BitVec.ofNat_add k 1).symm

theorem distance_index (ordered : T ≤ H) (window : H - T < 2 ^ w) :
    distance (BitVec.ofNat w H) (BitVec.ofNat w T) = H - T := by
  have split : H = T + (H - T) := by omega
  have same : BitVec.ofNat w H - BitVec.ofNat w T = BitVec.ofNat w (H - T) := by
    rw [split, BitVec.ofNat_add, BitVec.add_comm, BitVec.add_sub_cancel]
    congr 1
    omega
  rw [distance, same, BitVec.toNat_ofNat, Nat.mod_eq_of_lt window]

theorem index_eq_iff (ordered : T ≤ H) (window : H - T < 2 ^ w) :
    BitVec.ofNat w T = BitVec.ofNat w H ↔ T = H := by
  constructor
  · intro same
    have zero := distance_index ordered window
    rw [same, distance_self] at zero
    omega
  · rintro rfl
    rfl

@[simp] theorem distance_eq_zero {head tail : BitVec w} : distance head tail = 0 ↔ head = tail := by
  constructor
  · intro zero
    have none : head - tail = 0 := BitVec.eq_of_toNat_eq (by simpa [distance] using zero)
    exact sub_eq_zero.mp none
  · rintro rfl
    exact distance_self head

/-- One more position, unless the distance itself wraps. -/
theorem toNat_succ {index : BitVec w} (room : index.toNat + 1 < 2 ^ w) :
    (index + 1).toNat = index.toNat + 1 := by
  have wide : 0 < w := by
    rcases Nat.eq_zero_or_pos w with rfl | wide
    · simp at room
    · exact wide
  rw [BitVec.toNat_add, show (1 : BitVec w).toNat = 1 from BitVec.toNat_one wide,
    Nat.mod_eq_of_lt room]

theorem distance_head_succ {head tail : BitVec w} (room : distance head tail + 1 < 2 ^ w) :
    distance (head + 1) tail = distance head tail + 1 := by
  have moved : head + 1 - tail = head - tail + 1 := by grind
  rw [distance, moved, toNat_succ room, distance]

theorem distance_tail_succ {head tail : BitVec w} (nonempty : 0 < distance head tail) :
    distance head tail = distance head (tail + 1) + 1 := by
  have moved : head - tail = head - (tail + 1) + 1 := by grind
  have within : distance head (tail + 1) < 2 ^ w := BitVec.isLt _
  by_cases room : distance head (tail + 1) + 1 < 2 ^ w
  · rw [distance, moved, toNat_succ room, distance]
  · -- the whole circle: then the distance would have wrapped to zero
    have full : (head - (tail + 1)).toNat + 1 = 2 ^ w := by
      have whole : distance head (tail + 1) + 1 = 2 ^ w := by omega
      exact whole
    have zero : distance head tail = 0 := by
      rw [distance, moved, BitVec.toNat_add]
      rcases Nat.eq_zero_or_pos w with rfl | wide
      · exact Nat.mod_one _
      · rw [show (1 : BitVec w).toNat = 1 from BitVec.toNat_one wide, full, Nat.mod_self]
    omega

section Slots

variable [NeZero capacity]

theorem slot_index (divides : capacity ∣ 2 ^ w) (k : ℕ) :
    (slot capacity (BitVec.ofNat w k)).val = k % capacity := by
  rw [slot, Fin.val_ofNat, BitVec.toNat_ofNat, Nat.mod_mod_of_dvd _ divides]

/-- Positions less than one capacity apart lie in different slots. -/
theorem slot_ne (divides : capacity ∣ 2 ^ w) (ordered : i < j) (window : j < i + capacity) :
    slot capacity (BitVec.ofNat w j) ≠ slot capacity (BitVec.ofNat w i) := by
  intro same
  have residues : j % capacity = i % capacity := by
    rw [← slot_index divides, ← slot_index divides, same]
  have divided : capacity ∣ j - i := (Nat.modEq_iff_dvd' ordered.le).mp residues.symm
  have large := Nat.le_of_dvd (by omega) divided
  omega

end Slots

end CanTelemetry.RingIndex
