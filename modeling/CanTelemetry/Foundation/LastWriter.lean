import Mathlib.Data.List.Induction
import Mathlib.Data.List.Nodup
import Mathlib.Data.List.Perm.Basic
import Mathlib.Order.Lattice

/-! The last-writer-wins register. Each write carries a stamp of a linear order; a
write replaces the stored one when its stamp is strictly greater, so the register
holds the first write of the greatest stamp, and the order of arrival is of no
consequence when the stamps are distinct. -/

namespace CanTelemetry.LastWriter

variable {W K : Type*} [LinearOrder K] {stamp : W → K}

def write (stamp : W → K) : Option W → W → Option W
  | none, w => some w
  | some c, w => if stamp c < stamp w then some w else some c

/-- The register after a sequence of writes. -/
def written (stamp : W → K) (ws : List W) : Option W := ws.foldl (write stamp) none

/-- `c` has the greatest stamp, and no earlier write has the same. -/
def FirstLatest (stamp : W → K) (ws : List W) (c : W) : Prop :=
  ∃ before after, ws = before ++ c :: after ∧ (∀ w ∈ before, stamp w < stamp c) ∧
    ∀ w ∈ after, stamp w ≤ stamp c

@[simp] theorem written_nil : written stamp [] = none := rfl

theorem written_concat (ws : List W) (w : W) :
    written stamp (ws ++ [w]) = write stamp (written stamp ws) w := by
  simp [written]

theorem FirstLatest.le {ws : List W} {c : W} (h : FirstLatest stamp ws c) :
    ∀ w ∈ ws, stamp w ≤ stamp c := by
  obtain ⟨before, after, rfl, hbefore, hafter⟩ := h
  intro w hw
  rcases List.mem_append.mp hw with hw | hw
  · exact le_of_lt (hbefore w hw)
  · rcases List.mem_cons.mp hw with rfl | hw
    · exact le_refl _
    · exact hafter w hw

theorem FirstLatest.mem {ws : List W} {c : W} (h : FirstLatest stamp ws c) : c ∈ ws := by
  obtain ⟨before, after, rfl, -, -⟩ := h
  simp

/-- A write that the register ignores leaves the first latest one in place. -/
theorem FirstLatest.concat_of_le {ws : List W} {c w : W} (h : FirstLatest stamp ws c)
    (hw : stamp w ≤ stamp c) : FirstLatest stamp (ws ++ [w]) c := by
  obtain ⟨before, after, rfl, hbefore, hafter⟩ := h
  refine ⟨before, after ++ [w], by simp, hbefore, ?_⟩
  intro v hv
  rcases List.mem_append.mp hv with hv | hv
  · exact hafter v hv
  · rw [List.mem_singleton.mp hv]
    exact hw

/-- A write later than all before it is the first latest one. -/
theorem FirstLatest.concat {ws : List W} {w : W} (h : ∀ v ∈ ws, stamp v < stamp w) :
    FirstLatest stamp (ws ++ [w]) w :=
  ⟨ws, [], rfl, h, by simp⟩

/-- The register is empty before the first write and holds the first latest one
from then on. -/
theorem written_firstLatest (stamp : W → K) (ws : List W) :
    (ws = [] ∧ written stamp ws = none) ∨
      ∃ c, written stamp ws = some c ∧ FirstLatest stamp ws c := by
  induction ws using List.reverseRecOn with
  | nil => exact Or.inl ⟨rfl, rfl⟩
  | append_singleton ws w ih =>
    right
    rw [written_concat]
    rcases ih with ⟨rfl, hnone⟩ | ⟨c, hc, hlatest⟩
    · rw [hnone]
      exact ⟨w, rfl, FirstLatest.concat (by simp)⟩
    · rw [hc]
      by_cases hlt : stamp c < stamp w
      · refine ⟨w, by rw [write, if_pos hlt], FirstLatest.concat ?_⟩
        intro v hv
        exact lt_of_le_of_lt (hlatest.le v hv) hlt
      · exact ⟨c, by rw [write, if_neg hlt], hlatest.concat_of_le (not_lt.mp hlt)⟩

/-- Among writes of distinct stamps the order of arrival is of no consequence. -/
theorem written_eq_of_perm {ws ws' : List W} (distinct : (ws.map stamp).Nodup)
    (perm : ws.Perm ws') : written stamp ws = written stamp ws' := by
  rcases written_firstLatest stamp ws with ⟨rfl, hnone⟩ | ⟨c, hc, hlatest⟩
  · rw [List.nil_perm.mp perm]
  · rcases written_firstLatest stamp ws' with ⟨rfl, -⟩ | ⟨d, hd, hlatest'⟩
    · rw [List.perm_nil.mp perm]
    · have hmem : d ∈ ws := perm.mem_iff.mpr hlatest'.mem
      have heq : stamp c = stamp d :=
        le_antisymm (hlatest'.le c (perm.mem_iff.mp hlatest.mem)) (hlatest.le d hmem)
      rw [hc, hd, List.inj_on_of_nodup_map distinct hlatest.mem hmem heq]

end CanTelemetry.LastWriter
