import ParticleScene.Layer
import ParticleScene.Proofs.Number.FloatOrder

/-!
# Layers in range

The fields that scripts rely on are in range in every layer that was normalized, and a layer
with the fields in range is normal.
-/

namespace ParticleScene.Layer

/-- The fields that scripts rely on are in range. -/
structure InRange (l : Layer) : Prop where
  alpha_isFinite : l.alpha.isFinite
  zero_le_alpha : 0.0 ≤ l.alpha
  alpha_le_one : l.alpha ≤ 1.0
  one_le_repeatCount : 1 ≤ l.repeatCount
  one_le_repeatInterval : 1 ≤ l.repeatInterval

lemma one_le_max_one (n : UInt32) : 1 ≤ max n 1 := by
  change 1 ≤ if n ≤ 1 then 1 else n
  split
  · exact UInt32.le_refl 1
  · rename_i h
    exact UInt32.le_of_lt (UInt32.not_le.mp h)

lemma max_one_eq_self {n : UInt32} (h : 1 ≤ n) : max n 1 = n := by
  change (if n ≤ 1 then 1 else n) = n
  split
  · rename_i hle
    exact UInt32.le_antisymm h hle
  · rfl

lemma normalize_inRange (l : Layer) : l.normalize.InRange := by
  have halpha : l.normalize.alpha.isFinite ∧ 0.0 ≤ l.normalize.alpha ∧ l.normalize.alpha ≤ 1.0 := by
    unfold normalize
    dsimp only
    split
    · exact Number.cut_mem (by decide) (by decide) (by decide) ‹_›
    · exact ⟨by decide, by decide, by decide⟩
  obtain ⟨hfinite, hzero, hone⟩ := halpha
  exact ⟨hfinite, hzero, hone, one_le_max_one l.repeatCount, one_le_max_one l.repeatInterval⟩

lemma InRange.normalize_eq {l : Layer} (h : l.InRange) : l.normalize = l := by
  have halpha : (if l.alpha.isFinite then Number.cut 0.0 1.0 l.alpha else 1.0) = l.alpha := by
    rw [if_pos h.alpha_isFinite, Number.cut_eq_self h.zero_le_alpha h.alpha_le_one]
  rw [normalize, halpha, max_one_eq_self h.one_le_repeatCount,
    max_one_eq_self h.one_le_repeatInterval]

end ParticleScene.Layer
