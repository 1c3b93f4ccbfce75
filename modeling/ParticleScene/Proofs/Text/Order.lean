import Mathlib.Data.String.Basic
import Mathlib.Tactic.Lemma

/-!
# The order of texts

Texts are ordered by the first character in which they differ. Where two parts of equal length
differ, what stands behind them does not matter.
-/

namespace ParticleScene.Text

lemma append_lt_append_chars {s t : List Char} (h : s < t) (hlength : s.length = t.length)
    (x y : List Char) : s ++ x < t ++ y := by
  induction s generalizing t with
  | nil =>
    rw [List.eq_nil_of_length_eq_zero hlength.symm] at h
    exact absurd h (lt_irrefl _)
  | cons c s ih =>
    obtain _ | ⟨d, t⟩ := t
    · cases hlength
    · rw [List.cons_append, List.cons_append, List.cons_lt_cons_iff]
      exact (List.cons_lt_cons_iff.mp h).imp_right fun ⟨hc, h⟩ => ⟨hc, ih h (Nat.succ.inj hlength)⟩

variable {s t x y : String}

lemma append_lt_append (h : s < t) (hlength : s.length = t.length) (x y : String) :
    s ++ x < t ++ y := by
  rw [String.lt_iff, String.toList_append, String.toList_append]
  rw [← String.length_toList, ← String.length_toList] at hlength
  exact append_lt_append_chars (String.lt_iff.mp h) hlength x.toList y.toList

lemma append_lt_append_left (s : String) (h : x < y) : s ++ x < s ++ y := by
  rw [String.lt_iff, String.toList_append, String.toList_append]
  exact List.append_left_lt (String.lt_iff.mp h)

/-- Parts of equal length are compared before what stands behind them. -/
lemma append_lt_append_lex (hlength : s.length = t.length)
    (h : s < t ∨ s = t ∧ x < y) : s ++ x < t ++ y := by
  rcases h with h | ⟨rfl, h⟩
  · exact append_lt_append h hlength x y
  · exact append_lt_append_left s h

end ParticleScene.Text
