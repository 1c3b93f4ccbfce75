import Mathlib.Tactic.Lemma
import ParticleScene.Text.Split

/-!
# Cutting and splitting undo joining

`cutAt?` finds the two sides of a first separator, and nothing else. Splitting gives parts that
do not hold the separator, and gives the parts back that such parts were joined from.
-/

namespace ParticleScene.Text

variable {α : Type} [DecidableEq α] {sep : α}

/-! ### Cutting -/

lemma cutAt?_eq_some_iff {s before after : List α} :
    cutAt? sep s = some (before, after) ↔ s = before ++ sep :: after ∧ sep ∉ before := by
  induction s generalizing before with
  | nil => simp [cutAt?]
  | cons c rest ih =>
    by_cases hc : c = sep
    · subst hc
      rw [cutAt?, if_pos rfl]
      constructor
      · rintro ⟨⟩
        exact ⟨rfl, by simp⟩
      · rintro ⟨heq, hbefore⟩
        cases before with
        | nil => simp_all
        | cons d before => simp_all
    · rw [cutAt?, if_neg hc]
      cases before with
      | nil => simp [hc]
      | cons d before =>
        simp only [Option.map_eq_some_iff, Prod.exists, Prod.mk.injEq, List.cons.injEq,
          List.cons_append, List.mem_cons, not_or]
        constructor
        · rintro ⟨_, _, hcut, ⟨rfl, rfl⟩, rfl⟩
          obtain ⟨hrest, hbefore⟩ := ih.mp hcut
          exact ⟨⟨rfl, hrest⟩, Ne.symm hc, hbefore⟩
        · rintro ⟨⟨rfl, hrest⟩, -, hbefore⟩
          exact ⟨before, after, ih.mpr ⟨hrest, hbefore⟩, ⟨rfl, rfl⟩, rfl⟩

lemma cutAt?_eq_none_iff {s : List α} : cutAt? sep s = none ↔ sep ∉ s := by
  induction s with
  | nil => simp [cutAt?]
  | cons c rest ih =>
    by_cases hc : c = sep
    · simp [cutAt?, hc]
    · simp [cutAt?, hc, ih, Ne.symm hc]

/-! ### Splitting -/

/-- Splitting is that of the library. -/
lemma splitOn_eq_listSplitOn (sep : α) (s : List α) : splitOn sep s = s.splitOn sep := by
  induction s with
  | nil => simp [splitOn]
  | cons c rest ih =>
    rw [splitOn, ih, List.splitOn_cons_eq_if_modifyHead]
    cases h : rest.splitOn sep with
    | nil => exact (List.splitOn_ne_nil _ _ h).elim
    | cons part parts => simp [beq_iff_eq, List.modifyHead]

lemma splitOn_intercalate {parts : List (List α)} (hne : parts ≠ [])
    (hparts : ∀ part ∈ parts, sep ∉ part) : splitOn sep ([sep].intercalate parts) = parts := by
  rw [splitOn_eq_listSplitOn]
  exact List.splitOn_intercalate sep hparts hne

lemma not_mem_of_mem_splitOn {s part : List α} (h : part ∈ splitOn sep s) : sep ∉ part := by
  induction s generalizing part with
  | nil => simp_all [splitOn]
  | cons c rest ih =>
    by_cases hc : c = sep
    · rw [splitOn, if_pos hc] at h
      rcases List.mem_cons.mp h with rfl | h
      · exact List.not_mem_nil
      · exact ih h
    · rw [splitOn, if_neg hc] at h
      cases hrest : splitOn sep rest with
      | nil => simp_all [Ne.symm hc]
      | cons first parts =>
        simp only [hrest, List.mem_cons] at h ih
        rcases h with rfl | h
        · simpa [Ne.symm hc] using ih (.inl rfl)
        · exact ih (.inr h)

end ParticleScene.Text
