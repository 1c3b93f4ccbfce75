import Mathlib.Data.List.DropRight
import ParticleScene.Text.Blank

/-!
# Trimmed text

A list is trimmed when it neither starts nor ends with a blank. Cutting blanks off makes a
trimmed part of a list, and leaves a trimmed list as it is. The words of a list are not touched by
it, and a list has a word unless nothing is left of it.
-/

namespace ParticleScene.Text

/-- Neither end of the list is blank. -/
structure IsTrimmed (s : List Char) : Prop where
  head : ∀ c ∈ s.head?, ¬ isBlank c
  last : ∀ c ∈ s.getLast?, ¬ isBlank c

lemma trimChars_eq_rdropWhile (s : List Char) :
    trimChars s = (s.dropWhile isBlank).rdropWhile isBlank := rfl

lemma isTrimmed_nil : IsTrimmed [] := ⟨by simp, by simp⟩

lemma isTrimmed_of_all {s : List Char} (h : s.all fun c => !isBlank c) : IsTrimmed s := by
  have hs : ∀ c ∈ s, ¬ isBlank c := by simpa using h
  exact ⟨fun c hc => hs c (List.mem_of_mem_head? hc), fun c hc => hs c (List.mem_of_getLast? hc)⟩

lemma isTrimmed_trimChars (s : List Char) : IsTrimmed (trimChars s) := by
  rw [trimChars_eq_rdropWhile]
  constructor
  · intro c hc
    -- what is left at the front was there before the end was cut
    obtain ⟨cut, hcut⟩ := List.rdropWhile_prefix isBlank (s.dropWhile isBlank)
    have hhead : (s.dropWhile isBlank).head? = some c := by
      rw [← hcut, List.head?_append, Option.mem_def.mp hc, Option.some_or]
    have := List.head?_dropWhile_not isBlank s
    simp_all
  · intro c hc
    obtain ⟨hne, rfl⟩ := List.mem_getLast?_eq_getLast hc
    exact List.rdropWhile_last_not _ _ hne

lemma IsTrimmed.trimChars_eq {s : List Char} (h : IsTrimmed s) : trimChars s = s := by
  have hfront : s.dropWhile isBlank = s := by
    cases s with
    | nil => rfl
    | cons c rest => exact List.dropWhile_cons_of_neg (h.head c rfl)
  rw [trimChars_eq_rdropWhile, hfront, List.rdropWhile_eq_self_iff]
  intro hne
  exact h.last _ (List.getLast?_eq_some_getLast hne)

lemma trimChars_subset (s : List Char) : trimChars s ⊆ s := by
  rw [trimChars_eq_rdropWhile]
  intro c hc
  exact (List.dropWhile_suffix _).subset ((List.rdropWhile_prefix ..).subset hc)

/-! ### Words -/

section

variable {c : Char}

lemma wordsFrom_nil (word : List Char) :
    wordsFrom word [] = if word.isEmpty then [] else [word.reverse] := rfl

lemma wordsFrom_cons (word s : List Char) :
    wordsFrom word (c :: s) =
      if isBlank c then
        if word.isEmpty then wordsFrom [] s else word.reverse :: wordsFrom [] s
      else wordsFrom (c :: word) s := rfl

lemma wordsFrom_append_blank (hc : isBlank c) (word s : List Char) :
    wordsFrom word (s ++ [c]) = wordsFrom word s := by
  induction s generalizing word with
  | nil => cases word <;> simp [wordsFrom_nil, wordsFrom_cons, hc]
  | cons d s ih =>
    rw [List.cons_append, wordsFrom_cons, wordsFrom_cons]
    simp only [ih]

lemma words_append_blank (hc : isBlank c) (s : List Char) : words (s ++ [c]) = words s :=
  wordsFrom_append_blank hc [] s

lemma words_cons_blank (hc : isBlank c) (s : List Char) : words (c :: s) = words s := by
  rw [words, wordsFrom_cons, if_pos hc]
  rfl

lemma words_dropWhile (s : List Char) : words (s.dropWhile isBlank) = words s := by
  induction s with
  | nil => rfl
  | cons c s ih =>
    by_cases hc : isBlank c
    · rw [List.dropWhile_cons_of_pos hc, ih, words_cons_blank hc]
    · rw [List.dropWhile_cons_of_neg hc]

lemma words_rdropWhile (s : List Char) : words (s.rdropWhile isBlank) = words s := by
  induction s using List.reverseRecOn with
  | nil => rfl
  | append_singleton s c ih =>
    by_cases hc : isBlank c
    · rw [List.rdropWhile_concat_pos _ _ _ hc, ih, words_append_blank hc]
    · rw [List.rdropWhile_concat_neg _ _ _ hc]

lemma words_trimChars (s : List Char) : words (trimChars s) = words s := by
  rw [trimChars_eq_rdropWhile, words_rdropWhile, words_dropWhile]

/-- A word that is begun is finished. -/
lemma exists_wordsFrom_eq_cons {word : List Char} (hword : word ≠ []) (s : List Char) :
    ∃ rest ws, wordsFrom word s = (word.reverse ++ rest) :: ws := by
  induction s generalizing word with
  | nil => exact ⟨[], [], by simp [wordsFrom_nil, hword]⟩
  | cons c s ih =>
    rw [wordsFrom_cons]
    by_cases hc : isBlank c
    · exact ⟨[], wordsFrom [] s, by simp [hc, hword]⟩
    · obtain ⟨rest, ws, h⟩ := ih (List.cons_ne_nil c word)
      exact ⟨c :: rest, ws, by simp [hc, h]⟩

/-- A character that is no blank begins the first word. -/
lemma exists_words_cons (hc : ¬ isBlank c) (s : List Char) :
    ∃ rest ws, words (c :: s) = (c :: rest) :: ws := by
  rw [words, wordsFrom_cons, if_neg hc]
  exact exists_wordsFrom_eq_cons (List.cons_ne_nil c []) s

/-- The first word of a list begins where the blanks at its front end. -/
lemma exists_words_of_trimChars {s line : List Char} (hs : trimChars s = c :: line) :
    ∃ rest ws, words s = (c :: rest) :: ws := by
  rw [← words_trimChars, hs]
  refine exists_words_cons ?_ line
  exact (isTrimmed_trimChars s).head c (by rw [hs]; rfl)

end

end ParticleScene.Text
