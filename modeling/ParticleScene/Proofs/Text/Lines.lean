import Mathlib.Data.List.Basic
import Mathlib.Tactic.Lemma
import ParticleScene.Text.Split

/-!
# Lines written and split again

A text that ends every given line with a line feed is split into the lines of each of them, one
after the other. A line with line feeds in it is split at each of them, and a carriage return at
its end is lost, so that exactly the lines without either come back as they were.
-/

namespace ParticleScene.Text

variable {s : List Char}

/-! ### One line end -/

lemma linesFrom_nil (line : List Char) (earlier : List (List Char)) :
    linesFrom line earlier [] =
      (if line.isEmpty then earlier else line.reverse :: earlier).reverse := rfl

lemma linesFrom_lineFeed (line : List Char) (earlier : List (List Char)) (rest : List Char) :
    linesFrom line earlier ('\n' :: rest) = linesFrom [] (closeLine line :: earlier) rest := rfl

lemma linesFrom_cons {c : Char} (hc : c ≠ '\n') (line : List Char) (earlier : List (List Char))
    (rest : List Char) : linesFrom line earlier (c :: rest) = linesFrom (c :: line) earlier rest :=
  linesFrom.eq_3 line earlier c rest hc

/-- The earlier lines come first. -/
lemma linesFrom_eq_append (line : List Char) (earlier : List (List Char)) (s : List Char) :
    linesFrom line earlier s = earlier.reverse ++ linesFrom line [] s := by
  induction s generalizing line earlier with
  | nil =>
    rw [linesFrom_nil, linesFrom_nil]
    split <;> simp
  | cons c rest ih =>
    by_cases hc : c = '\n'
    · subst hc
      rw [linesFrom_lineFeed, linesFrom_lineFeed, ih, ih [] [closeLine line]]
      simp
    · rw [linesFrom_cons hc, linesFrom_cons hc, ih]

/-- What stands behind a line feed is split on its own. -/
lemma linesFrom_append_lineFeed (line : List Char) (earlier : List (List Char))
    (s rest : List Char) :
    linesFrom line earlier (s ++ '\n' :: rest) =
      linesFrom line earlier (s ++ ['\n']) ++ lineChars rest := by
  induction s generalizing line earlier with
  | nil =>
    rw [List.nil_append, List.nil_append, linesFrom_lineFeed, linesFrom_lineFeed,
      linesFrom_eq_append]
    rfl
  | cons c s ih =>
    rw [List.cons_append, List.cons_append]
    by_cases hc : c = '\n'
    · subst hc
      exact ih ..
    · rw [linesFrom_cons hc, linesFrom_cons hc, ih]

lemma length_linesFrom (line : List Char) (earlier : List (List Char)) (s : List Char) :
    (linesFrom line earlier (s ++ ['\n'])).length = earlier.length + s.count '\n' + 1 := by
  induction s generalizing line earlier with
  | nil =>
    rw [List.nil_append, linesFrom_lineFeed]
    simp [linesFrom_nil]
  | cons c s ih =>
    rw [List.cons_append]
    by_cases hc : c = '\n'
    · subst hc
      rw [linesFrom_lineFeed, ih, List.count_cons_self, List.length_cons]
      omega
    · rw [linesFrom_cons hc, ih, List.count_cons_of_ne hc]

lemma linesFrom_of_notMem (hs : '\n' ∉ s) (line : List Char) (earlier : List (List Char)) :
    linesFrom line earlier (s ++ ['\n']) =
      (closeLine (s.reverse ++ line) :: earlier).reverse := by
  induction s generalizing line with
  | nil =>
    rw [List.nil_append, linesFrom_lineFeed]
    simp [linesFrom_nil]
  | cons c s ih =>
    obtain ⟨hc, hs⟩ := not_or.mp (mt List.mem_cons.mpr hs)
    rw [List.cons_append, linesFrom_cons (Ne.symm hc), ih hs]
    simp

/-- A line feed at the end closes the line that is begun, and that line alone. -/
lemma exists_linesFrom_lineFeed (line : List Char) (earlier : List (List Char)) (s : List Char) :
    ∃ last before, linesFrom line earlier s = linesFrom last before [] ∧
      linesFrom line earlier (s ++ ['\n']) = linesFrom last before ['\n'] := by
  induction s generalizing line earlier with
  | nil => exact ⟨line, earlier, rfl, rfl⟩
  | cons c s ih =>
    rw [List.cons_append]
    by_cases hc : c = '\n'
    · subst hc
      exact ih ..
    · rw [linesFrom_cons hc, linesFrom_cons hc]
      exact ih ..

/-- With a line feed at its end a text has a last line, which may be empty. -/
lemma exists_lineChars_lineFeed (s : List Char) :
    ∃ before last, lineChars s = before ++ (if last = [] then [] else [last]) ∧
      lineChars (s ++ ['\n']) = before ++ [closeLine last.reverse] := by
  obtain ⟨line, earlier, hs, hfeed⟩ := exists_linesFrom_lineFeed [] [] s
  refine ⟨earlier.reverse, line.reverse, ?_, ?_⟩
  · rw [lineChars, hs, linesFrom_nil]
    cases line <;> simp
  · rw [lineChars, hfeed, linesFrom_lineFeed, List.reverse_reverse]
    simp [linesFrom_nil]

/-- A line end takes a carriage return with it. -/
lemma closeLine_reverse_eq_iff : closeLine s.reverse = s ↔ s.getLast? ≠ some '\r' := by
  rw [← List.head?_reverse, closeLine.eq_def]
  split
  · rename_i line hs
    have hlength : line.length ≠ s.length := by
      rw [← s.length_reverse, hs, List.length_cons]
      exact (Nat.succ_ne_self _).symm
    refine iff_of_false (fun h => hlength ?_) fun h => h (by rw [hs]; rfl)
    rw [← h, List.length_reverse]
  · rename_i hs
    refine iff_of_true s.reverse_reverse fun h => ?_
    obtain ⟨line, hline⟩ := List.head?_eq_some_iff.mp h
    exact hs line hline

/-! ### Texts of lines -/

def HasLineFeed (s : String) : Prop :=
  '\n' ∈ s.toList

instance (s : String) : Decidable (HasLineFeed s) :=
  inferInstanceAs (Decidable ('\n' ∈ s.toList))

/-- A text that is one line, and is kept as it is when its line end is taken off. -/
def IsUnbroken (s : String) : Prop :=
  ¬ HasLineFeed s ∧ s.toList.getLast? ≠ some '\r'

instance (s : String) : Decidable (IsUnbroken s) :=
  inferInstanceAs (Decidable (_ ∧ _))

section

variable {s t : String}

lemma hasLineFeed_append : HasLineFeed (s ++ t) ↔ HasLineFeed s ∨ HasLineFeed t := by
  rw [HasLineFeed, String.toList_append, List.mem_append]
  rfl

lemma hasLineFeed_append_left (hs : ¬ HasLineFeed s) : HasLineFeed (s ++ t) ↔ HasLineFeed t := by
  rw [hasLineFeed_append, or_iff_right hs]

lemma hasLineFeed_append_right (ht : ¬ HasLineFeed t) : HasLineFeed (s ++ t) ↔ HasLineFeed s := by
  rw [hasLineFeed_append, or_iff_left ht]

lemma getLast?_append_of_eq_some {c : Char} (ht : t.toList.getLast? = some c) :
    (s ++ t).toList.getLast? = some c := by
  rw [String.toList_append, List.getLast?_append, ht]
  rfl

lemma getLast?_append_of_ne (hs : s.toList.getLast? ≠ some '\r') :
    (s ++ t).toList.getLast? = some '\r' ↔ t.toList.getLast? = some '\r' := by
  rw [String.toList_append, List.getLast?_append]
  cases t.toList.getLast? with
  | none => simpa using hs
  | some c => rfl

end

lemma toList_unlines_cons (l : String) (ls : List String) :
    (unlines (l :: ls)).toList = l.toList ++ '\n' :: (unlines ls).toList := by
  simp [unlines, String.toList_join]

/-- Lines that were written one after the other are split one after the other. -/
lemma lines_unlines_cons (l : String) (ls : List String) :
    lines (unlines (l :: ls)) = lines (l ++ "\n") ++ lines (unlines ls) := by
  rw [lines, toList_unlines_cons, lineChars, linesFrom_append_lineFeed, List.map_append, lines,
    String.toList_append]
  rfl

lemma length_lines_lineFeed (l : String) :
    (lines (l ++ "\n")).length = l.toList.count '\n' + 1 := by
  rw [lines, List.length_map, String.toList_append, lineChars, ← Nat.zero_add (List.count _ _)]
  exact length_linesFrom [] [] l.toList

lemma lines_lineFeed_eq_iff {l : String} (hl : ¬ HasLineFeed l) :
    lines (l ++ "\n") = [l] ↔ l.toList.getLast? ≠ some '\r' := by
  have hlines : lines (l ++ "\n") = [String.ofList (closeLine l.toList.reverse)] := by
    rw [lines, String.toList_append, lineChars]
    have h := linesFrom_of_notMem hl [] []
    rw [List.append_nil] at h
    exact congrArg (List.map String.ofList) h
  rw [hlines, ← closeLine_reverse_eq_iff, List.singleton_inj, ← String.toList_inj,
    String.toList_ofList]

/-- Each line feed in a line makes one more line. -/
lemma length_lines_unlines (ls : List String) :
    (lines (unlines ls)).length = ls.length + (ls.flatMap String.toList).count '\n' := by
  induction ls with
  | nil => rfl
  | cons l ls ih =>
    rw [lines_unlines_cons, List.length_append, length_lines_lineFeed, ih, List.length_cons,
      List.flatMap_cons, List.count_append]
    omega

/-- A text has exactly the lines it was written with if each of them is one. -/
lemma lines_unlines_eq_iff {ls : List String} :
    lines (unlines ls) = ls ↔ ∀ l ∈ ls, IsUnbroken l := by
  induction ls with
  | nil => exact iff_of_true rfl (by simp)
  | cons l ls ih =>
    rw [List.forall_mem_cons, ← ih, lines_unlines_cons]
    constructor
    · intro h
      have hlength := congrArg List.length h
      rw [List.length_append, length_lines_lineFeed, length_lines_unlines, List.length_cons]
        at hlength
      have hl : ¬ HasLineFeed l := List.count_eq_zero.mp (by omega)
      have hone : (lines (l ++ "\n")).length = [l].length := by
        rw [length_lines_lineFeed, List.count_eq_zero.mpr hl]
        rfl
      rw [← List.singleton_append] at h
      obtain ⟨hfirst, hrest⟩ := List.append_inj h hone
      exact ⟨⟨hl, (lines_lineFeed_eq_iff hl).mp hfirst⟩, hrest⟩
    · rintro ⟨⟨hl, hend⟩, hrest⟩
      rw [(lines_lineFeed_eq_iff hl).mpr hend, hrest]
      rfl

end ParticleScene.Text
