import Mathlib.Data.List.Basic
import ParticleScene.Proofs.Script.RepeatField

/-!
# What collapsed runs mean

A particle command with the number `n` in its repeat field means `n` copies of what stands around
the number; any other line means itself. Collapsing the runs of a list of lines keeps the meaning
of the list in which runs of lines other than particle commands are thinned out to one line.
-/

namespace ParticleScene.Runs

/-! ### Runs -/

section

variable {α : Type} [DecidableEq α]

/-- The first run of a list that is not empty is one of its first item. -/
lemma group_cons_eq (a : α) (rest : List α) : ∃ n runs, group (a :: rest) = (a, n + 1) :: runs := by
  rw [group]
  split
  · rename_i b n runs _
    by_cases hab : a = b
    · subst hab
      exact ⟨n, runs, if_pos rfl⟩
    · exact ⟨0, (b, n) :: runs, if_neg hab⟩
  · exact ⟨0, [], rfl⟩

lemma group_cons_cons_self (a : α) (rest : List α) :
    ∃ n runs, group (a :: rest) = (a, n + 1) :: runs ∧
      group (a :: a :: rest) = (a, n + 2) :: runs := by
  obtain ⟨n, runs, h⟩ := group_cons_eq a rest
  exact ⟨n, runs, h, by rw [group, h]; simp⟩

lemma group_cons_cons_of_ne {a b : α} (hab : a ≠ b) (rest : List α) :
    group (a :: b :: rest) = (a, 1) :: group (b :: rest) := by
  obtain ⟨n, runs, h⟩ := group_cons_eq b rest
  rw [group, h]
  simp [hab]

/-- Neighbouring items are equal or start different runs. -/
lemma group_induction {motive : List α → Prop} (nil : motive []) (single : ∀ a, motive [a])
    (same : ∀ a rest, motive (a :: rest) → motive (a :: a :: rest))
    (next : ∀ a b rest, a ≠ b → motive (b :: rest) → motive (a :: b :: rest)) (xs : List α) :
    motive xs := by
  induction xs with
  | nil => exact nil
  | cons a rest ih =>
    cases rest with
    | nil => exact single a
    | cons b rest =>
      by_cases hab : a = b
      · subst hab
        exact same a rest ih
      · exact next a b rest hab ih

/-- The items of a list of runs. -/
def expand (runs : List (α × Nat)) : List α :=
  runs.flatMap fun run => List.replicate run.2 run.1

/-- The runs of a list spell the list. -/
lemma expand_group (xs : List α) : expand (group xs) = xs := by
  induction xs using group_induction with
  | nil => rfl
  | single a => rfl
  | same a rest ih =>
    obtain ⟨n, runs, hone, htwo⟩ := group_cons_cons_self a rest
    rw [hone] at ih
    rw [htwo, ← ih]
    simp [expand, List.replicate_succ]
  | next a b rest hab ih =>
    rw [group_cons_cons_of_ne hab]
    simpa [expand] using ih

lemma group_pos {xs : List α} {run : α × Nat} (h : run ∈ group xs) : 1 ≤ run.2 := by
  induction xs using group_induction with
  | nil => simp [group] at h
  | single a => simp_all [group]
  | same a rest ih =>
    obtain ⟨n, runs, hone, htwo⟩ := group_cons_cons_self a rest
    rw [hone] at ih
    rw [htwo] at h
    rcases List.mem_cons.mp h with rfl | h
    · omega
    · exact ih (List.mem_cons_of_mem _ h)
  | next a b rest hab ih =>
    rw [group_cons_cons_of_ne hab] at h
    rcases List.mem_cons.mp h with rfl | h
    · exact Nat.le_refl 1
    · exact ih h

/-- A run ends only where another item begins. -/
lemma group_isChain (xs : List α) : (group xs).IsChain fun run next => run.1 ≠ next.1 := by
  induction xs using group_induction with
  | nil => exact .nil
  | single a => exact .singleton _
  | same a rest ih =>
    obtain ⟨n, runs, hone, htwo⟩ := group_cons_cons_self a rest
    rw [hone] at ih
    rw [htwo]
    cases runs with
    | nil => exact .singleton _
    | cons next runs =>
      obtain ⟨hne, hchain⟩ := List.isChain_cons_cons.mp ih
      exact .cons_cons hne hchain
  | next a b rest hab ih =>
    obtain ⟨n, runs, h⟩ := group_cons_eq b rest
    rw [group_cons_cons_of_ne hab]
    rw [h] at ih ⊢
    exact .cons_cons hab ih

/-- The copies of a run stand in a row. -/
lemma replicate_infix_of_mem_group {xs : List α} {run : α × Nat} (h : run ∈ group xs) :
    List.replicate run.2 run.1 <:+: xs := by
  have hmem : List.replicate run.2 run.1 ∈
      (group xs).map fun run => List.replicate run.2 run.1 := List.mem_map_of_mem h
  have hinfix := List.infix_of_mem_flatten hmem
  rwa [← List.flatMap_def, ← expand, expand_group] at hinfix

end

/-! ### Meaning -/

/-- What a line contributes to a script. -/
inductive Meaning where
  /-- One copy of what stands around the number of a particle command. -/
  | copy (before after : List Char)
  /-- A line that is no particle command. -/
  | line (text : String)
  deriving Repr, DecidableEq

/-- The meaning of a line: as many copies as a particle command asks for, or the line itself. -/
def meaning (line : String) : List Meaning :=
  match particleField? line with
  | some (f, n) => List.replicate n (.copy f.before f.after)
  | none => [.line line]

/-- A list without the lines that repeat the line before, except for particle commands. -/
def thin : List String → List String
  | [] => []
  | line :: rest =>
    if rest.head? = some line ∧ particleField? line = none then thin rest
    else line :: thin rest

/-- What thinning makes of a run. -/
def thinRun (run : String × Nat) : List String :=
  if particleField? run.1 = none then [run.1] else List.replicate run.2 run.1

lemma thin_eq_flatMap_group (lines : List String) : thin lines = (group lines).flatMap thinRun := by
  induction lines using group_induction with
  | nil => rfl
  | single line => by_cases h : particleField? line = none <;> simp [thin, thinRun, group, h]
  | same line rest ih =>
    obtain ⟨n, runs, hone, htwo⟩ := group_cons_cons_self line rest
    rw [hone, List.flatMap_cons] at ih
    rw [htwo, thin, ih, List.flatMap_cons]
    by_cases h : particleField? line = none <;> simp [thinRun, h, List.replicate_succ]
  | next line other rest hne ih =>
    rw [group_cons_cons_of_ne hne, thin, ih, List.flatMap_cons]
    by_cases h : particleField? line = none <;> simp [thinRun, h, hne.symm]

/-- A particle command with the number of a whole run means what the run means. -/
lemma meaning_applyRepeat {line : String} {count : Nat} (hcount : 1 ≤ count)
    (hfits : ∀ f n, particleField? line = some (f, n) → n * count ≤ maxRepeat) :
    meaning (applyRepeat line count) = (thinRun (line, count)).flatMap meaning := by
  cases hfield : particleField? line with
  | none => simp [applyRepeat, thinRun, hfield]
  | some field =>
    obtain ⟨f, n⟩ := field
    have hcopies : (List.replicate count line).flatMap meaning =
        List.replicate (n * count) (.copy f.before f.after) := by
      have hline : meaning line = List.replicate n (.copy f.before f.after) := by
        simp [meaning, hfield]
      rw [List.flatMap_replicate, hline, List.flatten_replicate_replicate, Nat.mul_comm]
    rw [thinRun, if_neg (by simp [hfield]), hcopies]
    by_cases hone : count = 1
    · simp [applyRepeat, hone, meaning, hfield]
    · have hfit := hfits f n hfield
      have happly : applyRepeat line count =
          String.ofList f.before ++ toString (n * count) ++ String.ofList f.after := by
        rw [applyRepeat, if_neg (by omega), hfield]
        simp only [Nat.min_eq_left hfit]
      rw [meaning, happly, particleField?_withNumber hfield hfit]

/-- Collapsing runs keeps the meaning of a script. A particle command is a line with the mark of
particle commands whose first repeat field holds a number; no run of one may mean more copies
than a repeat field can hold. Each run, and nothing else, becomes one line. -/
theorem meaning_collapse (lines : List String)
    (hfits : ∀ line count f n, List.replicate count line <:+: lines →
      particleField? line = some (f, n) → n * count ≤ maxRepeat) :
    (∀ line f n, particleField? line = some (f, n) ↔
      particleMark <:+: line.toList ∧ IsRepeatField line.toList f ∧ f.value? = some n) ∧
    (collapse lines).flatMap meaning = (thin lines).flatMap meaning ∧
    ∃ runs, lines = expand runs ∧ (∀ run ∈ runs, 1 ≤ run.2) ∧
      (runs.IsChain fun run next => run.1 ≠ next.1) ∧
      collapse lines = runs.map fun run => applyRepeat run.1 run.2 := by
  refine ⟨fun _ _ _ => particleField?_eq_some_iff, ?_, group lines, (expand_group lines).symm,
    fun _ => group_pos, group_isChain lines, rfl⟩
  rw [thin_eq_flatMap_group, collapse, List.flatMap_map, List.flatMap_assoc]
  apply List.flatMap_congr
  intro run hrun
  exact meaning_applyRepeat (group_pos hrun) fun f n =>
    hfits run.1 run.2 f n (replicate_infix_of_mem_group hrun)

/-- A run of two particle commands before a run of two other lines. -/
def twoRuns : List String :=
  ["effect:particles\x7brepeat=2;", "effect:particles\x7brepeat=2;", "x", "x"]

/-- Two runs, of which the first becomes one command for four copies. -/
theorem meaning_collapse_twoRuns :
    (∀ line count f n, List.replicate count line <:+: twoRuns →
      particleField? line = some (f, n) → n * count ≤ maxRepeat) ∧
    (collapse twoRuns).flatMap meaning = (thin twoRuns).flatMap meaning ∧
    collapse twoRuns = ["effect:particles\x7brepeat=4;", "x"] := by
  have hfits : ∀ line count f n, List.replicate count line <:+: twoRuns →
      particleField? line = some (f, n) → n * count ≤ maxRepeat := by
    intro line count f n hrun hfield
    have hcount : count ≤ twoRuns.length := by simpa using hrun.length_le
    by_cases hzero : count = 0
    · simp [hzero]
    · have hmem : line ∈ twoRuns := hrun.subset (List.mem_replicate.mpr ⟨hzero, rfl⟩)
      have hn : n ≤ 2 := by
        have hall : ∀ line ∈ twoRuns, ∀ g ∈ particleField? line, g.2 ≤ 2 := by decide
        exact hall line hmem _ hfield
      calc n * count ≤ 2 * twoRuns.length := Nat.mul_le_mul hn hcount
        _ ≤ maxRepeat := by decide
  obtain ⟨-, hmeaning, -⟩ := meaning_collapse twoRuns hfits
  exact ⟨hfits, hmeaning, by decide⟩

end ParticleScene.Runs
