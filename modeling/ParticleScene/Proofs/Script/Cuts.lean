import Mathlib.Data.List.Chain
import ParticleScene.Proofs.Script.Runs

/-!
# Lists cut at marked lines

A list of lines is cut at the lines of some kind into those lines and the segments between them.
Where no two lines of the kind stand next to each other, collapsing the runs of the list leaves
them alone and collapses each segment on its own.
-/

namespace ParticleScene.Runs

/-! ### Runs end between different lines -/

section

variable {α : Type} [DecidableEq α]

lemma group_append {xs ys : List α} (h : ∀ a ∈ xs.getLast?, ∀ b ∈ ys.head?, a ≠ b) :
    group (xs ++ ys) = group xs ++ group ys := by
  induction xs using group_induction with
  | nil => rfl
  | single a =>
    cases ys with
    | nil => rfl
    | cons b rest => exact group_cons_cons_of_ne (h a rfl b rfl) rest
  | same a rest ih =>
    obtain ⟨n, runs, hone, htwo⟩ := group_cons_cons_self a rest
    obtain ⟨n', runs', hone', htwo'⟩ := group_cons_cons_self a (rest ++ ys)
    have hrest := ih h
    rw [List.cons_append, hone, hone', List.cons_append, List.cons.injEq, Prod.mk.injEq] at hrest
    obtain ⟨⟨-, hn⟩, rfl⟩ := hrest
    rw [List.cons_append, List.cons_append, htwo, htwo', List.cons_append, Nat.succ.inj hn]
  | next a b rest hab ih =>
    rw [List.cons_append, List.cons_append, group_cons_cons_of_ne hab, group_cons_cons_of_ne hab,
      List.cons_append, ← List.cons_append, ih h]

end

lemma collapse_append {xs ys : List String} (h : ∀ a ∈ xs.getLast?, ∀ b ∈ ys.head?, a ≠ b) :
    collapse (xs ++ ys) = collapse xs ++ collapse ys := by
  rw [collapse, group_append h, List.map_append]
  rfl

lemma collapse_singleton (line : String) : collapse [line] = [line] := rfl

/-! ### Cuts -/

variable {marked : String → Bool} {lines first : List String}
variable {rest : List (String × List String)}

/-- The lines are `first` and then each marked line with the lines up to the next one. -/
structure IsCut (marked : String → Bool) (lines first : List String)
    (rest : List (String × List String)) : Prop where
  lines_eq : lines = first ++ rest.flatMap fun (mark, segment) => mark :: segment
  marks : ∀ p ∈ rest, marked p.1
  first_unmarked : ∀ line ∈ first, ¬ marked line
  rest_unmarked : ∀ p ∈ rest, ∀ line ∈ p.2, ¬ marked line

/-- No two marked lines stand next to each other. -/
def MarksApart (marked : String → Bool) (lines : List String) : Prop :=
  lines.IsChain fun line next => ¬ (marked line ∧ marked next)

/-- Every list can be cut. -/
lemma exists_isCut (marked : String → Bool) (lines : List String) :
    ∃ first rest, IsCut marked lines first rest := by
  induction lines with
  | nil => exact ⟨[], [], rfl, by simp, by simp, by simp⟩
  | cons line lines ih =>
    obtain ⟨first, rest, rfl, hmarks, hfirst, hrest⟩ := ih
    by_cases hline : marked line
    · refine ⟨[], (line, first) :: rest, rfl, ?_, by simp, ?_⟩
      · exact List.forall_mem_cons.mpr ⟨hline, hmarks⟩
      · exact List.forall_mem_cons.mpr ⟨hfirst, hrest⟩
    · exact ⟨line :: first, rest, rfl, hmarks, List.forall_mem_cons.mpr ⟨hline, hfirst⟩, hrest⟩

/-- Collapsing leaves marked lines that stand apart in their places. -/
lemma collapse_of_isCut (hcut : IsCut marked lines first rest) (hapart : MarksApart marked lines) :
    collapse lines =
      collapse first ++ rest.flatMap fun (mark, segment) => mark :: collapse segment := by
  obtain ⟨rfl, hmarks, hfirst, hrest⟩ := hcut
  induction rest generalizing first with
  | nil => simp
  | cons p rest ih =>
    obtain ⟨mark, segment⟩ := p
    obtain ⟨hmark, hmarks⟩ := List.forall_mem_cons.mp hmarks
    obtain ⟨hsegment, hrest⟩ := List.forall_mem_cons.mp hrest
    rw [List.flatMap_cons, List.cons_append, MarksApart, List.isChain_append] at hapart
    obtain ⟨-, htail, -⟩ := hapart
    obtain ⟨hnext, htail⟩ := List.isChain_cons.mp htail
    have hbefore : ∀ a ∈ first.getLast?, a ≠ mark := by
      rintro a ha rfl
      exact hfirst a (List.mem_of_getLast? ha) hmark
    have hbehind : ∀ b ∈ (segment ++ rest.flatMap fun p => p.1 :: p.2).head?, mark ≠ b := by
      rintro b hb rfl
      exact hnext mark hb ⟨hmark, hmark⟩
    rw [List.flatMap_cons, List.flatMap_cons, collapse_append (by simpa using hbefore),
      List.cons_append, ← List.singleton_append, collapse_append (by simpa using hbehind),
      collapse_singleton, ih hmarks hsegment hrest htail]
    rfl

end ParticleScene.Runs
