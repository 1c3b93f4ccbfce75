import Mathlib.Data.List.Perm.Basic
import Mathlib.Tactic.Lemma
import ParticleScene.Geometry.Tour

/-!
# A tour visits everything once

Each round of a tour takes one of the positions that are not seen yet, whatever their distances
are, so the order of a tour is a permutation of the indices.
-/

namespace ParticleScene.Tour

variable {here : Position}

/-- The nearest position is one of those that were looked at. -/
lemma nearestFrom_lt {best : Nat × Float} {place : Nat} (hbest : best.1 < place)
    (unseen : List (Nat × Position)) :
    (nearestFrom here best place unseen).1 < place + unseen.length := by
  induction unseen generalizing best place with
  | nil => exact hbest
  | cons q rest ih =>
    rw [nearestFrom, List.length_cons, Nat.add_comm rest.length, ← Nat.add_assoc]
    apply ih
    split
    · exact Nat.lt_succ_of_lt hbest
    · exact Nat.lt_succ_self place

lemma nearest_lt {unseen : List (Nat × Position)} (hunseen : unseen ≠ []) :
    nearest here unseen < unseen.length := by
  obtain ⟨q, rest, rfl⟩ := List.exists_cons_of_ne_nil hunseen
  rw [nearest, List.length_cons, Nat.add_comm]
  exact nearestFrom_lt Nat.zero_lt_one rest

/-- A round goes to the nearest of the positions that are not seen yet. -/
lemma visit_succ (here : Position) {rounds : Nat} {unseen : List (Nat × Position)}
    (hrounds : unseen.length = rounds + 1) :
    ∃ i p, unseen[nearest here unseen]? = some (i, p) ∧
      (unseen.eraseIdx (nearest here unseen)).length = rounds ∧
      visit here (rounds + 1) unseen =
        i :: visit p rounds (unseen.eraseIdx (nearest here unseen)) := by
  have hlt : nearest here unseen < unseen.length :=
    nearest_lt (List.ne_nil_of_length_eq_add_one hrounds)
  rcases hitem : unseen[nearest here unseen] with ⟨i, p⟩
  have hget : unseen[nearest here unseen]? = some (i, p) := by
    rw [List.getElem?_eq_getElem hlt, hitem]
  refine ⟨i, p, hget, ?_, ?_⟩
  · rw [List.length_eraseIdx_of_lt hlt, hrounds, Nat.add_sub_cancel]
  · simp only [visit, hget]

/-- With a round for each position that is not seen yet, all of them are visited. -/
lemma visit_perm (rounds : Nat) {unseen : List (Nat × Position)}
    (hrounds : unseen.length = rounds) :
    (visit here rounds unseen).Perm (unseen.map Prod.fst) := by
  induction rounds generalizing here unseen with
  | zero =>
    obtain rfl := List.eq_nil_of_length_eq_zero hrounds
    exact .nil
  | succ rounds ih =>
    obtain ⟨i, p, hget, hrest, hvisit⟩ := visit_succ here hrounds
    obtain ⟨hlt, hitem⟩ := List.getElem?_eq_some_iff.mp hget
    rw [hvisit]
    refine ((ih hrest).cons i).trans ?_
    have hperm := (List.getElem_cons_eraseIdx_perm hlt).map Prod.fst
    rwa [hitem] at hperm

/-- The positions behind the first one are numbered from one on. -/
lemma map_fst_zipIdx (rest : List Position) :
    ((rest.zipIdx 1).map fun x => (x.2, x.1)).map Prod.fst = List.range' 1 rest.length := by
  rw [List.map_map, ← List.zipIdx_map_snd 1 rest]
  rfl

/-- A tour visits each position once. -/
lemma order_perm (ps : List Position) : (order ps).Perm (List.range ps.length) := by
  cases ps with
  | nil => exact .nil
  | cons p rest =>
    rw [List.length_cons, List.range_eq_range', List.range'_succ, ← map_fst_zipIdx]
    exact (visit_perm rest.length (by simp)).cons 0

end ParticleScene.Tour
