import Mathlib.Data.List.Basic
import ParticleScene.Script.Compile

/-!
# The order of shown layers

A list is in tick order when start ticks ascend and layers of one tick keep the order that they
had before. At most one list is in tick order for given layers, and `Compile.ordered` finds it.
Leaving layers out commutes with bringing them into order.
-/

namespace ParticleScene

/-- Whether a layer starts at a tick. -/
def Layer.startsAt (t : Int64) (l : Layer) : Bool :=
  l.tickStart = t

/-- The list `sorted` holds the layers of `ls` in the order of their start ticks, and those of
one tick in the order of `ls`. -/
structure InTickOrder (ls sorted : List Layer) : Prop where
  ascending : sorted.Pairwise fun a b => a.tickStart.toInt ≤ b.tickStart.toInt
  stable : ∀ t, sorted.filter (Layer.startsAt t) = ls.filter (Layer.startsAt t)

namespace InTickOrder

variable {ls xs ys : List Layer}

lemma mem_iff (h : InTickOrder ls xs) (l : Layer) : l ∈ xs ↔ l ∈ ls := by
  have hmem : ∀ ks : List Layer, l ∈ ks ↔ l ∈ ks.filter (Layer.startsAt l.tickStart) := by
    intro ks
    simp [Layer.startsAt]
  rw [hmem xs, hmem ls, h.stable]

lemma eq_nil_iff (h : InTickOrder ls xs) : xs = [] ↔ ls = [] := by
  simp only [List.eq_nil_iff_forall_not_mem, h.mem_iff]

/-- Tick order survives leaving layers out. -/
lemma filter (h : InTickOrder ls xs) (p : Layer → Bool) :
    InTickOrder (ls.filter p) (xs.filter p) where
  ascending := h.ascending.filter p
  stable t := by
    rw [List.filter_comm, h.stable t, List.filter_comm]

/-- A first layer starts no later than any other. -/
private lemma head_le {x : Layer} (h : InTickOrder ls (x :: xs)) {l : Layer} (hl : l ∈ ls) :
    x.tickStart.toInt ≤ l.tickStart.toInt := by
  rcases List.mem_cons.mp ((h.mem_iff l).mpr hl) with rfl | hl
  · exact Int.le_refl _
  · exact List.rel_of_pairwise_cons h.ascending hl

/-- The first layer is the first of those with the least start tick. -/
private lemma head_eq {x y : Layer} (hx : InTickOrder ls (x :: xs))
    (hy : InTickOrder ls (y :: ys)) : x = y := by
  have hxy := hx.head_le ((hy.mem_iff y).mp List.mem_cons_self)
  have hyx := hy.head_le ((hx.mem_iff x).mp List.mem_cons_self)
  have htick : x.tickStart = y.tickStart := Int64.toInt_inj.mp (Int.le_antisymm hxy hyx)
  have h := (hx.stable x.tickStart).trans (hy.stable x.tickStart).symm
  rw [List.filter_cons_of_pos (by simp [Layer.startsAt]),
    List.filter_cons_of_pos (by simp [Layer.startsAt, htick])] at h
  exact (List.cons.inj h).1

/-- There is one tick order. -/
lemma unique (hx : InTickOrder ls xs) (hy : InTickOrder ls ys) : xs = ys := by
  induction xs generalizing ls ys with
  | nil => exact (hy.eq_nil_iff.mpr (hx.eq_nil_iff.mp rfl)).symm
  | cons x xs ih =>
    cases ys with
    | nil => exact hx.eq_nil_iff.mpr (hy.eq_nil_iff.mp rfl)
    | cons y ys =>
      obtain rfl := head_eq hx hy
      -- the tails are both in tick order for the first of the two tails
      have htail : InTickOrder xs ys := by
        refine ⟨hy.ascending.tail, fun t => ?_⟩
        have h := (hy.stable t).trans (hx.stable t).symm
        rw [List.filter_cons, List.filter_cons] at h
        split at h
        · exact (List.cons.inj h).2
        · exact h
      rw [ih ⟨hx.ascending.tail, fun _ => rfl⟩ htail]

end InTickOrder

namespace Compile

/-- The order of start ticks on layers, as the sort uses it. -/
private lemma tickStart_total (a b : Layer) :
    decide (a.tickStart.toInt ≤ b.tickStart.toInt) ||
      decide (b.tickStart.toInt ≤ a.tickStart.toInt) := by
  simp [Int.le_total]

private lemma tickStart_trans (a b c : Layer) (hab : decide (a.tickStart.toInt ≤ b.tickStart.toInt))
    (hbc : decide (b.tickStart.toInt ≤ c.tickStart.toInt)) :
    decide (a.tickStart.toInt ≤ c.tickStart.toInt) := by
  simp only [decide_eq_true_eq] at *
  exact Int.le_trans hab hbc

/-- Layers of one tick stand in the sorted list as they stood before. -/
private lemma filter_startsAt_mergeSort (ls : List Layer) (t : Int64) :
    (ls.mergeSort fun a b => a.tickStart.toInt ≤ b.tickStart.toInt).filter (Layer.startsAt t) =
      ls.filter (Layer.startsAt t) := by
  have hpairwise : (ls.filter (Layer.startsAt t)).Pairwise
      fun a b => decide (a.tickStart.toInt ≤ b.tickStart.toInt) = true := by
    apply List.pairwise_of_forall_mem_list
    intro a ha b hb
    simp only [List.mem_filter, Layer.startsAt, decide_eq_true_eq] at ha hb
    simp [ha.2, hb.2]
  have hsub := List.sublist_mergeSort tickStart_trans tickStart_total hpairwise
    List.filter_sublist
  have hsub := hsub.filter (Layer.startsAt t)
  rw [List.filter_filter] at hsub
  simp only [Bool.and_self] at hsub
  refine (hsub.eq_of_length ?_).symm
  exact ((List.mergeSort_perm ls _).filter _).length_eq.symm

theorem ordered_inTickOrder (ls : List Layer) :
    InTickOrder (ls.filter Layer.isShown) (ordered ls) where
  ascending := by
    have h := List.pairwise_mergeSort tickStart_trans tickStart_total (ls.filter Layer.isShown)
    exact h.imp (by simp)
  stable t := filter_startsAt_mergeSort _ t

/-- It makes no difference whether layers are left out before or after they are ordered. -/
lemma ordered_filter (p : Layer → Bool) (ls : List Layer) :
    ordered (ls.filter p) = (ordered ls).filter p := by
  have h := ordered_inTickOrder (ls.filter p)
  rw [List.filter_comm] at h
  exact h.unique ((ordered_inTickOrder ls).filter p)

lemma mem_ordered {ls : List Layer} {l : Layer} : l ∈ ordered ls ↔ l ∈ ls ∧ l.isShown := by
  rw [(ordered_inTickOrder ls).mem_iff, List.mem_filter]

end Compile

end ParticleScene
