import Mathlib.Tactic.Lemma
import ParticleScene.Number.Binary

/-!
# The order of floats

Floats that are numbers are compared in one of three ways, and the comparison the other way
round is the opposite one. So of two finite floats one is at most the other, and cutting into a
range ends in the range and keeps what lies in it.
-/

namespace ParticleScene.Number

open Float.Model (UnpackedFloat)

/-! ### Comparisons -/

lemma compare_swap (a b : UnpackedFloat) : b.compare a = (a.compare b).map Ordering.swap := by
  cases a with
  | notANumber => cases b <;> rfl
  | infinity s =>
    cases b with
    | notANumber => cases s <;> rfl
    | infinity t => cases s <;> cases t <;> rfl
    | zero t => cases s <;> rfl
    | finite t _ _ _ => cases s <;> cases t <;> rfl
  | zero s =>
    cases b with
    | notANumber => rfl
    | infinity t => cases t <;> rfl
    | zero t => rfl
    | finite t _ _ _ => cases t <;> rfl
  | finite s m e _ =>
    cases b with
    | notANumber => cases s <;> rfl
    | infinity t => cases s <;> cases t <;> rfl
    | zero t => cases s <;> rfl
    | finite t n k _ =>
      have hmagnitude : (compare k e).then (compare n m) =
          ((compare e k).then (compare m n)).swap := by
        rw [Ordering.swap_then, Std.OrientedOrd.eq_swap (a := k), Std.OrientedOrd.eq_swap (a := n)]
      cases s <;> cases t
      · exact congrArg (fun o => some o.swap) hmagnitude
      · rfl
      · rfl
      · exact congrArg some hmagnitude

lemma compare_isSome {a b : UnpackedFloat} (ha : a.isFinite) (hb : b.isFinite) :
    (a.compare b).isSome := by
  cases a with
  | notANumber => cases ha
  | infinity s => cases ha
  | zero s =>
    cases b with
    | notANumber => cases hb
    | infinity t => cases hb
    | zero t => rfl
    | finite t _ _ _ => cases t <;> rfl
  | finite s _ _ _ =>
    cases b with
    | notANumber => cases hb
    | infinity t => cases hb
    | zero t => cases s <;> rfl
    | finite t _ _ _ => cases s <;> cases t <;> rfl

/-- How two floats compare, unless one is not a number. -/
def order? (x y : Float) : Option Ordering :=
  x.toModel.unpack.compare y.toModel.unpack

lemma order?_swap (x y : Float) : order? y x = (order? x y).map Ordering.swap :=
  compare_swap ..

lemma order?_isSome {x y : Float} (hx : x.isFinite) (hy : y.isFinite) : (order? x y).isSome :=
  compare_isSome hx hy

lemma lt_iff_order? {x y : Float} : x < y ↔ order? x y = some .lt := by
  change (decide (x.toModel < y.toModel) = true) ↔ _
  rw [decide_eq_true_iff]
  exact beq_iff_eq

lemma le_iff_order? {x y : Float} : x ≤ y ↔ order? x y = some .lt ∨ order? x y = some .eq := by
  change (decide (x.toModel ≤ y.toModel) = true) ↔ _
  rw [decide_eq_true_iff]
  change (order? x y).any (·.isLE) = true ↔ _
  cases order? x y with
  | none => simp
  | some o => cases o <;> simp

/-! ### The order -/

variable {x y lo hi : Float}

lemma not_lt_of_le (h : x ≤ y) : ¬ y < x := by
  rw [lt_iff_order?, order?_swap]
  rcases le_iff_order?.mp h with h | h <;> simp [h]

lemma le_of_not_lt (hx : x.isFinite) (hy : y.isFinite) (h : ¬ y < x) : x ≤ y := by
  obtain ⟨o, ho⟩ := Option.isSome_iff_exists.mp (order?_isSome hx hy)
  rw [lt_iff_order?, order?_swap, ho] at h
  rw [le_iff_order?, ho]
  cases o <;> simp_all

lemma le_refl_of_isFinite (hx : x.isFinite) : x ≤ x := by
  apply le_of_not_lt hx hx
  intro h
  have hswap := order?_swap x x
  rw [lt_iff_order?.mp h] at hswap
  cases hswap

/-! ### Cutting -/

lemma cut_eq_self (hlo : lo ≤ x) (hhi : x ≤ hi) : cut lo hi x = x := by
  rw [cut, if_neg (not_lt_of_le hlo), if_neg (not_lt_of_le hhi)]

/-- A finite float is cut into the range. -/
lemma cut_mem (hlo : lo.isFinite) (hhi : hi.isFinite) (hle : lo ≤ hi) (hx : x.isFinite) :
    (cut lo hi x).isFinite ∧ lo ≤ cut lo hi x ∧ cut lo hi x ≤ hi := by
  unfold cut
  split
  · exact ⟨hlo, le_refl_of_isFinite hlo, hle⟩
  · split
    · exact ⟨hhi, hle, le_refl_of_isFinite hhi⟩
    · exact ⟨hx, le_of_not_lt hlo hx ‹_›, le_of_not_lt hx hhi ‹_›⟩

end ParticleScene.Number
