import Mathlib.Data.Prod.Lex
import ParticleScene.Proofs.Number.FloatOrder

/-!
# Floats by rank

A float that is a number has a rank, by its kind first, then by its exponent and at last by its
digits, and two of them compare as their ranks do. So floats that are numbers, infinite ones
included, are in linear order, in which the two zeros share a place.
-/

namespace ParticleScene.Number

open Float.Model (UnpackedFloat)

/-- A kind with an exponent and digits, the kind counting first and the digits last. -/
def rankOf (kind exponent digits : Int) : Int ×ₗ Int ×ₗ Int :=
  toLex (kind, toLex (exponent, digits))

/-- The place of a float among those that are numbers. -/
def unpackedRank : UnpackedFloat → Int ×ₗ Int ×ₗ Int
  | .infinity .negative => rankOf (-2) 0 0
  | .finite .negative digits exponent _ => rankOf (-1) (-exponent) (-digits)
  | .zero _ => rankOf 0 0 0
  | .finite .positive digits exponent _ => rankOf 1 exponent digits
  | .infinity .positive => rankOf 2 0 0
  | .notANumber => rankOf 3 0 0

def rank (x : Float) : Int ×ₗ Int ×ₗ Int :=
  unpackedRank x.toModel.unpack

/-! ### Comparisons of ranks -/

lemma compare_rankOf (k k' e e' m m' : Int) : compare (rankOf k e m) (rankOf k' e' m') =
    (compare k k').then ((compare e e').then (compare m m')) := by
  simp only [rankOf, Prod.Lex.compare_def, compareLex, compareOn, ofLex_toLex]

lemma rankOf_inj {k k' e e' m m' : Int} :
    rankOf k e m = rankOf k' e' m' ↔ k = k' ∧ e = e' ∧ m = m' := by
  simp only [rankOf, toLex_inj, Prod.mk.injEq]

lemma compare_natCast (m n : Nat) : compare (m : Int) (n : Int) = compare m n := by
  simp only [compare, compareOfLessAndEq, Int.ofNat_lt, Int.natCast_inj]

lemma compare_neg (a b : Int) : compare (-a) (-b) = (compare a b).swap := by
  rw [Std.OrientedOrd.eq_swap (a := a), Ordering.swap_swap]
  simp [compare, compareOfLessAndEq, eq_comm]

/-- Floats that are numbers compare as their ranks do. -/
lemma compare_eq_compare_rank {a b : UnpackedFloat} (ha : a.isNaN = false) (hb : b.isNaN = false) :
    a.compare b = some (compare (unpackedRank a) (unpackedRank b)) := by
  cases a with
  | notANumber => cases ha
  | infinity s =>
    cases b with
    | notANumber => cases hb
    | infinity t => cases s <;> cases t <;> rfl
    | zero t => cases s <;> rfl
    | finite t n k hn => cases s <;> cases t <;> rfl
  | zero s =>
    cases b with
    | notANumber => cases hb
    | infinity t => cases t <;> rfl
    | zero t => rfl
    | finite t n k hn => cases t <;> rfl
  | finite s m e hm =>
    cases b with
    | notANumber => cases hb
    | infinity t => cases s <;> cases t <;> rfl
    | zero t => cases s <;> rfl
    | finite t n k hn =>
      -- Exponents and digits are looked at only if the signs are the same.
      cases s <;> cases t
      · change _ = some (compare (rankOf (-1) (-e) (-m)) (rankOf (-1) (-k) (-n)))
        rw [compare_rankOf, compare_neg e k, compare_neg m n, compare_natCast,
          ← Ordering.swap_then]
        rfl
      · rfl
      · rfl
      · change _ = some (compare (rankOf 1 e m) (rankOf 1 k n))
        rw [compare_rankOf, compare_natCast]
        rfl

variable {x y : Float}

lemma order?_eq_compare_rank (hx : x.isNaN = false) (hy : y.isNaN = false) :
    order? x y = some (compare (rank x) (rank y)) :=
  compare_eq_compare_rank hx hy

lemma lt_iff_rank_lt (hx : x.isNaN = false) (hy : y.isNaN = false) : x < y ↔ rank x < rank y := by
  rw [lt_iff_order?, order?_eq_compare_rank hx hy, Option.some.injEq, compare_lt_iff_lt]

lemma le_iff_rank_le (hx : x.isNaN = false) (hy : y.isNaN = false) : x ≤ y ↔ rank x ≤ rank y := by
  rw [le_iff_order?, order?_eq_compare_rank hx hy, Option.some.injEq, Option.some.injEq,
    compare_lt_iff_lt, compare_eq_iff_eq, le_iff_lt_or_eq]

lemma beq_iff_rank_eq (hx : x.isNaN = false) (hy : y.isNaN = false) :
    x == y ↔ rank x = rank y := by
  have horder : (order? x y == some .eq) = true ↔ rank x = rank y := by
    rw [beq_iff_eq, order?_eq_compare_rank hx hy, Option.some.injEq, compare_eq_iff_eq]
  exact horder

end ParticleScene.Number
