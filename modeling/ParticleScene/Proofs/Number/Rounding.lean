import Mathlib
import ParticleScene.Number.Shortest

/-!
# Rounding to the nearest float

Arithmetic on floats computes more digits than a mantissa holds, with two bits for what lies
behind them, and rounds. What these bits mean is stated over the rationals. The main statement:
whatever lies among the reals that round to a float is rounded to it, also where the first guess of
the exponent is one too low.
-/

namespace ParticleScene.Number

open Float.Model Float.Model.UnpackedFloat

/-! ### Residual bits -/

/-- The numbers that a mantissa with residual bits stands for: the mantissa is the whole part, and
the bits say how the rest compares to nothing and to one half. -/
def Represents (em : ExtendedMantissa) (y : ℚ) : Prop :=
  match em.roundBit, em.stickyBit with
  | false, false => y = em.mantissa
  | false, true => em.mantissa < y ∧ y < em.mantissa + 1 / 2
  | true, false => y = em.mantissa + 1 / 2
  | true, true => em.mantissa + 1 / 2 < y ∧ y < em.mantissa + 1

variable {em : ExtendedMantissa} {x y : ℚ} {m M k : ℕ} {e t : ℤ} {acc : Accuracy}

lemma Represents.bounds (h : Represents em y) : em.mantissa ≤ y ∧ y < em.mantissa + 1 := by
  obtain ⟨m, r, s⟩ := em
  cases r <;> cases s <;> simp only [Represents] at h ⊢ <;> constructor <;> linarith

lemma Represents.shiftRightOne (h : Represents em y) : Represents em.shiftRightOne (y / 2) := by
  obtain ⟨m, r, s⟩ := em
  have hm : (m : ℚ) = 2 * (m / 2 : ℕ) + (m % 2 : ℕ) := by exact_mod_cast (Nat.div_add_mod m 2).symm
  rw [ExtendedMantissa.shiftRightOne]
  obtain hmod | hmod := Nat.mod_two_eq_zero_or_one m
  all_goals
    rw [hmod] at hm ⊢
    push_cast at hm
    cases r <;> cases s <;> simp [Represents] at h ⊢
    all_goals first | constructor <;> linarith | linarith

lemma Represents.shiftRight (h : Represents em y) (k : ℕ) : Represents (em >>> k) (y / 2 ^ k) := by
  induction k with
  | zero =>
    rw [pow_zero, div_one]
    exact h
  | succ k ih =>
    rw [pow_succ, ← div_div]
    exact ih.shiftRightOne

/-- A number that has `M` as the nearest whole number, or as the even one of two. -/
def RoundsTo (y : ℚ) (M : ℕ) : Prop :=
  if M % 2 = 0 then 2 * (M : ℚ) - 1 ≤ 2 * y ∧ 2 * y ≤ 2 * M + 1
  else 2 * (M : ℚ) - 1 < 2 * y ∧ 2 * y < 2 * M + 1

lemma RoundsTo.bounds (h : RoundsTo y M) : 2 * (M : ℚ) - 1 ≤ 2 * y ∧ 2 * y ≤ 2 * M + 1 := by
  rw [RoundsTo] at h
  split_ifs at h
  · exact h
  · exact ⟨h.1.le, h.2.le⟩

/-- A mantissa with residual bits is rounded as the numbers that it stands for. -/
lemma Represents.roundedMantissa_eq (h : Represents em y) (hM : RoundsTo y M) :
    em.roundedMantissa = M := by
  obtain ⟨m, r, s⟩ := em
  have hbounds := hM.bounds
  rw [ExtendedMantissa.roundedMantissa]
  cases r <;> cases s <;> simp only [Represents] at h <;>
    simp only [ExtendedMantissa.accuracy, Accuracy.roundToNearestEven]
  case false.false =>
    have hlt : m < M + 1 := by exact_mod_cast (by linarith : (m : ℚ) < M + 1)
    have hgt : M < m + 1 := by exact_mod_cast (by linarith : (M : ℚ) < m + 1)
    omega
  case false.true =>
    have hlt : m < M + 1 := by exact_mod_cast (by linarith : (m : ℚ) < M + 1)
    have hgt : M < m + 1 := by exact_mod_cast (by linarith : (M : ℚ) < m + 1)
    omega
  case true.true =>
    have hlt : m + 1 < M + 1 := by exact_mod_cast (by linarith : (m : ℚ) + 1 < M + 1)
    have hgt : M < m + 2 := by exact_mod_cast (by linarith : (M : ℚ) < m + 2)
    omega
  case true.false =>
    -- the half between two whole numbers goes to the even one
    have hle : m ≤ M := by exact_mod_cast (by linarith : (m : ℚ) ≤ M)
    have hge : M ≤ m + 1 := by exact_mod_cast (by linarith : (M : ℚ) ≤ m + 1)
    rw [RoundsTo] at hM
    split_ifs at hM with heven
    · omega
    · have hlt : m < M := by exact_mod_cast (by linarith : (m : ℚ) < M)
      have hgt : M < m + 1 := by exact_mod_cast (by linarith : (M : ℚ) < m + 1)
      omega

/-! ### Exponents -/

/-- The exponent at which a mantissa has 53 digits, or the least exponent. -/
def target (m : ℕ) (e : ℤ) : ℤ :=
  max (m.log2 + e - 52) (-1074)

lemma targetExponent_eq (m : ℕ) (e : ℤ) :
    Format.binary64.targetExponent (totalExponent m e) = target m e := by
  simp only [Format.targetExponent, totalExponent, Format.mantissaBits, Format.minExponent, target]
  omega

lemma shiftToTargetExponent_eq (he : e ≤ target m e) (acc : Accuracy) :
    shiftToTargetExponent Format.binary64 m e acc =
      (ExtendedMantissa.ofMantissaAndAccuracy m acc >>> (target m e - e).toNat, target m e) := by
  have hexponent : e + ((target m e - e).toNat : ℤ) = target m e := by omega
  simp only [shiftToTargetExponent, targetExponent_eq, shiftToExponent, hexponent]

lemma roundWithAccuracy_eq {em' : ExtendedMantissa} {E : ℤ} (s : Sign)
    (hfirst : shiftToTargetExponent Format.binary64 m e acc = (em, t))
    (hround : em.roundedMantissa = k)
    (hsecond : shiftToTargetExponent Format.binary64 k t .exact = (em', E))
    (hmantissa : em'.mantissa = M) (hM : 0 < M) :
    roundWithAccuracy Format.binary64 s m e acc = .finite s M E hM := by
  subst hmantissa
  simp only [roundWithAccuracy, hfirst, hround, hsecond]
  rw [dif_neg hM.ne']

/-! ### Magnitudes -/

/-- The magnitude of a finite float. -/
structure Binary.Fits (b : Binary) : Prop where
  mantissa_lt : b.mantissa < 2 ^ 53
  le_exponent : -1074 ≤ b.exponent
  exponent_le : b.exponent ≤ 971
  normal_or_least : 2 ^ 52 ≤ b.mantissa ∨ b.exponent = -1074

/-- The lower end of the interval that rounds to a magnitude, in quarters of the last place. -/
def Binary.lowEnd (b : Binary) : ℚ :=
  4 * b.mantissa - if b.isNarrowBelow then 1 else 2

/-- The rationals that round to a magnitude. -/
def Binary.Nearest (b : Binary) (x : ℚ) : Prop :=
  if b.mantissa % 2 = 0 then
    b.lowEnd ≤ 4 * (x / 2 ^ b.exponent) ∧ 4 * (x / 2 ^ b.exponent) ≤ 4 * b.mantissa + 2
  else b.lowEnd < 4 * (x / 2 ^ b.exponent) ∧ 4 * (x / 2 ^ b.exponent) < 4 * b.mantissa + 2

variable {b : Binary}

lemma Binary.Nearest.bounds (h : b.Nearest x) :
    b.lowEnd ≤ 4 * (x / 2 ^ b.exponent) ∧ 4 * (x / 2 ^ b.exponent) ≤ 4 * b.mantissa + 2 := by
  rw [Nearest] at h
  split_ifs at h
  · exact h
  · exact ⟨h.1.le, h.2.le⟩

lemma Binary.le_lowEnd (b : Binary) : 4 * (b.mantissa : ℚ) - 2 ≤ b.lowEnd := by
  rw [lowEnd]
  split_ifs <;> linarith

lemma Binary.Nearest.roundsTo (h : b.Nearest x) : RoundsTo (x / 2 ^ b.exponent) b.mantissa := by
  have hlow := b.le_lowEnd
  rw [Nearest] at h
  rw [RoundsTo]
  split_ifs at h ⊢ <;> constructor <;> linarith [h.1, h.2]

lemma log2_lt_of_lt {n : ℤ} (hm : m ≠ 0) (hle : (m : ℚ) ≤ y) (hlt : y < 2 ^ n) :
    (m.log2 : ℤ) < n := by
  have hpow : ((2 ^ m.log2 : ℕ) : ℚ) ≤ m := by exact_mod_cast Nat.log2_self_le hm
  rw [← zpow_lt_zpow_iff_right₀ (one_lt_two : (1 : ℚ) < 2), zpow_natCast]
  calc (2 : ℚ) ^ m.log2 = ((2 ^ m.log2 : ℕ) : ℚ) := by push_cast; rfl
    _ ≤ y := hpow.trans hle
    _ < 2 ^ n := hlt

lemma lt_log2_of_le {n : ℤ} (hlt : y < m + 1) (hle : 2 ^ n ≤ y) : n < m.log2 + 1 := by
  have hpow : ((m + 1 : ℕ) : ℚ) ≤ ((2 ^ (m.log2 + 1) : ℕ) : ℚ) := by
    exact_mod_cast Nat.lt_log2_self
  rw [← zpow_lt_zpow_iff_right₀ (one_lt_two : (1 : ℚ) < 2)]
  calc (2 : ℚ) ^ n ≤ y := hle
    _ < ((m + 1 : ℕ) : ℚ) := by push_cast; exact hlt
    _ ≤ ((2 ^ (m.log2 + 1) : ℕ) : ℚ) := hpow
    _ = 2 ^ ((m.log2 : ℤ) + 1) := by push_cast; rw [← zpow_natCast]; push_cast; rfl

/-- A number measured in units of another last place. -/
lemma div_zpow_eq (x : ℚ) (e t : ℤ) : x / 2 ^ e = x / 2 ^ t * 2 ^ (t - e) := by
  rw [zpow_sub₀ two_ne_zero, div_mul_div_cancel₀ (zpow_ne_zero t two_ne_zero)]

variable {E n : ℤ}

/-- A number below `2 ^ n` places puts its mantissa no higher than there. -/
lemma target_le (he : e ≤ target m e) (hle : (m : ℚ) ≤ x / 2 ^ e) (hlt : x / 2 ^ E < 2 ^ n)
    (hn : -1074 ≤ E + n - 53) : target m e ≤ E + n - 53 := by
  rw [target] at he ⊢
  by_cases hm : m = 0
  · subst hm
    simp only [Nat.log2_zero, Nat.cast_zero] at he ⊢
    omega
  · have hscaled : x / 2 ^ e < 2 ^ (n + (E - e)) := by
      rw [div_zpow_eq x e E, zpow_add₀ two_ne_zero]
      exact mul_lt_mul_of_pos_right hlt (zpow_pos two_pos _)
    have hlog := log2_lt_of_lt hm hle hscaled
    omega

lemma le_target (hlt : x / 2 ^ e < m + 1) (hle : 2 ^ n ≤ x / 2 ^ E) : E + n - 52 ≤ target m e := by
  have hscaled : 2 ^ (n + (E - e)) ≤ x / 2 ^ e := by
    rw [div_zpow_eq x e E, zpow_add₀ two_ne_zero]
    exact mul_le_mul_of_nonneg_right hle (zpow_pos two_pos _).le
  have hlog := lt_log2_of_le hlt hscaled
  rw [target]
  omega

lemma Binary.lowEnd_of_narrow (hsame : b.mantissa = 2 ^ 52) (hexponent : -1074 < b.exponent) :
    b.lowEnd = 4 * 2 ^ 52 - 1 := by
  have hnarrow : b.isNarrowBelow := by
    rw [isNarrowBelow, hsame, Bool.and_eq_true, decide_eq_true_eq, decide_eq_true_eq]
    exact ⟨rfl, hexponent⟩
  rw [lowEnd, if_pos hnarrow, hsame]
  norm_num

/-- A number that rounds to a magnitude gets its exponent. Only just below a power of two the
exponent is one lower at first. -/
lemma target_eq_or (hb : b.Fits) (hx : b.Nearest x) (he : e ≤ target m e)
    (hle : (m : ℚ) ≤ x / 2 ^ e) (hlt : x / 2 ^ e < m + 1) :
    target m e = b.exponent ∨
      (target m e = b.exponent - 1 ∧ -1074 < b.exponent ∧ b.mantissa = 2 ^ 52 ∧
        x / 2 ^ b.exponent < 2 ^ 52) := by
  have hlow := b.le_lowEnd
  have hbounds := hx.bounds
  have hmantissa : (b.mantissa : ℚ) + 1 ≤ 2 ^ 53 := by exact_mod_cast hb.mantissa_lt
  have htop : target m e ≤ b.exponent := by
    have hbelow : x / 2 ^ b.exponent < 2 ^ (53 : ℤ) := by
      rw [show (53 : ℤ) = (53 : ℕ) from rfl, zpow_natCast]
      linarith
    have h := target_le he hle hbelow (by linarith [hb.le_exponent])
    omega
  by_cases hleast : b.exponent = -1074
  · left
    have hmax : -1074 ≤ target m e := le_max_right _ _
    omega
  have hnormal := hb.normal_or_least.resolve_right hleast
  have hexponent := hb.le_exponent
  by_cases hbinade : 2 ^ 52 ≤ x / 2 ^ b.exponent
  · left
    have h := le_target (n := 52) hlt hbinade
    omega
  right
  have hsame : b.mantissa = 2 ^ 52 := by
    by_contra hne
    have hmore : ((2 ^ 52 + 1 : ℕ) : ℚ) ≤ b.mantissa := by exact_mod_cast (by omega)
    push_cast at hmore
    linarith
  have hhalf : 2 ^ (51 : ℤ) ≤ x / 2 ^ b.exponent := by
    rw [Binary.lowEnd_of_narrow hsame (by omega)] at hbounds
    norm_num
    linarith
  have hbelow : x / 2 ^ b.exponent < 2 ^ (52 : ℤ) := not_le.mp hbinade
  have h₁ := le_target hlt hhalf
  have h₂ := target_le he hle hbelow (by omega)
  exact ⟨by omega, by omega, hsame, not_le.mp hbinade⟩

lemma mantissa_ofMantissaAndAccuracy (m : ℕ) (acc : Accuracy) :
    (ExtendedMantissa.ofMantissaAndAccuracy m acc).mantissa = m := by
  cases acc with
  | exact => rfl
  | inexact o => cases o <;> rfl

lemma mantissa_shiftRight (em : ExtendedMantissa) (n : ℕ) :
    (em >>> n).mantissa = em.mantissa / 2 ^ n := by
  induction n with
  | zero => exact (Nat.div_one _).symm
  | succ n ih =>
    rw [pow_succ, ← Nat.div_div_eq_div_mul, ← ih]
    rfl

/-- The mantissa of a magnitude has its exponent. -/
lemma Binary.Fits.target_eq (hb : b.Fits) (hpos : 0 < b.mantissa) :
    target b.mantissa b.exponent = b.exponent := by
  have hlog : b.mantissa.log2 < 53 := (Nat.log2_lt hpos.ne').mpr hb.mantissa_lt
  have hexponent := hb.le_exponent
  rw [target]
  obtain hnormal | hleast := hb.normal_or_least
  · have hge : 52 ≤ b.mantissa.log2 := (Nat.le_log2 hpos.ne').mpr hnormal
    omega
  · omega

/-- What lies among the numbers that round to a magnitude is rounded to it. -/
theorem roundWithAccuracy_of_nearest (s : Sign) (hb : b.Fits) (hpos : 0 < b.mantissa)
    (hx : b.Nearest x)
    (hrep : Represents (ExtendedMantissa.ofMantissaAndAccuracy m acc) (x / 2 ^ e))
    (he : e ≤ target m e) :
    roundWithAccuracy Format.binary64 s m e acc = .finite s b.mantissa b.exponent hpos := by
  obtain ⟨hle, hlt⟩ := mantissa_ofMantissaAndAccuracy m acc ▸ hrep.bounds
  have hfirst := shiftToTargetExponent_eq he acc
  have hshifted : Represents
      (ExtendedMantissa.ofMantissaAndAccuracy m acc >>> (target m e - e).toNat)
      (x / 2 ^ target m e) := by
    have h := hrep.shiftRight (target m e - e).toNat
    have hscale : x / 2 ^ e / 2 ^ (target m e - e).toNat = x / 2 ^ target m e := by
      rw [div_div, ← zpow_natCast, ← zpow_add₀ two_ne_zero]
      congr 2
      omega
    rwa [hscale] at h
  obtain htarget | ⟨htarget, hexponent, hsame, hbelow⟩ := target_eq_or hb hx he hle hlt
  · rw [htarget] at hshifted hfirst
    have hround := hshifted.roundedMantissa_eq hx.roundsTo
    have hsecond := shiftToTargetExponent_eq (hb.target_eq hpos).ge .exact
    rw [hb.target_eq hpos, sub_self] at hsecond
    exact roundWithAccuracy_eq s hfirst hround hsecond
      ((mantissa_shiftRight _ 0).trans (Nat.div_one _)) hpos
  · -- rounding carries into a new digit, and the second shift drops the last one
    rw [htarget] at hshifted hfirst
    have hdouble : x / 2 ^ (b.exponent - 1) = 2 * (x / 2 ^ b.exponent) := by
      rw [div_zpow_eq x _ b.exponent, sub_sub_cancel, zpow_one, mul_comm]
    have hcarry : RoundsTo (x / 2 ^ (b.exponent - 1)) (2 ^ 53) := by
      have hlow := hx.bounds.1
      rw [Binary.lowEnd_of_narrow hsame hexponent] at hlow
      rw [RoundsTo, if_pos (by norm_num), hdouble]
      push_cast
      constructor <;> linarith
    have hround := hshifted.roundedMantissa_eq hcarry
    have hnext : target (2 ^ 53) (b.exponent - 1) = b.exponent := by
      rw [target, Nat.log2_two_pow]
      omega
    have hsecond := shiftToTargetExponent_eq (hnext.ge.trans' (sub_one_lt _).le) .exact
    rw [hnext, sub_sub_cancel] at hsecond
    refine roundWithAccuracy_eq s hfirst hround hsecond ?_ hpos
    rw [mantissa_shiftRight, hsame]
    rfl

end ParticleScene.Number
