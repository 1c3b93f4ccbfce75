import ParticleScene.Proofs.Number.Packing

/-!
# Floats of decimals

The float that is computed for a decimal is the one that the decimal rounds to, be it from a product
or a quotient of exact floats or from a quotient of whole numbers.
-/

namespace ParticleScene.Number

open Float.Model Float.Model.UnpackedFloat

variable {b : Binary} {x : ℚ} {m m₁ m₂ : ℕ} {e e₁ e₂ : ℤ} {s₁ s₂ : Sign}

/-! ### Exact values -/

/-- The rational that a magnitude stands for. -/
def Binary.value (b : Binary) : ℚ :=
  b.mantissa * 2 ^ b.exponent

lemma Binary.value_div (b : Binary) : b.value / 2 ^ b.exponent = b.mantissa :=
  mul_div_cancel_right₀ _ (zpow_ne_zero _ two_ne_zero)

lemma Binary.nearest_value (b : Binary) : b.Nearest b.value := by
  have hlow : b.lowEnd < 4 * b.mantissa := by
    rw [lowEnd]
    split_ifs <;> linarith
  rw [Nearest, value_div]
  split_ifs
  · exact ⟨hlow.le, by linarith⟩
  · exact ⟨hlow, by linarith⟩

lemma represents_exact (m : ℕ) : Represents (ExtendedMantissa.ofMantissaAndAccuracy m .exact) m :=
  rfl

lemma roundWithAccuracy_exact (s : Sign) (hb : b.Fits) (hpos : 0 < b.mantissa) :
    roundWithAccuracy Format.binary64 s b.mantissa b.exponent .exact =
      .finite s b.mantissa b.exponent hpos := by
  have hrep := represents_exact b.mantissa
  rw [← b.value_div] at hrep
  exact roundWithAccuracy_of_nearest s hb hpos b.nearest_value hrep (hb.target_eq hpos).ge

/-! ### Products and quotients -/

lemma mul_of_nearest (hb : b.Fits) (hpos : 0 < b.mantissa) (h₁ : 0 < m₁) (h₂ : 0 < m₂)
    (hx : b.Nearest (m₁ * 2 ^ e₁ * (m₂ * 2 ^ e₂))) (he : e₁ + e₂ ≤ target (m₁ * m₂) (e₁ + e₂)) :
    UnpackedFloat.mul Format.binary64 (.finite s₁ m₁ e₁ h₁) (.finite s₂ m₂ e₂ h₂) =
      .finite (s₁ * s₂) b.mantissa b.exponent hpos := by
  have hvalue : (m₁ * 2 ^ e₁ * (m₂ * 2 ^ e₂) : ℚ) / 2 ^ (e₁ + e₂) = (m₁ * m₂ : ℕ) := by
    rw [zpow_add₀ two_ne_zero, mul_mul_mul_comm, Nat.cast_mul]
    exact mul_div_cancel_right₀ _ (mul_ne_zero (zpow_ne_zero _ two_ne_zero)
      (zpow_ne_zero _ two_ne_zero))
  have hrep := represents_exact (m₁ * m₂)
  rw [← hvalue] at hrep
  exact roundWithAccuracy_of_nearest (s₁ * s₂) hb hpos hx hrep he

/-- The whole part of a fraction, and how the rest compares to one half. -/
lemma represents_fraction (num : ℕ) {den : ℕ} (hden : 0 < den) :
    Represents (ExtendedMantissa.ofMantissaAndAccuracy (num / den)
      (accuracyOfFraction (num % den) den)) (num / den) := by
  have hden' : (0 : ℚ) < den := by exact_mod_cast hden
  have hrest : ((num % den : ℕ) : ℚ) < den := by exact_mod_cast Nat.mod_lt num hden
  have hnum : (den * (num / den : ℕ) + (num % den : ℕ) : ℚ) = num := by
    exact_mod_cast Nat.div_add_mod num den
  have hsplit : (num : ℚ) / den = (num / den : ℕ) + (num % den : ℕ) / den := by
    rw [← hnum, add_div, mul_div_cancel_left₀ _ hden'.ne']
  generalize num / den = whole at hsplit ⊢
  generalize num % den = rest at hsplit hrest ⊢
  rw [hsplit, accuracyOfFraction]
  split_ifs with hzero
  · subst hzero
    simp [Represents, ExtendedMantissa.ofMantissaAndAccuracy]
  have hpos : (0 : ℚ) < rest / den := div_pos (by exact_mod_cast Nat.pos_of_ne_zero hzero) hden'
  have hlt : (rest / den : ℚ) < 1 := (div_lt_one hden').mpr hrest
  obtain hhalf | hhalf | hhalf := lt_trichotomy (2 * rest) den
  · have hbelow : (rest / den : ℚ) < 1 / 2 := by
      rw [div_lt_div_iff₀ hden' two_pos]
      exact_mod_cast (by omega)
    rw [Nat.compare_eq_lt.mpr hhalf]
    simp only [Represents, ExtendedMantissa.ofMantissaAndAccuracy]
    exact ⟨by linarith, by linarith⟩
  · have hequal : (rest / den : ℚ) = 1 / 2 := by
      rw [div_eq_div_iff hden'.ne' two_ne_zero]
      exact_mod_cast (by omega)
    rw [Nat.compare_eq_eq.mpr hhalf, hequal]
    exact rfl
  · have habove : 1 / 2 < (rest / den : ℚ) := by
      rw [div_lt_div_iff₀ two_pos hden']
      exact_mod_cast (by omega)
    rw [Nat.compare_eq_gt.mpr hhalf]
    simp only [Represents, ExtendedMantissa.ofMantissaAndAccuracy]
    exact ⟨by linarith, by linarith⟩

/-- A quotient with this many digits has a full mantissa. -/
lemma le_log2_div {n : ℕ} (h₁ : 0 < m₁) (h₂ : 0 < m₂) (hn : 53 + m₂.log2 ≤ m₁.log2 + n) :
    52 ≤ (m₁ * 2 ^ n / m₂).log2 := by
  have hle : 2 ^ 52 * m₂ ≤ m₁ * 2 ^ n :=
    calc 2 ^ 52 * m₂ ≤ 2 ^ 52 * 2 ^ (m₂.log2 + 1) := Nat.mul_le_mul_left _ Nat.lt_log2_self.le
      _ = 2 ^ (53 + m₂.log2) := by rw [← pow_add]; congr 1; omega
      _ ≤ 2 ^ (m₁.log2 + n) := Nat.pow_le_pow_right two_pos hn
      _ = 2 ^ m₁.log2 * 2 ^ n := pow_add _ _ _
      _ ≤ m₁ * 2 ^ n := Nat.mul_le_mul_right _ (Nat.log2_self_le h₁.ne')
  have hquotient : 2 ^ 52 ≤ m₁ * 2 ^ n / m₂ := (Nat.le_div_iff_mul_le h₂).mpr hle
  exact (Nat.le_log2 ((Nat.two_pow_pos 52).trans_le hquotient).ne').mpr hquotient

lemma div_of_nearest (hb : b.Fits) (hpos : 0 < b.mantissa) (h₁ : 0 < m₁) (h₂ : 0 < m₂)
    (hx : b.Nearest (m₁ * 2 ^ e₁ / (m₂ * 2 ^ e₂))) :
    UnpackedFloat.div Format.binary64 (.finite s₁ m₁ e₁ h₁) (.finite s₂ m₂ e₂ h₂) =
      .finite (s₁ / s₂) b.mantissa b.exponent hpos := by
  obtain ⟨t, ht, htarget⟩ : ∃ t, t = min (e₁ - e₂)
      (Format.binary64.targetExponent (totalExponent m₁ e₁ - totalExponent m₂ e₂)) ∧
      t ≤ e₁ - e₂ ∧ (t ≤ -1074 ∨ t + 53 + m₂.log2 + e₂ ≤ m₁.log2 + e₁) := by
    refine ⟨_, rfl, min_le_left _ _, ?_⟩
    simp only [Format.targetExponent, totalExponent, Format.mantissaBits, Format.minExponent]
    omega
  have hquotient : UnpackedFloat.div Format.binary64 (.finite s₁ m₁ e₁ h₁) (.finite s₂ m₂ e₂ h₂) =
      roundWithAccuracy Format.binary64 (s₁ / s₂) (m₁ * 2 ^ (e₁ - e₂ - t).toNat / m₂) t
        (accuracyOfFraction (m₁ * 2 ^ (e₁ - e₂ - t).toNat % m₂) m₂) := by
    rw [UnpackedFloat.div, divCore, ← ht]
    simp only [Nat.shiftLeft_eq]
  have hrep := represents_fraction (m₁ * 2 ^ (e₁ - e₂ - t).toNat) h₂
  have hvalue : ((m₁ * 2 ^ (e₁ - e₂ - t).toNat : ℕ) : ℚ) / m₂ =
      m₁ * 2 ^ e₁ / (m₂ * 2 ^ e₂) / 2 ^ t := by
    have hshift : (2 : ℚ) ^ (e₁ - e₂ - t).toNat = 2 ^ e₁ / 2 ^ e₂ / 2 ^ t := by
      rw [← zpow_natCast, Int.toNat_of_nonneg (by omega), zpow_sub₀ two_ne_zero,
        zpow_sub₀ two_ne_zero]
    push_cast
    rw [hshift]
    ring
  rw [hvalue] at hrep
  rw [hquotient]
  refine roundWithAccuracy_of_nearest (s₁ / s₂) hb hpos hx hrep ?_
  rw [target]
  obtain hleast | hdigits := htarget.2
  · exact le_max_of_le_right hleast
  · have hlog := le_log2_div (n := (e₁ - e₂ - t).toNat) h₁ h₂ (by omega)
    omega

/-! ### Powers of ten -/

lemma le_log2_mul (h₁ : 2 ^ 52 ≤ m₁) (h₂ : 0 < m₂) : 52 ≤ (m₁ * m₂).log2 := by
  have hle : 2 ^ 52 ≤ m₁ * m₂ := h₁.trans (Nat.le_mul_of_pos_right m₁ h₂)
  exact (Nat.le_log2 ((Nat.two_pow_pos 52).trans_le hle).ne').mpr hle

lemma ofScientific_of_nearest (hb : b.Fits) (hpos : 0 < b.mantissa) (hm : 0 < m)
    (hx : b.Nearest (m * 10 ^ e)) (hle : e ≤ 2048) (hge : -(2048 + (m.log2 : ℤ)) ≤ e) :
    UnpackedFloat.ofScientific Format.binary64 m e =
      .finite .positive b.mantissa b.exponent hpos := by
  rw [UnpackedFloat.ofScientific, dif_neg hm.ne', if_neg (by change ¬ e > 2048; omega),
    if_neg (by change ¬ e < -(2048 + (m.log2 : ℤ)); omega)]
  split_ifs with hsign
  · have hpow : ((10 ^ e.toNat : ℕ) : ℚ) = 10 ^ e := by
      rw [Nat.cast_pow, ← zpow_natCast, Int.toNat_of_nonneg hsign]
      rfl
    have hshift : ((m <<< 53 : ℕ) : ℚ) * 2 ^ (-53 : ℤ) = m := by
      rw [Nat.shiftLeft_eq, zpow_neg]
      push_cast
      exact mul_inv_cancel_right₀ (by norm_num) _
    have hnear :
        b.Nearest ((m <<< 53 : ℕ) * 2 ^ (-53 : ℤ) * ((10 ^ e.toNat : ℕ) * 2 ^ (0 : ℤ))) := by
      rwa [hshift, hpow, zpow_zero, mul_one]
    refine mul_of_nearest hb hpos _ _ hnear ?_
    have hfull : 2 ^ 52 ≤ m * 2 ^ 53 := by omega
    have hlog : 52 ≤ (m * 2 ^ 53 * 10 ^ e.toNat).log2 := le_log2_mul hfull (by positivity)
    change (-53 + 0 : ℤ) ≤ target (m <<< 53 * 10 ^ e.toNat) (-53 + 0)
    rw [target, Nat.shiftLeft_eq]
    omega
  · have hpow : ((10 ^ (-e).toNat : ℕ) : ℚ) = (10 ^ e)⁻¹ := by
      rw [Nat.cast_pow, ← zpow_natCast, Int.toNat_of_nonneg (by omega), zpow_neg]
      rfl
    refine div_of_nearest hb hpos _ _ ?_
    rw [hpow, zpow_zero, mul_one, mul_one, div_inv_eq_mul]
    exact hx

/-! ### Whole numbers -/

/-- A whole number below `2 ^ 53` with a full mantissa. -/
def Binary.ofNat (n : ℕ) : Binary :=
  ⟨n * 2 ^ (52 - n.log2), n.log2 - 52⟩

variable {n : ℕ}

lemma Binary.ofNat_bounds (hpos : 0 < n) (hlt : n < 2 ^ 53) :
    n.log2 ≤ 52 ∧ 2 ^ 52 ≤ (ofNat n).mantissa ∧ (ofNat n).mantissa < 2 ^ 53 := by
  have hlog : n.log2 < 53 := (Nat.log2_lt hpos.ne').mpr hlt
  have hsplit : 2 ^ n.log2 * 2 ^ (52 - n.log2) = 2 ^ 52 := by
    rw [← pow_add]
    congr 1
    omega
  have hlow := Nat.mul_le_mul_right (2 ^ (52 - n.log2)) (Nat.log2_self_le hpos.ne')
  have hhigh := Nat.mul_lt_mul_of_pos_right (Nat.lt_log2_self (n := n))
    (Nat.two_pow_pos (52 - n.log2))
  rw [hsplit] at hlow
  rw [pow_succ, mul_right_comm, hsplit] at hhigh
  exact ⟨by omega, hlow, hhigh⟩

lemma Binary.ofNat_fits (hpos : 0 < n) (hlt : n < 2 ^ 53) : (ofNat n).Fits := by
  obtain ⟨hlog, hlow, hhigh⟩ := ofNat_bounds hpos hlt
  exact ⟨hhigh, by dsimp only [ofNat]; omega, by dsimp only [ofNat]; omega, .inl hlow⟩

lemma Binary.value_ofNat (hpos : 0 < n) (hlt : n < 2 ^ 53) : (ofNat n).value = n := by
  obtain ⟨hlog, -, -⟩ := ofNat_bounds hpos hlt
  have hscale : (2 : ℚ) ^ (52 - n.log2) * 2 ^ ((n.log2 : ℤ) - 52) = 1 := by
    rw [← zpow_natCast, ← zpow_add₀ two_ne_zero, ← zpow_zero (2 : ℚ)]
    congr 1
    omega
  rw [value, ofNat]
  push_cast
  rw [mul_assoc, hscale, mul_one]

lemma toFloat_eq (hpos : 0 < n) (hlt : n < 2 ^ 53) (hmantissa : 0 < (Binary.ofNat n).mantissa) :
    n.toUInt64.toFloat =
      .ofModel (.pack (.finite .positive _ (Binary.ofNat n).exponent hmantissa)) := by
  have hround : UnpackedFloat.ofUInt64 Format.binary64 n.toUInt64 =
      .finite .positive (Binary.ofNat n).mantissa (Binary.ofNat n).exponent hmantissa := by
    have hcast : n.toUInt64.toNat = n := UInt64.toNat_ofNat_of_lt' (hlt.trans (by decide))
    have hgt : compare (n : ℤ) 0 = .gt := Int.compare_eq_gt.mpr (by omega)
    obtain ⟨hlog, -, -⟩ := Binary.ofNat_bounds hpos hlt
    have htarget : target n 0 = n.log2 - 52 := by
      rw [target]
      omega
    have hshift : decreaseExponent n 0 (n.log2 - 52) =
        ((Binary.ofNat n).mantissa, (Binary.ofNat n).exponent) := by
      have hamount : (0 - ((n.log2 : ℤ) - 52)).toNat = 52 - n.log2 := by omega
      have hexponent : (0 : ℤ) - (52 - n.log2 : ℕ) = n.log2 - 52 := by omega
      rw [decreaseExponent, hamount, Nat.shiftLeft_eq, hexponent, Binary.ofNat]
    rw [UnpackedFloat.ofUInt64, UnpackedFloat.ofNat, UnpackedFloat.ofInt, UnpackedFloat.normalize,
      hcast, hgt]
    simp only [Int.toNat_natCast, UnpackedFloat.round, targetExponent_eq, htarget, hshift]
    exact roundWithAccuracy_exact .positive (Binary.ofNat_fits hpos hlt) hmantissa
  exact congrArg (fun u => Float.ofModel (.pack u)) hround

lemma unpack_toFloat (hpos : 0 < n) (hlt : n < 2 ^ 53) :
    ∃ h : 0 < (Binary.ofNat n).mantissa, n.toUInt64.toFloat.toModel.unpack =
      .finite .positive (Binary.ofNat n).mantissa (Binary.ofNat n).exponent h := by
  have hmantissa : 0 < (Binary.ofNat n).mantissa :=
    (Nat.two_pow_pos 52).trans_le (Binary.ofNat_bounds hpos hlt).2.1
  refine ⟨hmantissa, ?_⟩
  rw [toFloat_eq hpos hlt hmantissa]
  exact (Binary.ofNat_fits hpos hlt).unpack_pack hmantissa .positive

/-! ### The table of powers of ten -/

lemma unpack_of_isFinite {y : Float} (hy : y.isFinite) (hpos : 0 < (Binary.ofFloat y).mantissa) :
    y.toModel.unpack =
      .finite (signOf y) (Binary.ofFloat y).mantissa (Binary.ofFloat y).exponent hpos := by
  have hpack := congrArg (·.toModel.unpack) (ofModel_pack_ofFloat hy hpos)
  exact hpack.symm.trans ((ofFloat_fits hy).unpack_pack hpos _)

lemma exact_powers : ∀ k : Fin 23,
    let y := Float.exactlyRepresentablePowersOfTen[k]
    y.isFinite ∧ isNegative y = false ∧ 2 ^ 52 ≤ (Binary.ofFloat y).mantissa ∧
      (Binary.ofFloat y).numerator = 10 ^ k.val * (Binary.ofFloat y).denominator := by
  decide

lemma Binary.denominator_pos (b : Binary) : 0 < b.denominator :=
  Nat.two_pow_pos _

lemma cast_twoTo (n : ℕ) : ((twoTo n : ℕ) : ℚ) = 2 ^ n := by
  simp only [twoTo, Nat.pow_eq, Nat.cast_pow, Nat.cast_ofNat]

lemma cast_tenTo (n : ℕ) : ((tenTo n : ℕ) : ℚ) = 10 ^ n := by
  simp only [tenTo, Nat.pow_eq, Nat.cast_pow, Nat.cast_ofNat]

lemma zpow_eq_div {a : ℚ} (ha : a ≠ 0) (z : ℤ) : a ^ z = a ^ z.toNat / a ^ (-z).toNat := by
  rw [← zpow_natCast, ← zpow_natCast, ← zpow_sub₀ ha]
  congr 1
  omega

lemma Binary.value_eq_div (b : Binary) : b.value = b.numerator / b.denominator := by
  rw [value, numerator, denominator, zpow_eq_div two_ne_zero, ← mul_div_assoc, Nat.cast_mul,
    cast_twoTo, cast_twoTo]

/-- A power of ten from the table is exact. -/
lemma exists_unpack_power {k : ℕ} (hk : k < Float.exactlyRepresentablePowersOfTen.size) :
    ∃ (d : Binary) (hpos : 0 < d.mantissa), d.Fits ∧ 2 ^ 52 ≤ d.mantissa ∧ d.value = 10 ^ k ∧
      Float.exactlyRepresentablePowersOfTen[k].toModel.unpack =
        .finite .positive d.mantissa d.exponent hpos := by
  obtain ⟨hfinite, hsign, hfull, hvalue⟩ := exact_powers ⟨k, hk⟩
  dsimp only [Fin.getElem_fin] at hfinite hsign hfull hvalue
  generalize Float.exactlyRepresentablePowersOfTen[k] = y at hfinite hsign hfull hvalue
  have hpos : 0 < (Binary.ofFloat y).mantissa := (Nat.two_pow_pos 52).trans_le hfull
  refine ⟨Binary.ofFloat y, hpos, ofFloat_fits hfinite, hfull, ?_, ?_⟩
  · have hden : ((Binary.ofFloat y).denominator : ℚ) ≠ 0 :=
      Nat.cast_ne_zero.mpr (Binary.denominator_pos _).ne'
    rw [Binary.value_eq_div, hvalue]
    push_cast
    exact mul_div_cancel_right₀ _ hden
  · rw [unpack_of_isFinite hfinite hpos, signOf, hsign]
    rfl

/-! ### Decimals -/

/-- The power of ten of a decimal whose exponent is given by its sign and size. -/
def signedPower (below : Bool) (k : ℕ) : ℤ :=
  if below then -k else k

/-- Few digits and a small power of ten: the quotient or product of two exact floats. -/
lemma ofScientific_of_small (hb : b.Fits) (hpos : 0 < b.mantissa) (hm : 0 < m) (hlt : m < 2 ^ 53)
    {k : ℕ} (hk : k ≤ 22) {below : Bool} (hx : b.Nearest (m * 10 ^ signedPower below k)) :
    Float.ofScientific m below k =
      .ofModel (.pack (.finite .positive b.mantissa b.exponent hpos)) := by
  obtain ⟨hmantissa, hunpack⟩ := unpack_toFloat hm hlt
  obtain ⟨d, hdpos, hd, hfull, hvalue, hpower⟩ := exists_unpack_power (Nat.lt_succ_of_le hk)
  have hm' := Binary.value_ofNat hm hlt
  rw [Binary.value] at hm' hvalue
  rw [Float.ofScientific, dif_pos ⟨hlt, hk⟩]
  dsimp only
  cases below with
  | true =>
    rw [if_pos rfl]
    refine (congrArg₂ (fun u v => Float.ofModel (.pack (UnpackedFloat.div Format.binary64 u v)))
      hunpack hpower).trans ?_
    rw [div_of_nearest hb hpos]
    · rfl
    · rw [hm', hvalue, div_eq_mul_inv, ← zpow_natCast, ← zpow_neg]
      exact hx
  | false =>
    rw [if_neg Bool.false_ne_true]
    refine (congrArg₂ (fun u v => Float.ofModel (.pack (UnpackedFloat.mul Format.binary64 u v)))
      hunpack hpower).trans ?_
    rw [mul_of_nearest hb hpos]
    · rfl
    · rw [hm', hvalue, ← zpow_natCast]
      exact hx
    · have hlog := le_log2_mul (Binary.ofNat_bounds hm hlt).2.1 hdpos
      rw [target]
      omega

/-- The float of a decimal is the one that the decimal rounds to. -/
theorem ofScientific_eq (hb : b.Fits) (hpos : 0 < b.mantissa) (hm : 0 < m) {k : ℕ} {below : Bool}
    (hx : b.Nearest (m * 10 ^ signedPower below k)) (hle : signedPower below k ≤ 2048)
    (hge : -(2048 + (m.log2 : ℤ)) ≤ signedPower below k) :
    Float.ofScientific m below k =
      .ofModel (.pack (.finite .positive b.mantissa b.exponent hpos)) := by
  by_cases hsmall : m < 2 ^ 53 ∧ k ≤ 22
  · exact ofScientific_of_small hb hpos hm hsmall.1 hsmall.2 hx
  · rw [Float.ofScientific, dif_neg hsmall]
    have hpower : (if below then Int.negOfNat k else Int.ofNat k) = signedPower below k := by
      rw [signedPower]
      split_ifs
      · exact Int.negOfNat_eq
      · rfl
    simp only [hpower]
    rw [Float.Model.ofScientific, ofScientific_of_nearest hb hpos hm hx hle hge]

/-- A whole number with at most 53 digits is a float. -/
lemma ofNat_eq_of_pos (hpos : 0 < n) (hlt : n < 2 ^ 53)
    (hmantissa : 0 < (Binary.ofNat n).mantissa) :
    Float.ofNat n = .ofModel (.pack (.finite .positive _ (Binary.ofNat n).exponent hmantissa)) := by
  have hnear : (Binary.ofNat n).Nearest (n * 10 ^ signedPower false 0) := by
    have hvalue := (Binary.ofNat n).nearest_value
    rw [Binary.value_ofNat hpos hlt] at hvalue
    simpa [signedPower] using hvalue
  exact ofScientific_eq (Binary.ofNat_fits hpos hlt) hmantissa hpos hnear (by decide)
    (by simp only [signedPower]; omega)

/-- There is one float for a whole number, however it is made. -/
lemma ofNat_eq_toFloat (hpos : 0 < n) (hlt : n < 2 ^ 53) : Float.ofNat n = n.toUInt64.toFloat := by
  have hmantissa : 0 < (Binary.ofNat n).mantissa :=
    (Nat.two_pow_pos 52).trans_le (Binary.ofNat_bounds hpos hlt).2.1
  rw [ofNat_eq_of_pos hpos hlt hmantissa, toFloat_eq hpos hlt hmantissa]

end ParticleScene.Number
