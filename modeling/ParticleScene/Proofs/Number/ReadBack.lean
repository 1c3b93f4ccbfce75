import ParticleScene.Json.FloatReader
import ParticleScene.Proofs.Number.Decimals
import ParticleScene.Proofs.Text.Digits

/-!
# Floats read back

The shortest decimal of a finite float rounds to that float, and so does the number literal that
documents hold for it. Whoever reads the float nearest to the literal gets the float back, bit by
bit. A fast reader does, too, if the digits fit into a float and the power of ten is small.
-/

namespace ParticleScene.Number

open Float.Model Float.Model.UnpackedFloat

variable {b : Binary} {x : ℚ} {c n : ℕ} {g : ℤ} {tie : Tie} {d : Decimal}

/-- The rational that a decimal stands for. -/
def Decimal.value (d : Decimal) : ℚ :=
  d.digits * 10 ^ d.exponent

/-! ### Shortest decimals -/

/-- A decimal among the reals that round to a magnitude rounds to it. -/
lemma nearest_of_readsBack (h : b.readsBack c g) : b.Nearest (c * 10 ^ g) := by
  obtain ⟨one, hone⟩ : ∃ one, one = twoTo b.exponent.toNat * tenTo (-g).toNat := ⟨_, rfl⟩
  obtain ⟨den, hden⟩ : ∃ den, den = b.denominator * tenTo g.toNat := ⟨_, rfl⟩
  obtain ⟨k, hk⟩ : ∃ k : ℕ, k = if b.isNarrowBelow then 1 else 2 := ⟨_, rfl⟩
  have hpos : (0 : ℚ) < one := by
    rw [hone]
    exact_mod_cast Nat.mul_pos (Nat.two_pow_pos _) (Nat.pow_pos (by decide))
  have hratio : 4 * (c * 10 ^ g / 2 ^ b.exponent : ℚ) = 4 * c * den / one := by
    rw [hone, hden, Binary.denominator, zpow_eq_div two_ne_zero b.exponent,
      zpow_eq_div (by norm_num) g]
    simp only [Nat.cast_mul, cast_twoTo, cast_tenTo]
    field_simp
  have hlow : b.lowEnd * one ≤ ((4 * b.mantissa - k) * one : ℕ) := by
    have hsub : ((4 * b.mantissa : ℕ) : ℚ) ≤ (4 * b.mantissa - k : ℕ) + k := by
      exact_mod_cast le_tsub_add
    have hk' : (if b.isNarrowBelow then 1 else 2 : ℚ) = k := by
      rw [hk]
      split_ifs <;> norm_num
    rw [Nat.cast_mul, Binary.lowEnd, hk']
    push_cast at hsub
    exact mul_le_mul_of_nonneg_right (by linarith) hpos.le
  have hhigh : (((4 * b.mantissa + 2) * one : ℕ) : ℚ) = (4 * b.mantissa + 2) * one := by
    push_cast
    rfl
  have hmiddle : ((4 * c * den : ℕ) : ℚ) = 4 * c * den := by
    push_cast
    rfl
  simp only [Binary.readsBack, Binary.inUnits, ← hone, ← hden, ← hk] at h
  rw [Binary.Nearest, hratio, le_div_iff₀ hpos, lt_div_iff₀ hpos, div_le_iff₀ hpos,
    div_lt_iff₀ hpos, ← hhigh, ← hmiddle]
  split_ifs at h ⊢ with heven
  · rw [Bool.and_eq_true, decide_eq_true_eq, decide_eq_true_eq] at h
    exact ⟨hlow.trans (Nat.cast_le.mpr h.1), Nat.cast_le.mpr h.2⟩
  · rw [Bool.and_eq_true, decide_eq_true_eq, decide_eq_true_eq] at h
    exact ⟨hlow.trans_lt (Nat.cast_lt.mpr h.1), Nat.cast_lt.mpr h.2⟩

lemma readsBack_of_onGrid? (h : b.onGrid? tie g = some d) : b.readsBack d.digits d.exponent := by
  simp only [Binary.onGrid?] at h
  split at h
  case h_1 hbelow habove =>
    cases h
    exact hbelow
  case h_2 hbelow habove =>
    cases h
    exact habove
  case h_3 => cases h
  case h_4 hbelow habove =>
    split at h <;> cases h
    · exact hbelow
    · exact habove
    · dsimp only
      split_ifs
      · exact hbelow
      · exact habove

lemma readsBack_of_search {k : ℤ} {tries : ℕ} (h : b.search tie k tries n = some d) :
    b.readsBack d.digits d.exponent := by
  induction tries generalizing n with
  | zero => cases h
  | succ tries ih =>
    rw [Binary.search] at h
    cases hgrid : b.onGrid? tie (k - n) with
    | none =>
      rw [hgrid] at h
      exact ih h
    | some d' =>
      rw [hgrid] at h
      cases h
      exact readsBack_of_onGrid? hgrid

lemma value_exact (b : Binary) : b.exact.value = b.value := by
  have hten :
      (10 : ℚ) ^ (-b.exponent).toNat = 2 ^ (-b.exponent).toNat * 5 ^ (-b.exponent).toNat := by
    rw [← mul_pow]
    norm_num
  rw [b.value_eq_div, Decimal.value, Binary.exact, Binary.denominator, cast_twoTo, zpow_neg,
    zpow_natCast, hten, Nat.cast_mul, Nat.pow_eq, Nat.cast_pow]
  push_cast
  field_simp

lemma value_strip (d : Decimal) (tries : ℕ) : (d.strip tries).value = d.value := by
  induction tries generalizing d with
  | zero => rfl
  | succ tries ih =>
    rw [Decimal.strip]
    split_ifs with h
    · have hdigits : (d.digits : ℚ) = (d.digits / 10 : ℕ) * 10 := by
        exact_mod_cast (Nat.div_mul_cancel (Nat.dvd_of_mod_eq_zero h.2)).symm
      rw [ih, Decimal.value, Decimal.value, zpow_add₀ (by norm_num), zpow_one, hdigits]
      ring
    · rfl

/-- The shortest decimal of a magnitude rounds to it. -/
lemma nearest_shortest (b : Binary) (tie : Tie) (hpos : 0 < b.mantissa) :
    b.Nearest (b.shortest tie).value := by
  rw [Binary.shortest, if_neg hpos.ne', value_strip]
  cases hsearch : b.search tie b.scale 17 1 with
  | none =>
    rw [Option.getD_none, value_exact]
    exact b.nearest_value
  | some d => exact nearest_of_readsBack (readsBack_of_search hsearch)

/-! ### Sizes of decimals -/

lemma tenth_lt_half {m n : ℕ} (h : (2 : ℚ) ^ (n + 1) < 10 ^ m) :
    (10 : ℚ) ^ (-m : ℤ) < 1 / 2 * 2 ^ (-n : ℤ) := by
  rw [zpow_neg, zpow_neg, zpow_natCast, zpow_natCast, one_div, ← mul_inv, ← pow_succ']
  exact inv_strictAnti₀ (by positivity) h

lemma least_gt : (10 : ℚ) ^ (-324 : ℤ) < 1 / 2 * 2 ^ (-1074 : ℤ) := by
  have hcast : ((twoTo (1074 + 1) : ℕ) : ℚ) < (tenTo 324 : ℕ) := Nat.cast_lt.mpr (by decide +kernel)
  rw [cast_twoTo, cast_tenTo] at hcast
  exact tenth_lt_half hcast

lemma greatest_lt : (2 : ℚ) ^ 53 * 2 ^ (971 : ℤ) < 10 ^ (309 : ℤ) := by
  have hcast : ((twoTo 53 * twoTo 971 : ℕ) : ℚ) < (tenTo 309 : ℕ) :=
    Nat.cast_lt.mpr (by decide +kernel)
  rw [Nat.cast_mul, cast_twoTo, cast_twoTo, cast_tenTo] at hcast
  exact hcast

/-- What rounds to a magnitude is neither too small nor too great for a float. -/
lemma bounds_of_nearest (hb : b.Fits) (hpos : 0 < b.mantissa) (hx : b.Nearest x) :
    10 ^ (-324 : ℤ) < x ∧ x < 10 ^ (309 : ℤ) := by
  have hone : (1 : ℚ) ≤ b.mantissa := by exact_mod_cast hpos
  have hmantissa : (b.mantissa : ℚ) + 1 ≤ 2 ^ 53 := by exact_mod_cast hb.mantissa_lt
  have hlow := b.le_lowEnd
  have hbounds := hx.bounds
  have hscale : (0 : ℚ) < 2 ^ b.exponent := zpow_pos two_pos _
  have hleast : (2 : ℚ) ^ (-1074 : ℤ) ≤ 2 ^ b.exponent :=
    zpow_le_zpow_right₀ one_le_two hb.le_exponent
  have hgreatest : (2 : ℚ) ^ b.exponent ≤ 2 ^ (971 : ℤ) :=
    zpow_le_zpow_right₀ one_le_two hb.exponent_le
  constructor
  · calc (10 : ℚ) ^ (-324 : ℤ) < 1 / 2 * 2 ^ (-1074 : ℤ) := least_gt
      _ ≤ 1 / 2 * 2 ^ b.exponent := by linarith
      _ ≤ x := by
        rw [← le_div_iff₀ hscale]
        linarith
  · calc x ≤ 2 ^ 53 * 2 ^ b.exponent := by
          rw [← div_le_iff₀ hscale]
          linarith
      _ ≤ 2 ^ 53 * 2 ^ (971 : ℤ) := mul_le_mul_of_nonneg_left hgreatest (by positivity)
      _ < 10 ^ (309 : ℤ) := greatest_lt

/-- The digits of a number tell its power of ten. -/
lemma length_toString_bounds (hn : 0 < n) :
    0 < (toString n).length ∧ 10 ^ ((toString n).length - 1) ≤ n ∧
      n < 10 ^ (toString n).length := by
  have hpos := Nat.length_toDigits_pos (b := 10) (n := n)
  rw [Text.length_toString]
  refine ⟨hpos, ?_, (Nat.length_toDigits_le_iff (by decide) hpos).mp le_rfl⟩
  obtain hone | hmore := (Nat.succ_le_of_lt hpos).eq_or_lt
  · rw [← hone]
    exact hn
  · refine Nat.le_of_not_lt fun hlt => ?_
    have hle := (Nat.length_toDigits_le_iff (by decide) (Nat.sub_pos_of_lt hmore)).mpr hlt
    omega

/-- The number of digits tells the size of a decimal. -/
lemma size_bounds {lo hi : ℤ} (hn : 0 < n) (hlo : 10 ^ lo < (n * 10 ^ g : ℚ))
    (hhi : (n * 10 ^ g : ℚ) < 10 ^ hi) :
    lo < (toString n).length + g ∧ (toString n).length + g ≤ hi := by
  obtain ⟨-, habove, hbelow⟩ := length_toString_bounds hn
  have hscale : (0 : ℚ) < 10 ^ g := zpow_pos (by norm_num) _
  have hpower (k : ℕ) : ((10 ^ k : ℕ) : ℚ) * 10 ^ g = 10 ^ ((k : ℤ) + g) := by
    rw [zpow_add₀ (by norm_num), zpow_natCast, Nat.cast_pow]
    rfl
  constructor
  · rw [← zpow_lt_zpow_iff_right₀ (by norm_num : (1 : ℚ) < 10), ← hpower]
    exact hlo.trans (mul_lt_mul_of_pos_right (Nat.cast_lt.mpr hbelow) hscale)
  · have hlt : (((toString n).length - 1 : ℕ) : ℤ) + g < hi := by
      rw [← zpow_lt_zpow_iff_right₀ (by norm_num : (1 : ℚ) < 10), ← hpower]
      exact (mul_le_mul_of_nonneg_right (Nat.cast_le.mpr habove) hscale.le).trans_lt hhi
    omega

/-! ### Literals -/

lemma signedPower_natAbs (g : ℤ) : signedPower (g < 0) g.natAbs = g := by
  rw [signedPower]
  split_ifs with h
  · have hneg := of_decide_eq_true h
    omega
  · have hnonneg : ¬ g < 0 := fun hneg => h (decide_eq_true hneg)
    omega

/-- The float of a decimal that rounds to a magnitude has that magnitude. -/
lemma ofDecimal_of_nearest (hb : b.Fits) (hpos : 0 < b.mantissa) (hn : 0 < n)
    (hx : b.Nearest (n * 10 ^ g)) :
    ofDecimal n g = .ofModel (.pack (.finite .positive b.mantissa b.exponent hpos)) := by
  obtain ⟨hlength, habove, -⟩ := length_toString_bounds hn
  obtain ⟨hlo, hhi⟩ := bounds_of_nearest hb hpos hx
  obtain ⟨hlo, hhi⟩ := size_bounds hn hlo hhi
  have hlog : (toString n).length - 1 ≤ n.log2 :=
    (Nat.le_log2 hn.ne').mpr ((Nat.pow_le_pow_left (by decide) _).trans habove)
  rw [ofDecimal]
  rw [if_neg (by omega), if_neg (by omega)]
  refine ofScientific_eq hb hpos hn ?_ ?_ ?_ <;> rw [signedPower_natAbs]
  · exact hx
  · omega
  · omega

end ParticleScene.Number

namespace ParticleScene.Json

open Number

variable {x : Float}

/-- The digits of a literal stand for its shortest decimal, with or without a point. -/
lemma exists_ofFloat (x : Float) : ∃ (digits : ℕ) (exponent : ℤ),
    Literal.ofFloat x = ⟨isNegative x, digits, exponent, false⟩ ∧
      (digits * 10 ^ exponent : ℚ) = ((Binary.ofFloat x).shortest .even).value := by
  rw [Literal.ofFloat, Decimal.value]
  generalize (Binary.ofFloat x).shortest .even = d
  split_ifs with hplain
  · refine ⟨_, _, rfl, ?_⟩
    obtain ⟨k, hk⟩ := Int.eq_ofNat_of_zero_le hplain.2
    rw [hk, Int.toNat_natCast, Nat.cast_mul, cast_tenTo, zpow_natCast]
    field_simp
    ring
  · exact ⟨_, _, rfl, rfl⟩

/-- Every finite float is the nearest one to its literal. -/
theorem FloatReader.nearest_readsBack (hx : x.isFinite) : nearest.ReadsBack x := by
  obtain ⟨digits, exponent, hliteral, hvalue⟩ := exists_ofFloat x
  rw [ReadsBack, hliteral, nearest]
  dsimp only
  have hb := ofFloat_fits hx
  obtain hzero | hpos := (Binary.ofFloat x).mantissa.eq_zero_or_pos
  · have hdigits : digits = 0 := by
      have hten : (10 : ℚ) ^ exponent ≠ 0 := zpow_ne_zero _ (by norm_num)
      rw [Binary.shortest, if_pos hzero, Decimal.value, Nat.cast_zero, zero_mul] at hvalue
      exact_mod_cast (mul_eq_zero.mp hvalue).resolve_right hten
    rw [hdigits, ofDecimal, if_pos (.inl rfl)]
    exact signed_isNegative_zero hzero
  · have hnear := nearest_shortest (Binary.ofFloat x) .even hpos
    rw [← hvalue] at hnear
    have hdigits : 0 < digits := by
      refine Nat.pos_of_ne_zero fun hzero => ?_
      have hlo := (bounds_of_nearest hb hpos hnear).1
      rw [hzero, Nat.cast_zero, zero_mul] at hlo
      exact absurd hlo (not_lt.mpr (zpow_nonneg (by norm_num) _))
    rw [ofDecimal_of_nearest hb hpos hdigits hnear]
    exact signed_isNegative hx hpos

/-! ### Fast reading -/

namespace FloatReader

variable {n : Literal}

lemma powerOfTen_eq : ∀ k : Fin 23, powerOfTen k = Float.exactlyRepresentablePowersOfTen[k] := by
  decide

lemma length_le_of_lt {digits : ℕ} (h : digits < 2 ^ 53) : (toString digits).length ≤ 16 := by
  obtain rfl | hpos := digits.eq_zero_or_pos
  · decide
  · obtain ⟨-, habove, -⟩ := length_toString_bounds hpos
    have hlt : 10 ^ ((toString digits).length - 1) < 10 ^ 16 :=
      habove.trans_lt (h.trans (by decide))
    have hlength := (Nat.pow_lt_pow_iff_right (by decide)).mp hlt
    omega

/-- Digits that fit into a float are all leading ones. -/
lemma leading_of_lt (h : n.digits < 2 ^ 53) : leading n = (n.digits, n.exponent) := by
  have hnone : (toString n.digits).length - 20 = 0 := by
    have hlength := length_le_of_lt h
    omega
  have hsize : n.digits / tenTo 0 < UInt64.size := by
    rw [tenTo, Nat.pow_eq, pow_zero, Nat.div_one]
    exact h.trans (by decide)
  rw [leading]
  simp only [hnone, if_pos hsize]
  rw [tenTo, Nat.pow_eq, pow_zero, Nat.div_one, Nat.cast_zero, add_zero]

/-- Both the digits and the power of ten are exact floats, so there is one rounding. -/
theorem fast_eq_nearest (hdigits : n.digits < 2 ^ 53) (hexponent : n.exponent.natAbs ≤ 22) :
    fast n = nearest n := by
  have hlength := length_le_of_lt hdigits
  rw [fast, leading_of_lt hdigits, nearest, ofDecimal]
  dsimp only
  congr 1
  obtain hzero | hpos := n.digits.eq_zero_or_pos
  · rw [if_pos hzero, if_pos (.inl hzero)]
  · have hpower := powerOfTen_eq ⟨n.exponent.natAbs, Nat.lt_succ_of_le hexponent⟩
    dsimp only [Fin.getElem_fin] at hpower
    have hlow : ¬ (n.digits = 0 ∨ ((toString n.digits).length : ℤ) + n.exponent < -400) := by
      omega
    have hhigh : ¬ 400 < ((toString n.digits).length : ℤ) + n.exponent := by omega
    rw [if_neg hpos.ne', if_neg hlow, if_neg hhigh, Float.ofScientific,
      dif_pos ⟨hdigits, hexponent⟩, ofNat_eq_toFloat hpos hdigits]
    dsimp only
    rw [← hpower]
    by_cases hsign : 0 ≤ n.exponent
    · rw [if_pos hsign, if_neg (by simpa using hsign), ← Int.toNat_of_nonneg hsign]
      rfl
    · have hsmall : n.exponent.natAbs ≤ greatestPower := hexponent.trans (by decide)
      rw [if_neg hsign, if_pos (by simpa using hsign), overPower, if_pos hsmall]

/-- A float is read back fast if its shortest decimal has few digits and a small power of ten. -/
theorem fast_readsBack (hx : x.isFinite) (hdigits : (Literal.ofFloat x).digits < 2 ^ 53)
    (hexponent : (Literal.ofFloat x).exponent.natAbs ≤ 22) : fast.ReadsBack x :=
  (fast_eq_nearest hdigits hexponent).trans (nearest_readsBack hx)

end FloatReader

end ParticleScene.Json
