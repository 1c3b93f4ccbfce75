import ParticleScene.Proofs.Number.Decimals

/-!
# Finite results

The exponent of a rounded result says whether the result is finite. So the difference of two whole
numbers that are not too great is finite, and so is the tenth of a finite float.
-/

namespace ParticleScene.Number

open Float.Model Float.Model.UnpackedFloat

variable {s s₁ s₂ : Sign} {m m₁ m₂ : ℕ} {e e₁ e₂ : ℤ} {acc : Accuracy}

/-! ### Exponents of finite floats -/

lemma isFinite_unpack {w : BitVec Format.binary64.numBits} (h : unpackExponent w ≠ -1#_) :
    (UnpackedFloat.unpack Format.binary64 w).isFinite := by
  simp only [UnpackedFloat.unpack]
  rw [if_neg h]
  split_ifs <;> rfl

/-- A result with an exponent in range is finite. -/
lemma isFinite_ofModel_pack (hm : 0 < m) (he : e ≤ 971) :
    (Float.ofModel (.pack (.finite s m e hm))).isFinite := by
  change (UnpackedFloat.unpack Format.binary64
    (UnpackedFloat.pack Format.binary64 (.finite s m e hm))).isFinite = true
  apply isFinite_unpack
  simp only [UnpackedFloat.pack, biasedExponent_eq e, if_neg (biasedExponent_small he)]
  intro htop
  have hfield := congrArg BitVec.toNat htop
  split_ifs at hfield
  · rw [unpackExponent_packComponents, BitVec.toNat_ofNat] at hfield
    change (e + 1075).toNat % 2048 = 2047 at hfield
    omega
  · rw [unpackExponent_packComponents] at hfield
    change 0 = 2047 at hfield
    omega

lemma isFinite_ofModel_pack_zero (s : Sign) : (Float.ofModel (.pack (.zero s))).isFinite := by
  cases s <;> decide

/-! ### Rounded results -/

lemma shiftToTargetExponent_snd (m : ℕ) (e : ℤ) (acc : Accuracy) :
    (shiftToTargetExponent Format.binary64 m e acc).2 = max e (target m e) := by
  simp only [shiftToTargetExponent, targetExponent_eq, shiftToExponent]
  omega

lemma roundToNearestEven_le (m : ℕ) (acc : Accuracy) : acc.roundToNearestEven m ≤ m + 1 := by
  cases acc with
  | exact => exact Nat.le_succ m
  | inexact o =>
    cases o with
    | lt => exact Nat.le_succ m
    | eq =>
      change m + m % 2 ≤ m + 1
      omega
    | gt => exact le_rfl

/-- What was shifted to its exponent and rounded has at most 54 digits. -/
lemma roundedMantissa_le (m : ℕ) (e : ℤ) (acc : Accuracy) :
    (shiftToTargetExponent Format.binary64 m e acc).1.roundedMantissa ≤ 2 ^ 53 := by
  have hmantissa : (shiftToTargetExponent Format.binary64 m e acc).1.mantissa =
      m / 2 ^ (target m e - e).toNat := by
    simp only [shiftToTargetExponent, targetExponent_eq, shiftToExponent, mantissa_shiftRight,
      mantissa_ofMantissaAndAccuracy]
  have hlt : (shiftToTargetExponent Format.binary64 m e acc).1.mantissa < 2 ^ 53 := by
    rw [hmantissa, Nat.div_lt_iff_lt_mul (Nat.two_pow_pos _), ← pow_add]
    refine Nat.lt_log2_self.trans_le (Nat.pow_le_pow_right two_pos ?_)
    rw [target]
    omega
  exact (roundToNearestEven_le _ _).trans hlt

lemma log2_le {k : ℕ} (h : m < 2 ^ (k + 1)) : m.log2 ≤ k := by
  obtain rfl | hpos := Nat.eq_zero_or_pos m
  · exact Nat.zero_le k
  · exact Nat.le_of_lt_succ ((Nat.log2_lt hpos.ne').mpr h)

/-- A result is finite if its digits reach no further than the greatest float. -/
lemma isFinite_roundWithAccuracy (he : max e (target m e) ≤ 970) :
    (Float.ofModel (.pack (roundWithAccuracy Format.binary64 s m e acc))).isFinite := by
  have hle := roundedMantissa_le m e acc
  have hexponent := shiftToTargetExponent_snd m e acc
  simp only [roundWithAccuracy]
  generalize shiftToTargetExponent Format.binary64 m e acc = first at hle hexponent
  split_ifs with hzero
  · exact isFinite_ofModel_pack_zero s
  · apply isFinite_ofModel_pack
    have hlog : first.1.roundedMantissa.log2 ≤ 53 := log2_le (hle.trans_lt (by decide))
    simp only [shiftToTargetExponent_snd, hexponent, target] at he ⊢
    omega

lemma shiftLeft_lt {k : ℕ} (h : m < 2 ^ k) (n : ℕ) : m <<< n < 2 ^ (k + n) := by
  rw [Nat.shiftLeft_eq, pow_add]
  exact Nat.mul_lt_mul_of_pos_right h (Nat.two_pow_pos n)

lemma isFinite_round (he : (m.log2 : ℤ) + e ≤ 1022) :
    (Float.ofModel (.pack (UnpackedFloat.round Format.binary64 s m e))).isFinite := by
  simp only [UnpackedFloat.round, decreaseExponent, targetExponent_eq]
  apply isFinite_roundWithAccuracy
  have hlog : (m <<< (e - target m e).toNat).log2 ≤ m.log2 + (e - target m e).toNat := by
    have hself : m < 2 ^ (m.log2 + 1) := Nat.lt_log2_self
    have hlt := shiftLeft_lt hself (e - target m e).toNat
    rw [Nat.add_right_comm] at hlt
    exact log2_le hlt
  simp only [target] at hlog ⊢
  omega

/-! ### Differences -/

/-- Zero, or a float with an exponent that leaves room for a sum. -/
inductive HasRoom : UnpackedFloat → Prop
  | zero (s : Sign) : HasRoom (.zero s)
  | finite (s : Sign) {m : ℕ} {e : ℤ} (hm : 0 < m) (hlt : m < 2 ^ 53) (he : e ≤ 960) :
    HasRoom (.finite s m e hm)

lemma toNat_apply_sub_apply_le (s₁ s₂ : Sign) (a b : ℕ) :
    (s₁.apply a - s₂.apply b).toNat ≤ a + b ∧ (-(s₁.apply a - s₂.apply b)).toNat ≤ a + b := by
  cases s₁ <;> cases s₂ <;> simp only [Sign.apply] <;> omega

lemma isFinite_normalize {z : ℤ} {k : ℕ} (hpos : z.toNat < 2 ^ (k + 1))
    (hneg : (-z).toNat < 2 ^ (k + 1)) (he : k + e ≤ 1022) :
    (Float.ofModel (.pack (UnpackedFloat.normalize Format.binary64 z e s))).isFinite := by
  rw [UnpackedFloat.normalize]
  split
  · have hlog := log2_le hneg
    exact isFinite_round (by omega)
  · exact isFinite_ofModel_pack_zero _
  · have hlog := log2_le hpos
    exact isFinite_round (by omega)

lemma isFinite_sub_unpacked {u v : UnpackedFloat} (hu : HasRoom u) (hv : HasRoom v) :
    (Float.ofModel (.pack (UnpackedFloat.sub Format.binary64 u v))).isFinite := by
  cases hu with
  | zero s₁ =>
    cases hv with
    | zero s₂ =>
      simp only [UnpackedFloat.sub]
      split <;> exact isFinite_ofModel_pack_zero _
    | finite s₂ hm₂ hlt₂ he₂ => exact isFinite_ofModel_pack hm₂ (by omega)
  | finite s₁ hm₁ hlt₁ he₁ =>
    cases hv with
    | zero s₂ => exact isFinite_ofModel_pack hm₁ (by omega)
    | finite s₂ hm₂ hlt₂ he₂ =>
      rename_i m₁ e₁ m₂ e₂
      obtain ⟨k, hk⟩ : ∃ k : ℕ, (k : ℤ) = 53 + (max e₁ e₂ - min e₁ e₂) :=
        ⟨_, Int.toNat_of_nonneg (by omega)⟩
      have h₁ : m₁ <<< (e₁ - min e₁ e₂).toNat < 2 ^ k :=
        (shiftLeft_lt hlt₁ _).trans_le (Nat.pow_le_pow_right two_pos (by omega))
      have h₂ : m₂ <<< (e₂ - min e₁ e₂).toNat < 2 ^ k :=
        (shiftLeft_lt hlt₂ _).trans_le (Nat.pow_le_pow_right two_pos (by omega))
      obtain ⟨hpos, hneg⟩ := toNat_apply_sub_apply_le s₁ s₂
        (m₁ <<< (e₁ - min e₁ e₂).toNat) (m₂ <<< (e₂ - min e₁ e₂).toNat)
      have hsum := Nat.add_lt_add h₁ h₂
      rw [← two_mul, ← pow_succ'] at hsum
      exact isFinite_normalize (hpos.trans_lt hsum) (hneg.trans_lt hsum) (by omega)

lemma isFinite_sub {x y : Float} (hx : HasRoom x.toModel.unpack) (hy : HasRoom y.toModel.unpack) :
    (x - y).isFinite :=
  isFinite_sub_unpacked hx hy

/-- A whole number with at most 53 digits leaves room for a sum. -/
lemma hasRoom_ofNat {n : ℕ} (hn : n < 2 ^ 53) : HasRoom (Float.ofNat n).toModel.unpack := by
  obtain rfl | hpos := Nat.eq_zero_or_pos n
  · exact .zero .positive
  · obtain ⟨hlog, hle, hlt⟩ := Binary.ofNat_bounds hpos hn
    have hmantissa : 0 < (Binary.ofNat n).mantissa := (Nat.two_pow_pos 52).trans_le hle
    rw [ofNat_eq_of_pos hpos hn hmantissa]
    change HasRoom (Float.Model.pack _).unpack
    rw [(Binary.ofNat_fits hpos hn).unpack_pack hmantissa]
    exact .finite .positive hmantissa hlt (by dsimp only [Binary.ofNat]; omega)

/-! ### Quotients -/

/-- A quotient by two or more is no further out than the dividend. -/
lemma isFinite_div (h₁ : 0 < m₁) (h₂ : 0 < m₂) (hlt : m₁ < 2 ^ 53) (he₁ : e₁ ≤ 971)
    (hle : 2 ^ 52 ≤ m₂) (he₂ : -51 ≤ e₂) :
    (Float.ofModel (.pack (UnpackedFloat.div Format.binary64 (.finite s₁ m₁ e₁ h₁)
      (.finite s₂ m₂ e₂ h₂)))).isFinite := by
  have hlog₁ : m₁.log2 ≤ 52 := log2_le hlt
  have hlog₂ : 52 ≤ m₂.log2 := (Nat.le_log2 h₂.ne').mpr hle
  obtain ⟨t, ht, htarget⟩ : ∃ t, t = min (e₁ - e₂)
      (Format.binary64.targetExponent (totalExponent m₁ e₁ - totalExponent m₂ e₂)) ∧
      t ≤ e₁ - e₂ ∧ t ≤ 970 := by
    refine ⟨_, rfl, min_le_left _ _, ?_⟩
    simp only [Format.targetExponent, totalExponent, Format.mantissaBits, Format.minExponent]
    omega
  have hquotient : m₁ <<< (e₁ - e₂ - t).toNat / m₂ < 2 ^ ((e₁ - e₂ - t).toNat + 1) := by
    rw [Nat.div_lt_iff_lt_mul h₂]
    calc m₁ <<< (e₁ - e₂ - t).toNat < 2 ^ (53 + (e₁ - e₂ - t).toNat) := shiftLeft_lt hlt _
      _ = 2 ^ ((e₁ - e₂ - t).toNat + 1) * 2 ^ 52 := by rw [← pow_add]; congr 1; omega
      _ ≤ 2 ^ ((e₁ - e₂ - t).toNat + 1) * m₂ := Nat.mul_le_mul_left _ hle
  have hlog := log2_le hquotient
  simp only [UnpackedFloat.div, divCore, ← ht]
  apply isFinite_roundWithAccuracy
  rw [target]
  omega

lemma unpack_of_isFinite_zero {x : Float} (hzero : (Binary.ofFloat x).mantissa = 0) :
    x.toModel.unpack = .zero (signOf x) := by
  have hpack := congrArg (·.toModel.unpack) (ofModel_pack_zero hzero)
  refine hpack.symm.trans ?_
  cases signOf x <;> rfl

lemma unpack_ten : (10.0 : Float).toModel.unpack =
    .finite .positive 5629499534213120 (-49) (by decide) := by
  rfl

lemma isFinite_div_ten {x : Float} (hx : x.isFinite) : (x / 10.0).isFinite := by
  change (Float.ofModel (.pack (UnpackedFloat.div Format.binary64 x.toModel.unpack
    (10.0 : Float).toModel.unpack))).isFinite = true
  rw [unpack_ten]
  obtain hzero | hpos := Nat.eq_zero_or_pos (Binary.ofFloat x).mantissa
  · rw [unpack_of_isFinite_zero hzero]
    exact isFinite_ofModel_pack_zero _
  · have hfits := ofFloat_fits hx
    rw [unpack_of_isFinite hx hpos]
    exact isFinite_div hpos _ hfits.mantissa_lt hfits.exponent_le (by decide) (by decide)

end ParticleScene.Number
