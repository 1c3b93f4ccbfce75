import ParticleScene.Proofs.Number.FiniteResults
import ParticleScene.Proofs.Number.FloatRank

/-!
# Whole floats and their tenths

Whole numbers below `2 ^ 53` are floats, and the difference of two of them is exact. A tenth of one
is rounded, but the tenths of different numbers below `2 ^ 50` are far enough apart to stay
different, and the tenth of the opposite is the opposite of the tenth.
-/

namespace ParticleScene.Number

open Float.Model Float.Model.UnpackedFloat

variable {b : Binary} {x y : ℚ} {m n : ℕ} {e E : ℤ} {z w : ℤ}

/-! ### The nearest float -/

lemma roundsTo_of_lt {M : ℕ} (hlo : 2 * (M : ℚ) - 1 < 2 * y) (hhi : 2 * y < 2 * M + 1) :
    RoundsTo y M := by
  rw [RoundsTo]
  split_ifs
  · exact ⟨hlo.le, hhi.le⟩
  · exact ⟨hlo, hhi⟩

/-- Every number is rounded to a whole one. -/
lemma exists_roundsTo (hy : 0 ≤ y) : ∃ M, RoundsTo y M := by
  have hlo := Nat.floor_le hy
  have hhi := Nat.lt_floor_add_one y
  generalize ⌊y⌋₊ = k at hlo hhi
  rcases lt_trichotomy (2 * y) (2 * k + 1) with hlt | heq | hgt
  · exact ⟨k, roundsTo_of_lt (by linarith) hlt⟩
  · -- of the two nearest whole numbers one is even
    obtain heven | hodd := Nat.mod_two_eq_zero_or_one k
    · exact ⟨k, by rw [RoundsTo, if_pos heven]; constructor <;> linarith⟩
    · refine ⟨k + 1, ?_⟩
      rw [RoundsTo, if_pos (by omega)]
      push_cast
      constructor <;> linarith
  · exact ⟨k + 1, roundsTo_of_lt (by push_cast; linarith) (by push_cast; linarith)⟩

lemma Binary.Nearest.of_roundsTo (hfull : 2 ^ 52 ≤ x / 2 ^ E) (h : RoundsTo (x / 2 ^ E) m) :
    Nearest ⟨m, E⟩ x := by
  have hlow : lowEnd ⟨m, E⟩ ≤ 4 * m - 2 ∨ ((m : ℚ) ≤ x / 2 ^ E ∧ lowEnd ⟨m, E⟩ < 4 * m) := by
    rw [lowEnd]
    split_ifs with hnarrow
    · rw [isNarrowBelow, Bool.and_eq_true, decide_eq_true_eq] at hnarrow
      have hleast : m = twoTo 52 := hnarrow.1
      rw [hleast, cast_twoTo]
      exact .inr ⟨hfull, by linarith⟩
    · exact .inl le_rfl
  rw [RoundsTo] at h
  rw [Nearest]
  rcases hlow with hwide | ⟨hle, hnarrow⟩
  · split_ifs at h ⊢ <;> constructor <;> linarith [h.1, h.2]
  · split_ifs at h ⊢ <;> constructor <;> linarith [h.1, h.2]

lemma div_zpow_bounds (hx : 0 < x) (hlog : Int.log 2 x = E + 52) :
    2 ^ 52 ≤ x / 2 ^ E ∧ x / 2 ^ E < 2 ^ 53 := by
  have hpow : (0 : ℚ) < 2 ^ E := zpow_pos two_pos E
  have hle := Int.zpow_log_le_self one_lt_two hx
  have hlt := Int.lt_zpow_succ_log_self one_lt_two x
  rw [hlog, Nat.cast_ofNat, zpow_add₀ two_ne_zero] at hle
  rw [hlog, add_assoc, Nat.cast_ofNat, zpow_add₀ two_ne_zero] at hlt
  rw [le_div_iff₀ hpow, div_lt_iff₀ hpow, mul_comm, mul_comm (2 ^ 53)]
  exact ⟨hle, hlt⟩

/-- What is rounded has 53 digits, or is the next power of two. -/
lemma RoundsTo.mantissa_bounds (h : RoundsTo y m) (hlo : 2 ^ 52 ≤ y) (hhi : y < 2 ^ 53) :
    2 ^ 52 ≤ m ∧ m ≤ 2 ^ 53 := by
  have hbounds := h.bounds
  have hle : ((2 ^ 52 : ℕ) : ℚ) < (m + 1 : ℕ) := by
    push_cast
    linarith
  have hlt : (m : ℚ) < (2 ^ 53 + 1 : ℕ) := by
    push_cast
    linarith
  exact ⟨Nat.lt_succ_iff.mp (Nat.cast_lt.mp hle), Nat.lt_succ_iff.mp (Nat.cast_lt.mp hlt)⟩

/-- Rounding carries into a new digit. -/
lemma Binary.Nearest.of_carry (hlt : x / 2 ^ E < 2 ^ 53) (h : RoundsTo (x / 2 ^ E) (2 ^ 53)) :
    Nearest ⟨2 ^ 52, E + 1⟩ x := by
  have hbounds := h.bounds
  have hhalf : x / 2 ^ (E + 1) = x / 2 ^ E / 2 := by
    rw [zpow_add₀ two_ne_zero, zpow_one, div_div]
  have hlow : lowEnd ⟨2 ^ 52, E + 1⟩ ≤ 2 ^ 54 - 1 := by
    rw [lowEnd]
    split_ifs <;> norm_num
  rw [Nearest, if_pos (by decide : 2 ^ 52 % 2 = 0), hhalf]
  generalize lowEnd ⟨2 ^ 52, E + 1⟩ = low at hlow ⊢
  push_cast at hbounds ⊢
  constructor <;> linarith

/-- Every positive number that is neither too small nor too great is rounded to a float. -/
lemma exists_nearest (hx : 0 < x) (hlo : -1022 ≤ Int.log 2 x) (hhi : Int.log 2 x ≤ 1022) :
    ∃ b : Binary, b.Fits ∧ 2 ^ 52 ≤ b.mantissa ∧ b.Nearest x := by
  obtain ⟨E, hE⟩ : ∃ E, Int.log 2 x = E + 52 := ⟨_, (sub_add_cancel _ 52).symm⟩
  obtain ⟨hle, hlt⟩ := div_zpow_bounds hx hE
  obtain ⟨m, hm⟩ := exists_roundsTo ((by positivity : (0 : ℚ) ≤ 2 ^ 52).trans hle)
  obtain ⟨hfull, hdigits⟩ := hm.mantissa_bounds hle hlt
  rcases Nat.lt_or_eq_of_le hdigits with hdigits | rfl
  · exact ⟨⟨m, E⟩, ⟨hdigits, by dsimp only; omega, by dsimp only; omega, .inl hfull⟩, hfull,
      .of_roundsTo hle hm⟩
  · exact ⟨⟨2 ^ 52, E + 1⟩, ⟨(by decide : 2 ^ 52 < 2 ^ 53), by dsimp only; omega,
      by dsimp only; omega, .inl le_rfl⟩, le_rfl, .of_carry hlt hm⟩

/-- Numbers that round to one float are no more than a last place apart. -/
lemma Binary.Nearest.sub_le (hx : b.Nearest x) (hy : b.Nearest y) : x - y ≤ 2 ^ b.exponent := by
  have hpow : (0 : ℚ) < 2 ^ b.exponent := zpow_pos two_pos _
  have hhi := hx.bounds.2
  have hlo := b.le_lowEnd.trans hy.bounds.1
  have hsub : x / 2 ^ b.exponent - y / 2 ^ b.exponent ≤ 1 := by linarith
  rwa [← sub_div, div_le_iff₀ hpow, one_mul] at hsub

/-- A last place is small against the numbers that round to a full mantissa. -/
lemma Binary.Nearest.pow_exponent_lt (hx : b.Nearest x) (hfull : 2 ^ 52 ≤ b.mantissa) :
    2 ^ 51 * 2 ^ b.exponent < x := by
  have hpow : (0 : ℚ) < 2 ^ b.exponent := zpow_pos two_pos _
  have hmantissa : ((2 ^ 52 : ℕ) : ℚ) ≤ b.mantissa := Nat.cast_le.mpr hfull
  have hlo := b.le_lowEnd.trans hx.bounds.1
  push_cast at hmantissa
  have hlt : 2 ^ 51 < x / 2 ^ b.exponent := by linarith
  exact (lt_div_iff₀ hpow).mp hlt

/-! ### Whole numbers -/

/-- Rounding a magnitude with any number of digits. -/
lemma round_of_nearest (s : Sign) (hb : b.Fits) (hpos : 0 < b.mantissa) (hm : 0 < m)
    (hx : b.Nearest (m * 2 ^ e)) :
    UnpackedFloat.round Format.binary64 s m e = .finite s b.mantissa b.exponent hpos := by
  obtain ⟨k, hk⟩ : ∃ k : ℕ, k = (e - target m e).toNat := ⟨_, rfl⟩
  have hvalue : (m * 2 ^ e : ℚ) / 2 ^ (e - k) = (m * 2 ^ k : ℕ) := by
    rw [mul_div_assoc, ← zpow_sub₀ two_ne_zero, sub_sub_cancel, zpow_natCast]
    push_cast
    rfl
  have hrep := represents_exact (m * 2 ^ k)
  rw [← hvalue] at hrep
  simp only [UnpackedFloat.round, targetExponent_eq, decreaseExponent, ← hk, Nat.shiftLeft_eq]
  refine roundWithAccuracy_of_nearest s hb hpos hx hrep ?_
  have hlog : m.log2 + k ≤ (m * 2 ^ k).log2 := by
    rw [Nat.le_log2 (Nat.mul_pos hm (Nat.two_pow_pos k)).ne', pow_add]
    exact Nat.mul_le_mul_right _ (Nat.log2_self_le hm.ne')
  rw [target] at hk ⊢
  omega

/-- The sign of a whole number that is not zero. -/
def wholeSign (z : ℤ) : Sign :=
  if z < 0 then .negative else .positive

lemma mantissa_ofNat_pos (h : z ≠ 0) : 0 < (Binary.ofNat z.natAbs).mantissa :=
  Nat.mul_pos (Int.natAbs_pos.mpr h) (Nat.two_pow_pos _)

/-- The unpacked float of a whole number. -/
def unpackedWhole (z : ℤ) : UnpackedFloat :=
  if h : z = 0 then .zero .positive
  else .finite (wholeSign z) _ (Binary.ofNat z.natAbs).exponent (mantissa_ofNat_pos h)

lemma unpackedWhole_of_ne (h : z ≠ 0) : unpackedWhole z =
    .finite (wholeSign z) _ (Binary.ofNat z.natAbs).exponent (mantissa_ofNat_pos h) :=
  dif_neg h

lemma unpack_pack_unpackedWhole (hz : z.natAbs < 2 ^ 53) :
    (Float.Model.pack (unpackedWhole z)).unpack = unpackedWhole z := by
  by_cases h : z = 0
  · subst h
    rfl
  · rw [unpackedWhole_of_ne h]
    exact (Binary.ofNat_fits (Int.natAbs_pos.mpr h) hz).unpack_pack _ _

lemma ofNat_eq (hn : n < 2 ^ 53) : Float.ofNat n = .ofModel (.pack (unpackedWhole n)) := by
  obtain rfl | hpos := Nat.eq_zero_or_pos n
  · rfl
  · have hne : (n : ℤ) ≠ 0 := Int.natCast_ne_zero.mpr hpos.ne'
    have hsign : wholeSign n = .positive := if_neg (not_lt.mpr (Int.natCast_nonneg n))
    rw [unpackedWhole_of_ne hne, hsign]
    exact ofNat_eq_of_pos hpos hn _

lemma wholeSign_neg (h : z ≠ 0) : wholeSign (-z) = -wholeSign z := by
  rw [wholeSign, wholeSign]
  split_ifs
  · omega
  · rfl
  · rfl
  · omega

lemma neg_unpackedWhole (h : z ≠ 0) : (unpackedWhole z).neg = unpackedWhole (-z) := by
  rw [unpackedWhole_of_ne h, unpackedWhole_of_ne (neg_ne_zero.mpr h)]
  simp only [UnpackedFloat.neg, wholeSign_neg h, Int.natAbs_neg]

/-- Whole numbers with at most 53 digits are floats. -/
lemma ofInt_eq (hz : z.natAbs < 2 ^ 53) : Float.ofInt z = .ofModel (.pack (unpackedWhole z)) := by
  cases z with
  | ofNat n => exact ofNat_eq hz
  | negSucc n =>
    have hne : ((n + 1 : ℕ) : ℤ) ≠ 0 := Int.natCast_ne_zero.mpr (Nat.succ_ne_zero n)
    have hnat : Float.ofNat (n + 1) = .ofModel (.pack (unpackedWhole (n + 1 : ℕ))) := ofNat_eq hz
    change (Float.ofNat (n + 1)).neg = _
    rw [hnat]
    change Float.ofModel (.pack (Float.Model.pack (unpackedWhole (n + 1 : ℕ))).unpack.neg) = _
    rw [unpack_pack_unpackedWhole (z := (n + 1 : ℕ)) hz, neg_unpackedWhole hne]
    rfl

lemma unpack_ofInt (hz : z.natAbs < 2 ^ 53) : (Float.ofInt z).toModel.unpack = unpackedWhole z := by
  rw [ofInt_eq hz]
  exact unpack_pack_unpackedWhole hz

/-! ### Differences -/

lemma cast_natAbs (z : ℤ) : (z.natAbs : ℚ) = |(z : ℚ)| := by
  rw [Nat.cast_natAbs, Int.cast_abs]

lemma nearest_natAbs (h : w ≠ 0) (hw : w.natAbs < 2 ^ 53) :
    (Binary.ofNat w.natAbs).Nearest (w.natAbs : ℚ) := by
  have hvalue := (Binary.ofNat w.natAbs).nearest_value
  rwa [Binary.value_ofNat (Int.natAbs_pos.mpr h) hw] at hvalue

lemma normalize_of_ne (h : z ≠ 0) (s : Sign) : UnpackedFloat.normalize Format.binary64 z e s =
    UnpackedFloat.round Format.binary64 (wholeSign z) z.natAbs e := by
  rw [UnpackedFloat.normalize, wholeSign]
  rcases lt_or_gt_of_ne h with hneg | hpos
  · have habs : (-z).toNat = z.natAbs := by omega
    rw [Int.compare_eq_lt.mpr hneg, if_pos hneg]
    exact congrArg (UnpackedFloat.round _ _ · _) habs
  · have habs : z.toNat = z.natAbs := by omega
    rw [Int.compare_eq_gt.mpr hpos, if_neg hpos.not_gt]
    exact congrArg (UnpackedFloat.round _ _ · _) habs

/-- A whole number with any number of places behind the point is normalized to itself. -/
lemma normalize_eq (hw : w.natAbs < 2 ^ 53) (hvalue : (z : ℚ) * 2 ^ e = w) :
    UnpackedFloat.normalize Format.binary64 z e .positive = unpackedWhole w := by
  have hpow : (0 : ℚ) < 2 ^ e := zpow_pos two_pos e
  have hzero : z = 0 ↔ w = 0 := by
    have h : (z : ℚ) * 2 ^ e = 0 ↔ (z : ℚ) = 0 := mul_eq_zero_iff_right hpow.ne'
    rw [hvalue, Int.cast_eq_zero, Int.cast_eq_zero] at h
    exact h.symm
  have hsign : z < 0 ↔ w < 0 := by
    have h : (z : ℚ) * 2 ^ e < 0 * 2 ^ e ↔ (z : ℚ) < 0 := mul_lt_mul_iff_left₀ hpow
    rw [zero_mul, hvalue, Int.cast_lt_zero, Int.cast_lt_zero] at h
    exact h.symm
  by_cases h : w = 0
  · obtain rfl := hzero.mpr h
    rw [h]
    rfl
  · have hnear : (Binary.ofNat w.natAbs).Nearest (z.natAbs * 2 ^ e) := by
      have habs : (z.natAbs : ℚ) * 2 ^ e = w.natAbs := by
        rw [cast_natAbs, cast_natAbs, ← hvalue, abs_mul, abs_of_pos hpow]
      rw [habs]
      exact nearest_natAbs h hw
    have hz : z ≠ 0 := mt hzero.mp h
    rw [normalize_of_ne hz, unpackedWhole_of_ne h, wholeSign, if_congr hsign rfl rfl]
    exact round_of_nearest _ (Binary.ofNat_fits (Int.natAbs_pos.mpr h) hw) _
      (Int.natAbs_pos.mpr hz) hnear

lemma cast_apply_wholeSign (h : (n : ℚ) * 2 ^ e = z.natAbs) :
    (((wholeSign z).apply n : ℤ) : ℚ) * 2 ^ e = z := by
  rw [cast_natAbs] at h
  rw [wholeSign]
  split_ifs with hneg
  · have hcast : (z : ℚ) < 0 := Int.cast_lt_zero.mpr hneg
    rw [Sign.apply, Int.cast_neg, Int.cast_natCast, neg_mul, h, abs_of_neg hcast, neg_neg]
  · have hcast : 0 ≤ (z : ℚ) := Int.cast_nonneg (not_lt.mp hneg)
    rw [Sign.apply, Int.cast_natCast, h, abs_of_nonneg hcast]

/-- A whole number at a lower exponent. -/
lemma cast_apply_shiftLeft (h : z ≠ 0) (hz : z.natAbs < 2 ^ 53)
    (he : e ≤ (Binary.ofNat z.natAbs).exponent) :
    (((wholeSign z).apply ((Binary.ofNat z.natAbs).mantissa <<<
      ((Binary.ofNat z.natAbs).exponent - e).toNat : ℕ) : ℤ) : ℚ) * 2 ^ e = z := by
  apply cast_apply_wholeSign
  have hvalue := Binary.value_ofNat (Int.natAbs_pos.mpr h) hz
  obtain ⟨k, hk⟩ := Int.eq_ofNat_of_zero_le (sub_nonneg.mpr he)
  have hexponent : (Binary.ofNat z.natAbs).exponent = k + e := by omega
  rw [Binary.value, hexponent, zpow_add₀ two_ne_zero, zpow_natCast] at hvalue
  rw [hk, Int.toNat_natCast, Nat.shiftLeft_eq, Nat.cast_mul, Nat.cast_pow, mul_assoc]
  exact hvalue

lemma sub_unpackedWhole (hz : z.natAbs < 2 ^ 53) (hw : w.natAbs < 2 ^ 53)
    (hsub : (z - w).natAbs < 2 ^ 53) :
    UnpackedFloat.sub Format.binary64 (unpackedWhole z) (unpackedWhole w) =
      unpackedWhole (z - w) := by
  by_cases hz0 : z = 0
  · subst hz0
    by_cases hw0 : w = 0
    · subst hw0
      rfl
    · rw [zero_sub, ← neg_unpackedWhole hw0, unpackedWhole_of_ne hw0]
      rfl
  · by_cases hw0 : w = 0
    · subst hw0
      rw [sub_zero, unpackedWhole_of_ne hz0]
      rfl
    · rw [unpackedWhole_of_ne hz0, unpackedWhole_of_ne hw0]
      refine normalize_eq hsub ?_
      push_cast
      rw [sub_mul]
      exact congrArg₂ (· - ·) (cast_apply_shiftLeft hz0 hz (min_le_left _ _))
        (cast_apply_shiftLeft hw0 hw (min_le_right _ _))

/-- The difference of whole floats is exact. -/
theorem ofInt_sub_ofInt (hz : z.natAbs < 2 ^ 53) (hw : w.natAbs < 2 ^ 53)
    (hsub : (z - w).natAbs < 2 ^ 53) : Float.ofInt z - Float.ofInt w = Float.ofInt (z - w) := by
  change Float.ofModel (.pack (UnpackedFloat.sub Format.binary64 (Float.ofInt z).toModel.unpack
    (Float.ofInt w).toModel.unpack)) = _
  rw [unpack_ofInt hz, unpack_ofInt hw, sub_unpackedWhole hz hw hsub, ofInt_eq hsub]

/-! ### Tenths -/

/-- A tenth of a whole number. -/
def tenth (z : ℤ) : Float :=
  Float.ofInt z / 10.0

lemma exists_nearest_tenth (hpos : 0 < n) (hn : n < 2 ^ 50) :
    ∃ b : Binary, b.Fits ∧ 2 ^ 52 ≤ b.mantissa ∧ b.Nearest (n / 10) := by
  have hone : (1 : ℚ) ≤ n := Nat.one_le_cast.mpr hpos
  have hlt : (n : ℚ) < (2 ^ 50 : ℕ) := Nat.cast_lt.mpr hn
  push_cast at hlt
  have htenth : (0 : ℚ) < n / 10 := by linarith
  have hlo : -4 ≤ Int.log 2 (n / 10 : ℚ) :=
    (Int.zpow_le_iff_le_log one_lt_two htenth).mp (by norm_num; linarith)
  have hhi : Int.log 2 (n / 10 : ℚ) < 50 :=
    (Int.lt_zpow_iff_log_lt one_lt_two htenth).mp (by norm_num; linarith)
  exact exists_nearest htenth (by omega) (by omega)

lemma tenth_eq_of_nearest (h : z ≠ 0) (hz : z.natAbs < 2 ^ 53) (hb : b.Fits)
    (hpos : 0 < b.mantissa) (hx : b.Nearest (z.natAbs / 10)) :
    tenth z = .ofModel (.pack (.finite (wholeSign z) b.mantissa b.exponent hpos)) := by
  have hvalue := Binary.value_ofNat (Int.natAbs_pos.mpr h) hz
  rw [Binary.value] at hvalue
  have hten : ((5629499534213120 : ℕ) : ℚ) * 2 ^ (-49 : ℤ) = 10 := by norm_num
  rw [← hvalue, ← hten] at hx
  have hsign : wholeSign z / .positive = wholeSign z := by
    cases wholeSign z <;> rfl
  change Float.ofModel (.pack (UnpackedFloat.div Format.binary64 (Float.ofInt z).toModel.unpack
    (10.0 : Float).toModel.unpack)) = _
  rw [unpack_ofInt hz, unpack_ten, unpackedWhole_of_ne h, div_of_nearest hb hpos _ _ hx, hsign]

/-- The tenth of the opposite is the opposite of the tenth; the two zeros are told apart. -/
lemma neg_tenth (h : z ≠ 0) (hz : z.natAbs < 2 ^ 50) : -tenth z = tenth (-z) := by
  obtain ⟨b, hfits, hfull, hnear⟩ := exists_nearest_tenth (Int.natAbs_pos.mpr h) hz
  have hpos : 0 < b.mantissa := (Nat.two_pow_pos 52).trans_le hfull
  have hneg := hnear
  rw [← Int.natAbs_neg] at hneg
  rw [tenth_eq_of_nearest h (by omega) hfits hpos hnear,
    tenth_eq_of_nearest (neg_ne_zero.mpr h) (by omega) hfits hpos hneg, wholeSign_neg h]
  change Float.ofModel (.pack (Float.Model.pack _).unpack.neg) = _
  rw [hfits.unpack_pack hpos]
  rfl

/-- Numbers whose tenths round to one float are in order either way. -/
lemma le_of_nearest_tenth (hfull : 2 ^ 52 ≤ b.mantissa) (hm : b.Nearest (m / 10))
    (hn : b.Nearest (n / 10)) (hlt : m < 2 ^ 50) : m ≤ n := by
  have hcast : (m : ℚ) < (2 ^ 50 : ℕ) := Nat.cast_lt.mpr hlt
  push_cast at hcast
  have hsub := hm.sub_le hn
  have hplace := hm.pow_exponent_lt hfull
  have hle : (m : ℚ) < (n + 1 : ℕ) := by
    push_cast
    linarith
  exact Nat.lt_succ_iff.mp (Nat.cast_lt.mp hle)

lemma exists_unpack_tenth (h : z ≠ 0) (hz : z.natAbs < 2 ^ 50) :
    ∃ (b : Binary) (hpos : 0 < b.mantissa), 2 ^ 52 ≤ b.mantissa ∧ b.Nearest (z.natAbs / 10) ∧
      (tenth z).toModel.unpack = .finite (wholeSign z) b.mantissa b.exponent hpos := by
  obtain ⟨b, hfits, hfull, hnear⟩ := exists_nearest_tenth (Int.natAbs_pos.mpr h) hz
  have hpos : 0 < b.mantissa := (Nat.two_pow_pos 52).trans_le hfull
  refine ⟨b, hpos, hfull, hnear, ?_⟩
  rw [tenth_eq_of_nearest h (by omega) hfits hpos hnear]
  exact hfits.unpack_pack hpos _

lemma isNaN_tenth (hz : z.natAbs < 2 ^ 50) : (tenth z).isNaN = false := by
  by_cases h : z = 0
  · subst h
    rfl
  · obtain ⟨b, hpos, -, -, hunpack⟩ := exists_unpack_tenth h hz
    change (tenth z).toModel.unpack.isNaN = false
    rw [hunpack]
    rfl

lemma unpackedRank_wholeSign (h : z ≠ 0) (hm : 0 < m) :
    unpackedRank (.finite (wholeSign z) m e hm) = rankOf z.sign (z.sign * e) (z.sign * m) := by
  rw [wholeSign]
  rcases lt_or_gt_of_ne h with hneg | hpos
  · rw [if_pos hneg, Int.sign_eq_neg_one_of_neg hneg, neg_one_mul, neg_one_mul]
    rfl
  · rw [if_neg hpos.not_gt, Int.sign_eq_one_of_pos hpos, one_mul, one_mul]
    rfl

/-- The rank of a tenth starts with the sign of the number. -/
lemma exists_rank_tenth (hz : z.natAbs < 2 ^ 50) :
    ∃ b : Binary, (z ≠ 0 → 2 ^ 52 ≤ b.mantissa ∧ b.Nearest (z.natAbs / 10)) ∧
      rank (tenth z) = rankOf z.sign (z.sign * b.exponent) (z.sign * b.mantissa) := by
  by_cases h : z = 0
  · subst h
    exact ⟨⟨0, 0⟩, fun h => absurd rfl h, rfl⟩
  · obtain ⟨b, hpos, hfull, hnear, hunpack⟩ := exists_unpack_tenth h hz
    refine ⟨b, fun _ => ⟨hfull, hnear⟩, ?_⟩
    rw [rank, hunpack, unpackedRank_wholeSign h]

/-- Different numbers have different tenths. -/
lemma rank_tenth_injective (hz : z.natAbs < 2 ^ 50) (hw : w.natAbs < 2 ^ 50)
    (h : rank (tenth z) = rank (tenth w)) : z = w := by
  obtain ⟨b, hnearz, hrankz⟩ := exists_rank_tenth hz
  obtain ⟨b', hnearw, hrankw⟩ := exists_rank_tenth hw
  rw [hrankz, hrankw, rankOf_inj] at h
  obtain ⟨hsign, hexponent, hmantissa⟩ := h
  by_cases hz0 : z = 0
  · subst hz0
    exact (Int.sign_eq_zero_iff_zero.mp hsign.symm).symm
  · have hne : z.sign ≠ 0 := mt Int.sign_eq_zero_iff_zero.mp hz0
    have hw0 : w ≠ 0 := mt Int.sign_eq_zero_iff_zero.mpr (hsign ▸ hne)
    rw [← hsign] at hexponent hmantissa
    have hsame : b' = b := by
      have hm := Int.natCast_inj.mp (mul_left_cancel₀ hne hmantissa)
      have he := mul_left_cancel₀ hne hexponent
      cases b
      cases b'
      exact congrArg₂ Binary.mk hm.symm he.symm
    subst hsame
    obtain ⟨hfull, hnearz⟩ := hnearz hz0
    obtain ⟨-, hnearw⟩ := hnearw hw0
    have habs : z.natAbs = w.natAbs :=
      le_antisymm (le_of_nearest_tenth hfull hnearz hnearw hz)
        (le_of_nearest_tenth hfull hnearw hnearz hw)
    rw [← Int.sign_mul_natAbs z, ← Int.sign_mul_natAbs w, hsign, habs]

/-- Tenths are equal floats exactly for equal numbers. -/
theorem tenth_beq_tenth (hz : z.natAbs < 2 ^ 50) (hw : w.natAbs < 2 ^ 50) :
    tenth z == tenth w ↔ z = w := by
  rw [beq_iff_rank_eq (isNaN_tenth hz) (isNaN_tenth hw)]
  exact ⟨rank_tenth_injective hz hw, fun h => h ▸ rfl⟩

/-- A tenth is the opposite float of another exactly for opposite numbers. -/
theorem tenth_beq_neg_tenth (hz : z.natAbs < 2 ^ 50) (hw : w.natAbs < 2 ^ 50) :
    tenth z == -tenth w ↔ z = -w := by
  by_cases h : w = 0
  · subst h
    rw [neg_zero]
    rw [← tenth_beq_tenth hz hw, beq_iff_rank_eq (isNaN_tenth hz) rfl,
      beq_iff_rank_eq (isNaN_tenth hz) rfl]
    rfl
  · rw [neg_tenth h hw, tenth_beq_tenth hz (by omega)]

end ParticleScene.Number
