import ParticleScene.Number.Reader
import ParticleScene.Proofs.Number.Rounding

/-!
# Floats and their bits

A finite float is a sign and a magnitude, `Binary.ofFloat` reads the magnitude off its bits, and
packing puts it back there.
-/

namespace ParticleScene.Number

open Float.Model Float.Model.UnpackedFloat

/-! ### Parts of a bit pattern -/

lemma toNat_unpackExponent (w : BitVec Format.binary64.numBits) :
    (unpackExponent w).toNat = w.toNat / 2 ^ 52 % 2 ^ 11 := by
  rw [unpackExponent, BitVec.toNat_cast, BitVec.extractLsb_toNat, Nat.shiftRight_eq_div_pow]
  rfl

lemma toNat_packComponents (s : Sign) (exponent : BitVec Format.binary64.exponentBits)
    (mantissa : BitVec Format.binary64.mantissaBitsWithoutImplicit) :
    (packComponents Format.binary64 s exponent mantissa).toNat =
      s.toBitVec.toNat * 2 ^ 63 + exponent.toNat * 2 ^ 52 + mantissa.toNat := by
  rw [packComponents, BitVec.toNat_append, BitVec.toNat_append,
    ← Nat.shiftLeft_add_eq_or_of_lt exponent.isLt, ← Nat.shiftLeft_add_eq_or_of_lt mantissa.isLt,
    Nat.shiftLeft_eq, Nat.shiftLeft_eq]
  change (s.toBitVec.toNat * 2 ^ 11 + exponent.toNat) * 2 ^ 52 + mantissa.toNat = _
  omega

/-! ### The word of a magnitude -/

/-- The exponent field of a magnitude: a mantissa without its leading digit stands at the least
exponent. -/
def Binary.field (b : Binary) : Nat :=
  if b.mantissa < 2 ^ 52 then 0 else (b.exponent + 1075).toNat

/-- The bits of a magnitude with a sign. -/
def Binary.word (s : Sign) (b : Binary) : BitVec Format.binary64.numBits :=
  packComponents Format.binary64 s (BitVec.ofNat _ b.field) (BitVec.ofNat _ b.mantissa)

variable {b : Binary}

lemma Binary.Fits.field_lt (hb : b.Fits) : b.field < 2047 := by
  have hle := hb.exponent_le
  rw [field]
  split_ifs <;> omega

lemma biasedExponent_eq (e : ℤ) : e + (Format.binary64.exponentBias : ℤ) +
    (Format.binary64.mantissaBitsWithoutImplicit : ℤ) = e + 1075 := by
  change e + 1023 + 52 = _
  omega

/-- An exponent in range leaves the field of infinities free. -/
lemma biasedExponent_small {e : ℤ} (he : e ≤ 971) :
    ¬ 2 ^ Format.binary64.exponentBits ≤ (e + 1075).toNat + 1 := by
  change ¬ 2048 ≤ _
  omega

lemma Binary.Fits.pack_eq (hb : b.Fits) (hpos : 0 < b.mantissa) (s : Sign) :
    UnpackedFloat.pack Format.binary64 (.finite s b.mantissa b.exponent hpos) = b.word s := by
  have hbias := biasedExponent_eq b.exponent
  have hsmall := biasedExponent_small hb.exponent_le
  have hbits : b.mantissa.log2 + 1 = Format.binary64.mantissaBits ↔ ¬ b.mantissa < 2 ^ 52 := by
    have hlog : b.mantissa.log2 < 53 := (Nat.log2_lt hpos.ne').mpr hb.mantissa_lt
    rw [not_lt, ← Nat.le_log2 hpos.ne']
    change b.mantissa.log2 + 1 = 53 ↔ _
    omega
  simp only [UnpackedFloat.pack, hbias, if_neg hsmall, hbits, word, field]
  split_ifs <;> rfl

lemma toNat_one_append (v : BitVec 52) : (1#1 ++ v).toNat = 2 ^ 52 + v.toNat := by
  rw [BitVec.toNat_append, ← Nat.shiftLeft_add_eq_or_of_lt v.isLt, Nat.shiftLeft_eq]
  rfl

lemma Binary.Fits.unpack_word (hb : b.Fits) (hpos : 0 < b.mantissa) (s : Sign) :
    UnpackedFloat.unpack Format.binary64 (b.word s) = .finite s b.mantissa b.exponent hpos := by
  have hlt := hb.mantissa_lt
  have hfield : (BitVec.ofNat 11 b.field).toNat = b.field := by
    rw [BitVec.toNat_ofNat, Nat.mod_eq_of_lt (hb.field_lt.trans (by decide))]
  have hfinite : BitVec.ofNat 11 b.field ≠ -1#11 := by
    intro h
    have htop : b.field = 2047 := by
      rw [← hfield, h]
      rfl
    exact hb.field_lt.ne htop
  simp only [UnpackedFloat.unpack, word, unpackMantissa_packComponents,
    unpackExponent_packComponents, unpackSign_packComponents, Sign.ofBitVec_toBitVec]
  rw [if_neg hfinite]
  by_cases hsub : b.mantissa < 2 ^ 52
  · have hzero : b.field = 0 := if_pos hsub
    have hmantissa : (BitVec.ofNat 52 b.mantissa).toNat = b.mantissa := by
      rw [BitVec.toNat_ofNat, Nat.mod_eq_of_lt hsub]
    have hne : BitVec.ofNat 52 b.mantissa ≠ 0#52 := by
      intro h
      rw [h] at hmantissa
      exact hpos.ne hmantissa
    have hexponent := hb.normal_or_least.resolve_left (not_le.mpr hsub)
    rw [if_pos (by rw [hzero]), dif_neg hne]
    congr 1
    rw [hexponent, hfield, hzero]
    rfl
  · have hpositive : b.field = (b.exponent + 1075).toNat := if_neg hsub
    have hle := hb.le_exponent
    have hmantissa : (1#1 ++ BitVec.ofNat 52 b.mantissa).toNat = b.mantissa := by
      rw [toNat_one_append, BitVec.toNat_ofNat]
      omega
    have hne : BitVec.ofNat 11 b.field ≠ 0#11 := by
      intro h
      have hzero : b.field = 0 := by
        rw [← hfield, h]
        rfl
      omega
    rw [if_neg hne]
    congr 1
    rw [hfield, hpositive]
    change _ - (1023 + 52 : ℤ) = _
    omega

/-- What is packed is unpacked again. -/
lemma Binary.Fits.unpack_pack (hb : b.Fits) (hpos : 0 < b.mantissa) (s : Sign) :
    (Float.Model.pack (.finite s b.mantissa b.exponent hpos)).unpack =
      .finite s b.mantissa b.exponent hpos := by
  change UnpackedFloat.unpack Format.binary64 (UnpackedFloat.pack Format.binary64 _) = _
  rw [hb.pack_eq hpos, hb.unpack_word hpos]

/-! ### The magnitude of a float -/

variable {x : Float}

/-- The sign bit of a float. -/
def signOf (x : Float) : Sign :=
  if isNegative x then .negative else .positive

lemma toNat_toBitVec_signOf (x : Float) :
    (signOf x).toBitVec.toNat = if twoTo 63 ≤ x.toBits.toNat then 1 else 0 := by
  rw [signOf, isNegative]
  by_cases h : twoTo 63 ≤ x.toBits.toNat
  · rw [if_pos (decide_eq_true h), if_pos h]
    rfl
  · rw [if_neg (by simpa using h), if_neg h]
    rfl

lemma ofFloat_eq_or (x : Float) :
    (x.toBits.toNat / 2 ^ 52 % 2 ^ 11 = 0 ∧
        Binary.ofFloat x = ⟨x.toBits.toNat % 2 ^ 52, -1074⟩) ∨
      (x.toBits.toNat / 2 ^ 52 % 2 ^ 11 ≠ 0 ∧
        Binary.ofFloat x = ⟨2 ^ 52 + x.toBits.toNat % 2 ^ 52,
          (x.toBits.toNat / 2 ^ 52 % 2 ^ 11 : ℕ) - 1075⟩) := by
  by_cases hzero : x.toBits.toNat / 2 ^ 52 % 2 ^ 11 = 0
  · exact .inl ⟨hzero, if_pos hzero⟩
  · exact .inr ⟨hzero, if_neg hzero⟩

lemma field_ofFloat (x : Float) : (Binary.ofFloat x).field = x.toBits.toNat / 2 ^ 52 % 2 ^ 11 := by
  obtain ⟨hzero, hx⟩ | ⟨hne, hx⟩ := ofFloat_eq_or x <;> rw [hx, Binary.field]
  · rw [if_pos (Nat.mod_lt _ (by decide)), hzero]
  · rw [if_neg (Nat.not_lt.mpr (Nat.le_add_right _ _)), sub_add_cancel, Int.toNat_natCast]

lemma mantissa_ofFloat_mod (x : Float) :
    (Binary.ofFloat x).mantissa % 2 ^ 52 = x.toBits.toNat % 2 ^ 52 := by
  obtain ⟨-, hx⟩ | ⟨-, hx⟩ := ofFloat_eq_or x <;> rw [hx]
  · exact Nat.mod_mod _ _
  · rw [Nat.add_mod_left, Nat.mod_mod]

lemma field_lt_of_isFinite (hx : x.isFinite) : x.toBits.toNat / 2 ^ 52 % 2 ^ 11 < 2047 := by
  have hlt : x.toBits.toNat / 2 ^ 52 % 2 ^ 11 < 2 ^ 11 := Nat.mod_lt _ (by decide)
  by_contra htop
  have hall : @unpackExponent Format.binary64 x.toBits.toBitVec = -1#11 := by
    apply BitVec.eq_of_toNat_eq
    rw [toNat_unpackExponent]
    change x.toBits.toNat / 2 ^ 52 % 2 ^ 11 = 2047
    omega
  have hunpack : (UnpackedFloat.unpack Format.binary64 x.toBits.toBitVec).isFinite = true := hx
  simp only [UnpackedFloat.unpack] at hunpack
  rw [if_pos hall] at hunpack
  split_ifs at hunpack
  · cases hunpack
  · cases hunpack

lemma ofFloat_fits (hx : x.isFinite) : (Binary.ofFloat x).Fits := by
  have hfield := field_lt_of_isFinite hx
  obtain ⟨hzero, hx⟩ | ⟨hne, hx⟩ := ofFloat_eq_or x <;> rw [hx]
  · have hle : (-1074 : ℤ) ≤ 971 := by decide
    exact ⟨(Nat.mod_lt _ (by decide)).trans (by decide), le_refl _, hle, .inr rfl⟩
  · refine ⟨?_, ?_, ?_, .inl (Nat.le_add_right _ _)⟩ <;> dsimp only <;> omega

/-- The bits of a finite float are those of its sign and magnitude. -/
lemma word_ofFloat (x : Float) : (Binary.ofFloat x).word (signOf x) = x.toBits.toBitVec := by
  apply BitVec.eq_of_toNat_eq
  have hlt : x.toBits.toNat < 2 ^ 64 := x.toBits.toNat_lt
  have htwo : twoTo 63 = 2 ^ 63 := rfl
  have hbits : 2 ^ Format.binary64.exponentBits = 2 ^ 11 := rfl
  rw [Binary.word, toNat_packComponents, toNat_toBitVec_signOf, BitVec.toNat_ofNat,
    BitVec.toNat_ofNat, field_ofFloat, mantissa_ofFloat_mod, htwo, hbits]
  change _ = x.toBits.toNat
  split_ifs <;> omega

/-- A float is given by its bits. -/
lemma ofModel_eq_of_word {u : UnpackedFloat}
    (h : UnpackedFloat.pack Format.binary64 u = x.toBits.toBitVec) :
    Float.ofModel (.pack u) = x := by
  obtain ⟨⟨bits, hvalid⟩⟩ := x
  have hbits : UInt64.ofBitVec (UnpackedFloat.pack Format.binary64 u) = bits :=
    congrArg UInt64.ofBitVec h
  subst hbits
  rfl

lemma ofModel_pack_ofFloat (hx : x.isFinite) (hpos : 0 < (Binary.ofFloat x).mantissa) :
    Float.ofModel (.pack (.finite (signOf x) _ (Binary.ofFloat x).exponent hpos)) = x :=
  ofModel_eq_of_word (((ofFloat_fits hx).pack_eq hpos _).trans (word_ofFloat x))

lemma ofModel_pack_zero (hzero : (Binary.ofFloat x).mantissa = 0) :
    Float.ofModel (.pack (.zero (signOf x))) = x := by
  refine ofModel_eq_of_word (Eq.trans ?_ (word_ofFloat x))
  rw [Binary.word, Binary.field, hzero, if_pos (by decide)]
  rfl

/-- A sign goes in front of a magnitude. -/
lemma signed_ofModel_pack (hb : b.Fits) (hpos : 0 < b.mantissa) (negative : Bool) :
    signed negative (.ofModel (.pack (.finite .positive b.mantissa b.exponent hpos))) =
      .ofModel (.pack (.finite (if negative then .negative else .positive) b.mantissa b.exponent
        hpos)) := by
  cases negative with
  | false => rfl
  | true =>
    change Float.ofModel (.pack (Float.Model.unpack (.pack _)).neg) = _
    rw [hb.unpack_pack hpos]
    rfl

lemma signed_isNegative (hx : x.isFinite) (hpos : 0 < (Binary.ofFloat x).mantissa) :
    signed (isNegative x)
      (.ofModel (.pack (.finite .positive _ (Binary.ofFloat x).exponent hpos))) = x :=
  (signed_ofModel_pack (ofFloat_fits hx) hpos _).trans (ofModel_pack_ofFloat hx hpos)

lemma signed_isNegative_zero (hzero : (Binary.ofFloat x).mantissa = 0) :
    signed (isNegative x) 0.0 = x := by
  refine Eq.trans ?_ (ofModel_pack_zero hzero)
  rw [signOf]
  cases isNegative x with
  | false => rfl
  | true => rfl

end ParticleScene.Number
