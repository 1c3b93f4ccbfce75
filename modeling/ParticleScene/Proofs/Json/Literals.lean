import Mathlib.Tactic.SplitIfs
import ParticleScene.Proofs.Json.Grammar

/-!
# Number literals printed

The text of a number literal spells that literal: sign, digits, power of ten and kind. A literal
that is no integer needs a point or a power of ten in its text to be told from one.
-/

namespace ParticleScene.Json

open Number Text

variable {ds after : List Char} {n : Literal}

/-! ### Digits before a point -/

lemma isWhole_zero : IsWhole ['0'] where
  areDigits c hc := by
    cases List.mem_singleton.mp hc
    rfl
  ne_nil := by rintro ⟨⟩
  unpadded d rest := by rintro ⟨⟩

lemma isWhole_toDigits (n : Nat) : IsWhole (Nat.toDigits 10 n) where
  areDigits := areDigits_toDigits n
  ne_nil := Nat.toDigits_ne_nil
  unpadded d rest := by
    cases n with
    | zero =>
      rw [Nat.toDigits_zero]
      rintro ⟨⟩
    | succ n => exact toDigits_ne_zero_cons n.succ_pos _

lemma IsWhole.take (hds : IsWhole ds) {k : Nat} (hk : 0 < k) : IsWhole (ds.take k) where
  areDigits c hc := hds.areDigits c (List.mem_of_mem_take hc)
  ne_nil := by simpa [hk.ne'] using hds.ne_nil
  unpadded d rest h := by
    have hsplit := List.take_append_drop k ds
    rw [h] at hsplit
    exact hds.unpadded d _ hsplit.symm

/-! ### Powers of ten -/

/-- The characters of a sign and a power of ten. -/
def powerChars (power : Int) : List Char :=
  (if power < 0 then '-' else '+') :: Nat.toDigits 10 power.natAbs

lemma spellsPower_powerChars (power : Int) :
    SpellsPower ('e' :: powerChars power) (some power) := by
  have hsigned := @SpellsPower.signed (power < 0) 'e' _ (Or.inl rfl)
    (areDigits_toDigits power.natAbs) Nat.toDigits_ne_nil
  have hvalue : (if power < 0 then -(power.natAbs : Int) else power.natAbs) = power := by
    split_ifs <;> omega
  simp only [decide_eq_true_eq, digitsValue_toDigits, hvalue] at hsigned
  exact hsigned

/-! ### Literals -/

/-- The place of the point, counted from the first digit. -/
def Literal.point (n : Literal) : Int :=
  (toString n.digits).length + n.exponent

/-- The text of a literal shows its kind: an integer has no power of ten, and another number has
places after the point when no power of ten is written. -/
def Literal.ShowsKind (n : Literal) : Prop :=
  if n.integral then n.exponent = 0 else plainPlaces n.point → n.exponent < 0

/-- The text of a literal without its sign. -/
def Literal.unsigned (n : Literal) : String :=
  if n.integral then toString n.digits
  else if plainPlaces n.point then positional (toString n.digits) n.point
  else scientific (toString n.digits) n.point

lemma Literal.text_eq (n : Literal) : n.text = sign n.negative ++ n.unsigned := rfl

/-- A text spells the number whose digits, power of ten and kind it shows. -/
lemma spellsMagnitude_of_parts {whole powerChars : List Char} {fraction : Option (List Char)}
    {power : Option Int} (hwhole : IsWhole whole)
    (hfraction : ∀ ds ∈ fraction, AreDigits ds ∧ ds ≠ []) (hpower : SpellsPower powerChars power)
    (hdigits : digitsValue (whole ++ fraction.getD []) = n.digits)
    (hexponent : power.getD 0 - (fraction.getD []).length = n.exponent)
    (hintegral : (fraction.isNone && power.isNone) = n.integral) :
    SpellsMagnitude (whole ++ fractionChars fraction ++ powerChars) n := by
  have hspells := SpellsMagnitude.parts n.negative hwhole hfraction hpower
  rwa [hdigits, hexponent, hintegral] at hspells

lemma spells_integral (hn : n.ShowsKind) (hintegral : n.integral) :
    SpellsMagnitude n.unsigned.toList n := by
  have hexponent : n.exponent = 0 := by rwa [Literal.ShowsKind, if_pos hintegral] at hn
  have hchars : n.unsigned.toList = Nat.toDigits 10 n.digits ++ fractionChars none ++ [] := by
    rw [Literal.unsigned, if_pos hintegral, toList_toString, fractionChars, List.append_nil,
      List.append_nil]
  rw [hchars]
  refine spellsMagnitude_of_parts (isWhole_toDigits n.digits) (by rintro ds ⟨⟩) .missing ?_ ?_ ?_
  · rw [Option.getD_none, List.append_nil, digitsValue_toDigits]
  · rw [hexponent]
    rfl
  · rw [hintegral]
    rfl

/-- Digits before and after the point of a number, of which the text of a literal consists. -/
structure SpelledBy (n : Literal) (whole after : List Char) : Prop where
  isWhole : IsWhole whole
  areDigits : AreDigits after
  digitsValue_eq : digitsValue (whole ++ after) = n.digits

/-- A number with digits after the point is written with them. -/
lemma exists_positional_eq (hexponent : n.exponent < 0) :
    ∃ whole after, SpelledBy n whole after ∧ (after.length : Int) = -n.exponent ∧
      (positional (toString n.digits) n.point).toList = whole ++ '.' :: after := by
  have hpoint : n.point = (Nat.toDigits 10 n.digits).length + n.exponent := by
    rw [Literal.point, length_toString]
  rw [positional, length_toString]
  split_ifs with hle hge
  · refine ⟨['0'], List.replicate (-n.point).toNat '0' ++ Nat.toDigits 10 n.digits,
      ⟨isWhole_zero, ?_, ?_⟩, ?_, ?_⟩
    · refine List.forall_mem_append.mpr ⟨fun c hc => ?_, areDigits_toDigits n.digits⟩
      rw [List.eq_of_mem_replicate hc]
      rfl
    · have hzeros := digitsValue_zeros ((-n.point).toNat + 1) (Nat.toDigits 10 n.digits)
      rwa [digitsValue_toDigits] at hzeros
    · rw [List.length_append, List.length_replicate]
      omega
    · simp only [String.toList_append, toList_pushn, toList_toString]
      rfl
  · exact absurd hge (by omega)
  · refine ⟨(Nat.toDigits 10 n.digits).take n.point.toNat,
      (Nat.toDigits 10 n.digits).drop n.point.toNat,
      ⟨(isWhole_toDigits n.digits).take (by omega), ?_, ?_⟩, ?_, ?_⟩
    · exact fun c hc => areDigits_toDigits n.digits c (List.mem_of_mem_drop hc)
    · rw [List.take_append_drop, digitsValue_toDigits]
    · rw [List.length_drop]
      omega
    · simp only [String.toList_append, String.toList_ofList, toList_toString, List.append_assoc]
      rfl

/-- A number in scientific form has one digit before the point. -/
lemma exists_scientific_eq (n : Literal) :
    ∃ whole after, SpelledBy n whole after ∧ (after.length : Int) = n.point - 1 - n.exponent ∧
      (scientific (toString n.digits) n.point).toList =
        whole ++ (if after = [] then [] else '.' :: after) ++ 'e' :: powerChars (n.point - 1) := by
  refine ⟨(Nat.toDigits 10 n.digits).take 1, (Nat.toDigits 10 n.digits).drop 1,
    ⟨(isWhole_toDigits n.digits).take Nat.one_pos, ?_, ?_⟩, ?_, ?_⟩
  · exact fun c hc => areDigits_toDigits n.digits c (List.mem_of_mem_drop hc)
  · rw [List.take_append_drop, digitsValue_toDigits]
  · have hpos := Nat.length_toDigits_pos (b := 10) (n := n.digits)
    rw [List.length_drop, Literal.point, length_toString]
    omega
  · rw [scientific, toList_toString]
    generalize (Nat.toDigits 10 n.digits).drop 1 = after
    have hempty : (String.ofList after).isEmpty = decide (after = []) := by
      rw [Bool.eq_iff_iff, String.isEmpty_iff, decide_eq_true_eq, String.ofList_eq_empty_iff]
    by_cases hafter : after = [] <;> by_cases hneg : n.point - 1 < 0 <;>
      simp [hempty, hafter, hneg, powerChars]

lemma spells_positional (hintegral : n.integral = false) (hexponent : n.exponent < 0) :
    SpellsMagnitude (positional (toString n.digits) n.point).toList n := by
  obtain ⟨whole, after, hspelled, hlength, hchars⟩ := exists_positional_eq hexponent
  have hne : after ≠ [] := by
    rintro rfl
    simp at hlength
    omega
  rw [hchars, ← List.append_nil (whole ++ '.' :: after)]
  change SpellsMagnitude (whole ++ fractionChars (some after) ++ []) n
  refine spellsMagnitude_of_parts hspelled.isWhole ?_ .missing hspelled.digitsValue_eq ?_ ?_
  · rintro ds ⟨⟩
    exact ⟨hspelled.areDigits, hne⟩
  · rw [Option.getD_some, hlength, Option.getD_none, zero_sub, neg_neg]
  · rw [hintegral]
    rfl

/-- Before a power of ten, no point stands without digits behind it. -/
lemma exists_fraction_eq (hafter : AreDigits after) :
    ∃ fraction, fraction.getD [] = after ∧ (∀ ds ∈ fraction, AreDigits ds ∧ ds ≠ []) ∧
      fractionChars fraction = if after = [] then [] else '.' :: after := by
  by_cases hne : after = []
  · subst hne
    exact ⟨none, rfl, by rintro ds ⟨⟩, rfl⟩
  · refine ⟨some after, rfl, ?_, by rw [if_neg hne]; rfl⟩
    rintro ds ⟨⟩
    exact ⟨hafter, hne⟩

lemma spells_scientific (hintegral : n.integral = false) :
    SpellsMagnitude (scientific (toString n.digits) n.point).toList n := by
  obtain ⟨whole, after, hspelled, hlength, hchars⟩ := exists_scientific_eq n
  obtain ⟨fraction, hfraction, hdigits, hfractionChars⟩ := exists_fraction_eq hspelled.areDigits
  rw [hchars, ← hfractionChars]
  refine spellsMagnitude_of_parts hspelled.isWhole hdigits (spellsPower_powerChars _) ?_ ?_ ?_
  · rw [hfraction, hspelled.digitsValue_eq]
  · rw [hfraction, hlength, Option.getD_some, sub_sub_cancel]
  · rw [hintegral, Option.isNone_some, Bool.and_false]

lemma spells_unsigned (hn : n.ShowsKind) : SpellsMagnitude n.unsigned.toList n := by
  cases hintegral : n.integral with
  | true => exact spells_integral hn hintegral
  | false =>
    rw [Literal.ShowsKind, hintegral, if_neg Bool.false_ne_true] at hn
    rw [Literal.unsigned, hintegral, if_neg Bool.false_ne_true]
    split_ifs with hplain
    · exact spells_positional hintegral (hn hplain)
    · exact spells_scientific hintegral

/-- The text of a literal spells the literal. -/
lemma spells_literal (hn : n.ShowsKind) : Spells n.text.toList (.number n) := by
  have hsign : (sign n.negative).toList = if n.negative then ['-'] else [] := by
    cases n.negative <;> rfl
  rw [Literal.text_eq, String.toList_append, hsign]
  exact .number (spells_unsigned hn)

/-! ### Literals of integers and floats -/

lemma ofInt_showsKind (z : Int) : (Literal.ofInt z).ShowsKind := rfl

lemma ofFloat_showsKind (x : Float) : (Literal.ofFloat x).ShowsKind := by
  rw [Literal.ofFloat]
  split_ifs with hplain
  · rw [Literal.ShowsKind, if_neg Bool.false_ne_true]
    exact fun _ => Int.negSucc_lt_zero 0
  · rw [Literal.ShowsKind, if_neg Bool.false_ne_true]
    intro hpoint
    by_contra hexponent
    exact hplain ⟨hpoint, not_lt.mp hexponent⟩

end ParticleScene.Json
