import Mathlib.Tactic.IntervalCases
import Mathlib.Tactic.Lemma
import ParticleScene.Text.Digits

/-!
# Numbers in decimal digits

The decimal digits of a number spell that number, and do not start with a zero unless the number
is zero.
-/

namespace ParticleScene.Text

lemma isAsciiDigit_of_isDigit {c : Char} (h : c.isDigit) : isAsciiDigit c := by
  simp only [Char.isDigit, Bool.and_eq_true, decide_eq_true_eq, ge_iff_le,
    UInt32.le_iff_toNat_le] at h
  simpa [isAsciiDigit] using h

lemma isDecimalDigit_of_isAsciiDigit {c : Char} (h : isAsciiDigit c) : isDecimalDigit c := by
  simp only [isAsciiDigit, Bool.and_eq_true, decide_eq_true_eq] at h
  simp [isDecimalDigit, inRanges, decimalDigitRanges, h]

lemma isAsciiDigit_of_mem_toDigits {c : Char} {n : Nat} (h : c ∈ Nat.toDigits 10 n) :
    isAsciiDigit c :=
  isAsciiDigit_of_isDigit (Nat.isDigit_of_mem_toDigits (by decide) (by decide) h)

lemma natural?_toDigits (n : Nat) : natural? (Nat.toDigits 10 n) = some n := by
  have hne : (Nat.toDigits 10 n).isEmpty = false := by simp
  have hall : (Nat.toDigits 10 n).all isAsciiDigit = true := by
    rw [List.all_eq_true]
    intro c hc
    exact isAsciiDigit_of_mem_toDigits hc
  rw [natural?, hne, hall]
  exact congrArg some Nat.ofDigitChars_ten_toDigits

lemma toList_toString (m : Nat) : (toString m).toList = Nat.toDigits 10 m := by
  rw [Nat.toString_eq_ofList_toDigits, String.toList_ofList]

lemma length_toString (m : Nat) : (toString m).length = (Nat.toDigits 10 m).length := by
  rw [← String.length_toList, toList_toString]

lemma toList_pushn (t : String) (c : Char) (n : Nat) :
    (t.pushn c n).toList = t.toList ++ List.replicate n c := by
  induction n with
  | zero => simp [String.pushn, Nat.repeat]
  | succ n ih =>
    rw [String.pushn] at ih ⊢
    rw [Nat.repeat, String.toList_push, ih, List.append_assoc, List.replicate_succ']

/-- A list of digits from `0` to `9`. -/
def AreDigits (ds : List Char) : Prop :=
  ∀ c ∈ ds, isAsciiDigit c

variable {n : Nat}

lemma areDigits_toDigits (n : Nat) : AreDigits (Nat.toDigits 10 n) :=
  fun _ => isAsciiDigit_of_mem_toDigits

lemma digitsValue_toDigits (n : Nat) : digitsValue (Nat.toDigits 10 n) = n :=
  Nat.ofDigitChars_ten_toDigits

lemma digitsValue_zeros (zeros : Nat) (ds : List Char) :
    digitsValue (List.replicate zeros '0' ++ ds) = digitsValue ds := by
  induction zeros with
  | zero => rfl
  | succ zeros ih =>
    rw [List.replicate_succ, List.cons_append]
    exact ih

lemma digitChar_ne_zero (hn : 0 < n) (hlt : n < 10) : n.digitChar ≠ '0' := by
  interval_cases n <;> decide

/-- The digits of a positive number do not start with zero. -/
lemma toDigits_ne_zero_cons (hn : 0 < n) (rest : List Char) : Nat.toDigits 10 n ≠ '0' :: rest := by
  induction n using Nat.strongRecOn generalizing rest with
  | ind n ih =>
    by_cases hlt : n < 10
    · rw [Nat.toDigits_of_lt_base hlt]
      intro h
      exact digitChar_ne_zero hn hlt (List.cons.inj h).1
    · rw [Nat.toDigits_of_base_le (by decide) (Nat.le_of_not_lt hlt)]
      intro h
      have hdiv : 0 < n / 10 := by omega
      cases hds : Nat.toDigits 10 (n / 10) with
      | nil => exact Nat.toDigits_ne_nil hds
      | cons d ds =>
        rw [hds, List.cons_append] at h
        rw [(List.cons.inj h).1] at hds
        exact ih (n / 10) (by omega) hdiv ds hds

end ParticleScene.Text
