import Mathlib.Tactic.IntervalCases
import Mathlib.Tactic.Lemma
import Mathlib.Tactic.SplitIfs
import ParticleScene.Text.Blank
import ParticleScene.Text.Digits

/-!
# Hexadecimal digits

There are sixteen digits, six of them in two cases. The two digits of a byte are the lower-case
digits of its two halves, so they tell bytes apart.
-/

namespace ParticleScene.Text

/-- The hexadecimal digits of either case. -/
def hexDigits : List Char :=
  "0123456789abcdefABCDEF".toList

variable {a b c : Char} {hi lo n : Nat}

/-- What was checked for each of the digits. -/
lemma of_mem_hexDigits {p : Char → Prop} [DecidablePred p] (hall : hexDigits.all (p ·))
    (h : c ∈ hexDigits) : p c :=
  of_decide_eq_true (List.all_eq_true.mp hall c h)

lemma hexValue?_hexDigit (hn : n < 16) : hexValue? (hexDigit n) = some n := by
  interval_cases n <;> decide

lemma hexDigit_mem_hexDigits (hn : n < 16) : hexDigit n ∈ hexDigits := by
  interval_cases n <;> decide

lemma toNat_lt_of_isHexDigit (h : isHexDigit c) : c.toNat < 128 := by
  simp only [isHexDigit, hexValue?] at h
  split_ifs at h with hdigit hlower hupper
  · omega
  · omega
  · omega
  · cases h

lemma isHexDigit_iff : isHexDigit c ↔ c ∈ hexDigits := by
  have hascii : ∀ n < 128, isHexDigit (Char.ofNat n) → Char.ofNat n ∈ hexDigits := by decide
  refine ⟨fun h => ?_, of_mem_hexDigits (p := fun c => isHexDigit c) (by decide)⟩
  have hmem := hascii c.toNat (toNat_lt_of_isHexDigit h)
  rw [Char.ofNat_toNat] at hmem
  exact hmem h

/-- A digit stands for a number, whose digit it is in lower case. -/
lemma exists_hexValue? (h : c ∈ hexDigits) :
    ∃ n < 16, hexValue? c = some n ∧ c.toLower = hexDigit n :=
  of_mem_hexDigits (p := fun c => ∃ n < 16, hexValue? c = some n ∧ c.toLower = hexDigit n)
    (by decide) h

lemma toLower_mem_hexDigits (h : c ∈ hexDigits) : c.toLower ∈ hexDigits := by
  obtain ⟨n, hn, -, hlower⟩ := exists_hexValue? h
  rw [hlower]
  exact hexDigit_mem_hexDigits hn

lemma toLower_toLower_of_mem_hexDigits (h : c ∈ hexDigits) : c.toLower.toLower = c.toLower :=
  of_mem_hexDigits (p := fun c => c.toLower.toLower = c.toLower) (by decide) h

lemma not_isBlank_of_mem_hexDigits (h : c ∈ hexDigits) : ¬ isBlank c :=
  of_mem_hexDigits (p := fun c => ¬ isBlank c) (by decide) h

/-! ### Bytes -/

lemma hexByte_ofNat (hhi : hi < 16) (hlo : lo < 16) :
    hexByte (UInt8.ofNat (16 * hi + lo)) = [hexDigit hi, hexDigit lo] := by
  have hbyte : (UInt8.ofNat (16 * hi + lo)).toNat = 16 * hi + lo :=
    UInt8.toNat_ofNat_of_lt' (by rw [UInt8.size]; omega)
  have hquotient : (16 * hi + lo) / 16 = hi := by omega
  have hrest : (16 * hi + lo) % 16 = lo := by omega
  rw [hexByte, hbyte, hquotient, hrest]

lemma mem_hexDigits_of_mem_hexByte {x : UInt8} (h : c ∈ hexByte x) : c ∈ hexDigits := by
  have hx := x.toNat_lt
  rw [hexByte, List.mem_cons, List.mem_singleton] at h
  obtain rfl | rfl := h
  · exact hexDigit_mem_hexDigits (by omega)
  · exact hexDigit_mem_hexDigits (Nat.mod_lt _ (by decide))

lemma hexByte_injective : Function.Injective hexByte := by
  intro x y h
  have hx := x.toNat_lt
  have hy := y.toNat_lt
  obtain ⟨hhi, hlo⟩ := List.cons_eq_cons.mp h
  have hhi := congrArg hexValue? hhi
  have hlo := congrArg hexValue? (List.cons_eq_cons.mp hlo).1
  rw [hexValue?_hexDigit (by omega), hexValue?_hexDigit (by omega), Option.some_inj] at hhi hlo
  exact UInt8.toNat_inj.mp (by omega)

end ParticleScene.Text
