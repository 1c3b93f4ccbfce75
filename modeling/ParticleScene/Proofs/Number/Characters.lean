import ParticleScene.Number.Notation
import ParticleScene.Proofs.Text.Digits

/-!
# Characters of written numbers

A float in a command or a message is written with digits, a sign and a point, or as one of the
words for what is not finite. No bracket, blank or line end is among these characters.
-/

namespace ParticleScene.Number

open Text

/-- The characters that numbers are written with. -/
def isNumeric (c : Char) : Bool :=
  isAsciiDigit c || ['.', '-', 'N', 'a', 'i', 'n', 'f'].contains c

/-- A text of such characters. -/
def IsNumeral (s : String) : Prop :=
  ∀ c ∈ s.toList, isNumeric c

variable {s t : String}

lemma IsNumeral.append (hs : IsNumeral s) (ht : IsNumeral t) : IsNumeral (s ++ t) := by
  rw [IsNumeral, String.toList_append]
  exact List.forall_mem_append.mpr ⟨hs, ht⟩

lemma isNumeral_ofList {cs : List Char} (h : ∀ c ∈ cs, isNumeric c) :
    IsNumeral (String.ofList cs) := by
  rwa [IsNumeral, String.toList_ofList]

lemma IsNumeral.notMem {c : Char} (hs : IsNumeral s) (hc : ¬ isNumeric c) : c ∉ s.toList :=
  fun hmem => hc (hs c hmem)

lemma isNumeral_of_all (h : s.toList.all isNumeric) : IsNumeral s :=
  List.all_eq_true.mp h

lemma isNumeral_toString (n : Nat) : IsNumeral (toString n) := by
  refine isNumeral_ofList fun c hc => ?_
  rw [isNumeric, isAsciiDigit_of_mem_toDigits hc, Bool.true_or]

lemma isNumeral_toString_int (z : Int) : IsNumeral (toString z) := by
  cases z with
  | ofNat n => exact isNumeral_toString n
  | negSucc n => exact (isNumeral_of_all (s := "-") (by decide)).append (isNumeral_toString (n + 1))

lemma IsNumeral.pushn (hs : IsNumeral s) (n : Nat) : IsNumeral (s.pushn '0' n) := by
  induction n with
  | zero => exact hs
  | succ n ih =>
    rw [String.pushn, Nat.repeat, IsNumeral, String.toList_push]
    exact List.forall_mem_append.mpr ⟨ih, List.forall_mem_singleton.mpr (by decide)⟩

lemma IsNumeral.positional (hs : IsNumeral s) (k : Int) : IsNumeral (positional s k) := by
  rw [Number.positional]
  split
  · exact ((isNumeral_of_all (by decide)).append ((isNumeral_of_all (by decide)).pushn _)).append hs
  split
  · exact hs.pushn _
  · have htake := isNumeral_ofList fun c hc => hs c (List.mem_of_mem_take (i := k.toNat) hc)
    have hdrop := isNumeral_ofList fun c hc => hs c (List.mem_of_mem_drop (i := k.toNat) hc)
    exact (htake.append (isNumeral_of_all (by decide))).append hdrop

lemma isNumeral_places (places units : Nat) : IsNumeral (Number.places places units) :=
  (((isNumeral_of_all (by decide)).pushn _).append (isNumeral_toString units)).positional _

lemma isNumeral_sign (negative : Bool) : IsNumeral (sign negative) := by
  cases negative with
  | false => exact isNumeral_of_all (by decide)
  | true => exact isNumeral_of_all (by decide)

lemma isNumeral_of_special? {x : Float} (h : special? x = some s) : IsNumeral s := by
  rw [special?] at h
  split at h
  · cases h
    exact isNumeral_of_all (by decide)
  split at h
  · cases h
    exact (isNumeral_sign _).append (isNumeral_of_all (by decide))
  · cases h

/-- A float with a set number of places is a numeral. -/
lemma isNumeral_fixed (n : Nat) (x : Float) : IsNumeral (fixed n x) := by
  rw [fixed]
  split
  · exact isNumeral_of_special? ‹_›
  · exact (isNumeral_sign _).append (isNumeral_places _ _)

/-- A float with its shortest digits is a numeral. -/
lemma isNumeral_plain (x : Float) : IsNumeral (plain x) := by
  rw [plain]
  split
  · exact isNumeral_of_special? ‹_›
  · exact (isNumeral_sign _).append ((isNumeral_toString _).positional _)

end ParticleScene.Number
