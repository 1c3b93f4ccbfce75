import Mathlib.Tactic.SplitIfs
import ParticleScene.Json.Printer
import ParticleScene.Proofs.Json.Grammar
import ParticleScene.Proofs.Text.Hex

/-!
# Strings printed

A quoted string spells its characters, whatever these are: quotes, backslashes and control
characters are escaped, and each escape stands for its character.
-/

namespace ParticleScene.Json

open Text

/-- A control character has an escape that spells its number. -/
lemma spellsPiece_control {c : Char} (hc : c.toNat < 32) :
    SpellsPiece ['\\', 'u', '0', '0', hexDigit (c.toNat / 16), hexDigit (c.toNat % 16)]
      (.char c) := by
  have hhigh := hexValue?_hexDigit (n := c.toNat / 16) (by omega)
  have hlow := hexValue?_hexDigit (n := c.toNat % 16) (by omega)
  have hzero : hexValue? '0' = some 0 := rfl
  have hunit : unit? '0' '0' (hexDigit (c.toNat / 16)) (hexDigit (c.toNat % 16)) =
      some c.toNat := by
    simp only [unit?, hzero, hhigh, hlow, bind, Option.bind, Nat.zero_mul, Nat.zero_add,
      Nat.div_add_mod']
  have hpiece : Piece.ofUnit c.toNat = .char c := by
    rw [Piece.ofUnit, if_neg (by omega), if_neg (by omega), Char.ofNat_toNat]
  rw [← hpiece]
  exact .unit hunit

/-- The escape of a character stands for the character. -/
lemma spellsPiece_escape (c : Char) : SpellsPiece (escape c) (.char c) := by
  rw [escape]
  split_ifs with hquote hbackslash hline hreturn htab hback hform hcontrol
  · exact .short (by subst hquote; decide)
  · exact .short (by subst hbackslash; decide)
  · exact .short (by subst hline; decide)
  · exact .short (by subst hreturn; decide)
  · exact .short (by subst htab; decide)
  · exact .short (by subst hback; decide)
  · exact .short (by subst hform; decide)
  · exact spellsPiece_control hcontrol
  · exact .plain hquote hbackslash hcontrol

lemma spellsPieces_flatMap_escape (cs : List Char) :
    SpellsPieces (cs.flatMap escape) (cs.map Piece.char) := by
  induction cs with
  | nil => exact .nil
  | cons c cs ih =>
    rw [List.flatMap_cons, List.map_cons]
    exact .cons (spellsPiece_escape c) ih

lemma assemble?_map_char (cs : List Char) : assemble? (cs.map Piece.char) = some cs := by
  induction cs with
  | nil => rfl
  | cons c cs ih =>
    rw [List.map_cons, assemble?, ih]
    rfl

lemma toList_quote (t : String) : (quote t).toList = '"' :: (t.toList.flatMap escape ++ ['"']) := by
  rw [quote, String.toList_ofList]
  rfl

/-- A quoted string spells the string. -/
lemma spells_quote (t : String) : Spells (quote t).toList (.string t) := by
  have hspells := Spells.string (spellsPieces_flatMap_escape t.toList)
  rw [assemble?_map_char] at hspells
  rw [toList_quote]
  simpa using hspells

end ParticleScene.Json
