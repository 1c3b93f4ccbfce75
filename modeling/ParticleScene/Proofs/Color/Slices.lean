import ParticleScene.Proofs.Color.Decoding
import ParticleScene.Proofs.Text.Bytes

/-!
# Colors told from bytes

Colors may be validated and decoded by the number of bytes of a text and by slices between bytes.
Such a slice could go through a character, but none that is taken does: a text is cut behind its
first byte only if that is a mark, and into pairs of bytes only if all its characters take one. The
answer is the one that the characters give, for every text.
-/

namespace ParticleScene.Color

open Text

variable {a b : Char} {cs : List Char} {rgb : Rgb}

/-! ### Validation -/

/-- Whether a text is seven bytes long, starts with a mark, and has only digits behind its first
byte. There is no answer if that byte is not a character. -/
def isHexSliced? (value : String) : Option Bool :=
  if value.utf8ByteSize = 7 ∧ value.toList.head? = some '#' then
    (dropBytes? 1 value.toList).map (·.all isHexDigit)
  else some false

lemma utf8Size_of_all (h : cs.all isHexDigit) : ∀ c ∈ cs, c.utf8Size = 1 := fun c hc =>
  utf8Size_eq_one (toNat_lt_of_isHexDigit (List.all_eq_true.mp h c hc))

/-- The bytes of a text tell whether it is a color. -/
lemma isHexSliced?_eq (value : String) : isHexSliced? value = some (isHex value) := by
  obtain ⟨cs, rfl⟩ := value.exists_eq_ofList
  rw [isHexSliced?, isHex, String.toList_ofList]
  obtain _ | ⟨c, cs⟩ := cs
  · rfl
  · by_cases hmark : c = '#'
    · subst hmark
      have hdrop : dropBytes? 1 ('#' :: cs) = some cs := by
        rw [dropBytes?_succ (by decide), dropBytes?]
      have hchars : isHexChars ('#' :: cs) = (cs.length == 6 && cs.all isHexDigit) := rfl
      rw [hdrop, hchars]
      by_cases hdigits : cs.all isHexDigit
      · have hsize : (String.ofList ('#' :: cs)).utf8ByteSize = cs.length + 1 :=
          utf8ByteSize_ofList (List.forall_mem_cons.mpr ⟨rfl, utf8Size_of_all hdigits⟩)
        rw [hsize, hdigits]
        by_cases hlength : cs.length = 6
        · simp [hlength, hdigits]
        · simp [hlength]
      · simp [hdigits]
    · have hchars : isHexChars (c :: cs) = false := by
        unfold isHexChars
        split
        · rename_i hcons
          exact absurd (List.cons_eq_cons.mp hcons).1 hmark
        · rfl
      simp [hchars, hmark]

/-! ### Decoding -/

/-- The number below 256 that hexadecimal digits spell. -/
def digitsByte? (ds : List Char) : Option UInt8 := do
  let n ← ds.foldlM (fun n d => (hexValue? d).map (16 * n + ·)) 0
  if ds ≠ [] ∧ n < 256 then some (UInt8.ofNat n) else none

/-- The number below 256 that hexadecimal digits spell, with a plus sign before them or not. -/
def byte? (cs : List Char) : Option UInt8 :=
  if cs.head? = some '+' ∧ 1 < cs.length then digitsByte? cs.tail else digitsByte? cs

def rgb? (red green blue : List Char) : Option Rgb := do
  let red ← byte? red
  let green ← byte? green
  let blue ← byte? blue
  some { red, green, blue }

/-- A color from three slices of two bytes each, if the text behind its marks is six bytes long and
each of its characters takes one. There is no answer if a slice goes through a character. -/
def decodeSliced? (value : String) : Option (Except Failure Rgb) :=
  let digits := (trimChars value.toList).dropWhile (· = '#')
  if (String.ofList digits).utf8ByteSize = 6 ∧ digits.all (·.toNat < 128) then do
    let red ← slice? 0 2 digits
    let green ← slice? 2 4 digits
    let blue ← slice? 4 6 digits
    some ((rgb? red green blue).elim (.error (.invalidColor value)) .ok)
  else some (.error (.invalidColor value))

/-- Of two characters, the general reading of numbers gives a channel. -/
lemma byte?_pair (a b : Char) : byte? [a, b] = channel? a b := by
  rw [byte?, channel?]
  by_cases hplus : a = '+'
  · subst hplus
    rw [if_pos ⟨rfl, Nat.one_lt_two⟩, if_pos rfl]
    cases hb : hexValue? b with
    | none => simp [digitsByte?, hb]
    | some lo =>
      obtain ⟨n, hn, hvalue, -⟩ := exists_hexValue? (mem_hexDigits_of_hexValue? hb)
      obtain rfl := Option.some.inj (hb.symm.trans hvalue)
      simp [digitsByte?, hb, Nat.lt_trans hn]
  · rw [if_neg (by simp [hplus]), if_neg hplus]
    cases ha : hexValue? a with
    | none => simp [digitsByte?, ha]
    | some hi =>
      cases hb : hexValue? b with
      | none => simp [digitsByte?, ha, hb]
      | some lo =>
        obtain ⟨m, hm, hvalue, -⟩ := exists_hexValue? (mem_hexDigits_of_hexValue? ha)
        obtain rfl := Option.some.inj (ha.symm.trans hvalue)
        obtain ⟨n, hn, hvalue, -⟩ := exists_hexValue? (mem_hexDigits_of_hexValue? hb)
        obtain rfl := Option.some.inj (hb.symm.trans hvalue)
        have hlt : 16 * hi + lo < 256 := by omega
        simp [digitsByte?, ha, hb, hlt]

/-- Each character of what spells a color takes one byte. -/
lemma SpellsRgb.isAscii (h : SpellsRgb cs rgb) : ∀ c ∈ cs, c.toNat < 128 := by
  intro c hc
  obtain rfl | hdigit := h.mem c hc
  · decide
  · exact toNat_lt_of_isHexDigit (isHexDigit_iff.mpr hdigit)

/-- From pairs of bytes comes the color that six characters spell. -/
lemma rgb?_of_slices (hascii : ∀ c ∈ cs, c.toNat < 128) (hlength : cs.length = 6) :
    ∃ red green blue, slice? 0 2 cs = some red ∧ slice? 2 4 cs = some green ∧
      slice? 4 6 cs = some blue ∧ rgb? red green blue = channels? cs := by
  have hone : ∀ c ∈ cs, c.utf8Size = 1 := fun c hc => utf8Size_eq_one (hascii c hc)
  refine ⟨_, _, _, slice?_eq_some hone (by decide) (by omega),
    slice?_eq_some hone (by decide) (by omega), slice?_eq_some hone (by decide) (by omega), ?_⟩
  match cs, hlength with
  | [a, b, c, d, e, f], _ =>
    change rgb? [a, b] [c, d] [e, f] = _
    rw [rgb?, byte?_pair, byte?_pair, byte?_pair]
    rfl

lemma utf8ByteSize_and_all_iff (cs : List Char) :
    ((String.ofList cs).utf8ByteSize = 6 ∧ cs.all (·.toNat < 128)) ↔
      cs.length = 6 ∧ ∀ c ∈ cs, c.toNat < 128 := by
  rw [List.all_eq_true]
  simp only [decide_eq_true_eq]
  exact and_congr_left fun h => by rw [utf8ByteSize_ofList fun c hc => utf8Size_eq_one (h c hc)]

/-- The bytes of a text tell the color that it is decoded to. -/
lemma decodeSliced?_eq (value : String) : decodeSliced? value = some (decode value) := by
  rw [decodeSliced?, decode]
  generalize (trimChars value.toList).dropWhile (· = '#') = digits
  by_cases h : digits.length = 6 ∧ ∀ c ∈ digits, c.toNat < 128
  · obtain ⟨red, green, blue, hred, hgreen, hblue, hrgb⟩ := rgb?_of_slices h.2 h.1
    rw [if_pos ((utf8ByteSize_and_all_iff digits).mpr h), hred, hgreen, hblue]
    change some ((rgb? red green blue).elim _ _) = _
    rw [hrgb]
    cases channels? digits <;> rfl
  · have hnone : channels? digits = none := by
      rw [Option.eq_none_iff_forall_ne_some]
      intro rgb hrgb
      have hspells := channels?_eq_some_iff.mp hrgb
      exact h ⟨hspells.length_eq, hspells.isAscii⟩
    rw [if_neg (mt (utf8ByteSize_and_all_iff digits).mp h), hnone]

end ParticleScene.Color
