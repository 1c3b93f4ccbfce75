import Mathlib.Data.List.TakeWhile
import ParticleScene.Color
import ParticleScene.Proofs.Text.Blank
import ParticleScene.Proofs.Text.Hex

/-!
# Decoded colors

A color is decoded from three channels of two characters each, behind any number of marks. Two
digits spell a channel, and so do a plus sign and one digit. Where neither a plus sign nor a second
mark stands, six digits behind one mark or none are decoded and nothing else is, and the color is
written with the same digits in lower case.
-/

namespace ParticleScene.Color

open Text

variable {a b : Char} {x : UInt8} {cs ds : List Char} {rgb : Rgb} {v : String}

/-! ### Channels -/

/-- The characters that spell a channel. -/
inductive SpellsChannel : List Char → UInt8 → Prop
  | digits {a b : Char} {x : UInt8} (ha : a ∈ hexDigits) (hb : b ∈ hexDigits)
      (hx : hexByte x = [a.toLower, b.toLower]) : SpellsChannel [a, b] x
  | plus {b : Char} {x : UInt8} (hb : b ∈ hexDigits) (hx : hexByte x = ['0', b.toLower]) :
      SpellsChannel ['+', b] x

lemma mem_hexDigits_of_hexValue? {n : Nat} (h : hexValue? a = some n) : a ∈ hexDigits :=
  isHexDigit_iff.mp (Option.isSome_iff_exists.mpr ⟨n, h⟩)

lemma exists_channel?_digits (ha : a ∈ hexDigits) (hb : b ∈ hexDigits) :
    ∃ x, channel? a b = some x ∧ hexByte x = [a.toLower, b.toLower] := by
  obtain ⟨hi, hhi, hahi, halower⟩ := exists_hexValue? ha
  obtain ⟨lo, hlo, hblo, hblower⟩ := exists_hexValue? hb
  have hplus : a ≠ '+' := by
    rintro rfl
    exact absurd ha (by decide)
  refine ⟨UInt8.ofNat (16 * hi + lo), ?_, ?_⟩
  · rw [channel?, if_neg hplus, hahi, hblo]
    rfl
  · rw [hexByte_ofNat hhi hlo, halower, hblower]

lemma exists_channel?_plus (hb : b ∈ hexDigits) :
    ∃ x, channel? '+' b = some x ∧ hexByte x = ['0', b.toLower] := by
  obtain ⟨lo, hlo, hblo, hblower⟩ := exists_hexValue? hb
  refine ⟨UInt8.ofNat (16 * 0 + lo), ?_, ?_⟩
  · rw [channel?, if_pos rfl, hblo, Nat.mul_zero, Nat.zero_add, Option.map_some]
  · rw [hexByte_ofNat (by decide) hlo, hblower]
    rfl

lemma mem_of_channel? (h : channel? a b = some x) :
    (a = '+' ∨ a ∈ hexDigits) ∧ b ∈ hexDigits := by
  rw [channel?] at h
  split at h
  · obtain ⟨lo, hlo, -⟩ := Option.map_eq_some_iff.mp h
    exact ⟨.inl ‹_›, mem_hexDigits_of_hexValue? hlo⟩
  · obtain ⟨hi, hhi, h⟩ := Option.bind_eq_some_iff.mp h
    obtain ⟨lo, hlo, -⟩ := Option.bind_eq_some_iff.mp h
    exact ⟨.inr (mem_hexDigits_of_hexValue? hhi), mem_hexDigits_of_hexValue? hlo⟩

/-- A channel is read from the characters that spell it. -/
lemma channel?_eq_some_iff : channel? a b = some x ↔ SpellsChannel [a, b] x := by
  constructor
  · intro h
    obtain ⟨rfl | ha, hb⟩ := mem_of_channel? h
    · obtain ⟨y, hy, hbyte⟩ := exists_channel?_plus hb
      obtain rfl := Option.some.inj (h.symm.trans hy)
      exact .plus hb hbyte
    · obtain ⟨y, hy, hbyte⟩ := exists_channel?_digits ha hb
      obtain rfl := Option.some.inj (h.symm.trans hy)
      exact .digits ha hb hbyte
  · intro h
    cases h with
    | digits ha hb hx =>
      obtain ⟨y, hy, hbyte⟩ := exists_channel?_digits ha hb
      rw [hy, hexByte_injective (hbyte.trans hx.symm)]
    | plus hb hx =>
      obtain ⟨y, hy, hbyte⟩ := exists_channel?_plus hb
      rw [hy, hexByte_injective (hbyte.trans hx.symm)]

/-! ### Three channels -/

/-- The characters that spell a color behind its marks. -/
inductive SpellsRgb : List Char → Rgb → Prop
  | intro {red green blue : List Char} {rgb : Rgb} (hred : SpellsChannel red rgb.red)
      (hgreen : SpellsChannel green rgb.green) (hblue : SpellsChannel blue rgb.blue) :
      SpellsRgb (red ++ green ++ blue) rgb

lemma SpellsChannel.exists_pair (h : SpellsChannel cs x) : ∃ a b, cs = [a, b] := by
  cases h with
  | digits => exact ⟨_, _, rfl⟩
  | plus => exact ⟨_, _, rfl⟩

lemma channels?_eq_some_iff : channels? cs = some rgb ↔ SpellsRgb cs rgb := by
  constructor
  · intro h
    unfold channels? at h
    split at h
    · obtain ⟨red, hred, h⟩ := Option.bind_eq_some_iff.mp h
      obtain ⟨green, hgreen, h⟩ := Option.bind_eq_some_iff.mp h
      obtain ⟨blue, hblue, h⟩ := Option.bind_eq_some_iff.mp h
      cases h
      exact .intro (channel?_eq_some_iff.mp hred) (channel?_eq_some_iff.mp hgreen)
        (channel?_eq_some_iff.mp hblue)
    · cases h
  · intro h
    obtain ⟨hred, hgreen, hblue⟩ := h
    obtain ⟨a, b, rfl⟩ := hred.exists_pair
    obtain ⟨c, d, rfl⟩ := hgreen.exists_pair
    obtain ⟨e, f, rfl⟩ := hblue.exists_pair
    simp only [List.cons_append, List.nil_append, channels?, channel?_eq_some_iff.mpr hred,
      channel?_eq_some_iff.mpr hgreen, channel?_eq_some_iff.mpr hblue, bind, Option.bind]

lemma SpellsRgb.length_eq (h : SpellsRgb cs rgb) : cs.length = 6 := by
  obtain ⟨hred, hgreen, hblue⟩ := h
  obtain ⟨a, b, rfl⟩ := hred.exists_pair
  obtain ⟨c, d, rfl⟩ := hgreen.exists_pair
  obtain ⟨e, f, rfl⟩ := hblue.exists_pair
  rfl

lemma SpellsRgb.mem (h : SpellsRgb cs rgb) : ∀ c ∈ cs, c = '+' ∨ c ∈ hexDigits := by
  have hchannel {cs : List Char} {x : UInt8} (h : SpellsChannel cs x) :
      ∀ c ∈ cs, c = '+' ∨ c ∈ hexDigits := by
    cases h with
    | digits ha hb => simp [ha, hb]
    | plus hb => simp [hb]
  obtain ⟨hred, hgreen, hblue⟩ := h
  exact List.forall_mem_append.mpr
    ⟨List.forall_mem_append.mpr ⟨hchannel hred, hchannel hgreen⟩, hchannel hblue⟩

lemma decode_eq_ok : decode v = .ok rgb ↔
    channels? ((trimChars v.toList).dropWhile (· = '#')) = some rgb := by
  rw [decode]
  split
  · rename_i found hfound
    rw [hfound, Except.ok.injEq, Option.some_inj]
  · rename_i hnone
    rw [hnone]
    exact iff_of_false (fun h => nomatch h) (fun h => nomatch h)

/-- A color is decoded from what spells it behind any number of marks. -/
lemma decode_eq_ok_iff : decode v = .ok rgb ↔
    ∃ marks cs, trimChars v.toList = List.replicate marks '#' ++ cs ∧ SpellsRgb cs rgb := by
  rw [decode_eq_ok, channels?_eq_some_iff]
  constructor
  · intro h
    refine ⟨((trimChars v.toList).takeWhile (· = '#')).length, _, ?_, h⟩
    have hmarks := List.eq_replicate_of_mem (l := (trimChars v.toList).takeWhile (· = '#'))
      fun c hc => by simpa using List.mem_takeWhile_imp hc
    rw [← hmarks, List.takeWhile_append_dropWhile]
  · rintro ⟨marks, cs, htrim, h⟩
    rw [htrim, List.dropWhile_append_of_pos (by simp)]
    obtain _ | ⟨c, cs⟩ := cs
    · exact h
    · have hc : c ≠ '#' := by
        rintro rfl
        exact absurd (h.mem '#' List.mem_cons_self) (by decide)
      rw [List.dropWhile_cons_of_neg (by simpa using hc)]
      exact h

/-! ### Six digits -/

/-- Six hexadecimal digits. -/
structure IsSix (ds : List Char) : Prop where
  length_eq : ds.length = 6
  digits : ∀ d ∈ ds, d ∈ hexDigits

lemma isSix_iff : IsSix ds ↔ (ds.length == 6 && ds.all isHexDigit) = true := by
  rw [Bool.and_eq_true, beq_iff_eq, List.all_eq_true]
  simp only [isHexDigit_iff]
  exact ⟨fun h => ⟨h.length_eq, h.digits⟩, fun h => ⟨h.1, h.2⟩⟩

instance (ds : List Char) : Decidable (IsSix ds) :=
  decidable_of_iff' _ isSix_iff

/-- Six digits behind one mark or none, with nothing but blanks around them. -/
structure IsWritten (v : String) (ds : List Char) : Prop where
  isSix : IsSix ds
  trimmed : trimChars v.toList = ds ∨ trimChars v.toList = '#' :: ds

/-- Six digits spell a color, which is written with them in lower case. -/
lemma IsSix.exists_spellsRgb (h : IsSix ds) :
    ∃ rgb, SpellsRgb ds rgb ∧ encode rgb = String.ofList ('#' :: ds.map Char.toLower) := by
  obtain ⟨a, b, c, d, e, f, rfl⟩ : ∃ a b c d e f, ds = [a, b, c, d, e, f] := by
    have hlength := h.length_eq
    match ds, hlength with
    | [a, b, c, d, e, f], _ => exact ⟨a, b, c, d, e, f, rfl⟩
  have hdigits := h.digits
  simp only [List.forall_mem_cons] at hdigits
  obtain ⟨ha, hb, hc, hd, he, hf, -⟩ := hdigits
  obtain ⟨red, -, hred⟩ := exists_channel?_digits ha hb
  obtain ⟨green, -, hgreen⟩ := exists_channel?_digits hc hd
  obtain ⟨blue, -, hblue⟩ := exists_channel?_digits he hf
  refine ⟨⟨red, green, blue⟩, ?_, ?_⟩
  · exact @SpellsRgb.intro [a, b] [c, d] [e, f] ⟨red, green, blue⟩ (.digits ha hb hred)
      (.digits hc hd hgreen) (.digits he hf hblue)
  · rw [encode, hred, hgreen, hblue]
    rfl

/-- Without plus signs, only six digits spell a color. -/
lemma SpellsRgb.isSix (h : SpellsRgb cs rgb) (hplus : '+' ∉ cs) : IsSix cs := by
  refine ⟨h.length_eq, fun c hc => (h.mem c hc).resolve_left ?_⟩
  rintro rfl
  exact hplus hc

/-- Written digits are decoded to the color that they are the text of. -/
lemma IsWritten.exists_decode (h : IsWritten v ds) :
    ∃ rgb, decode v = .ok rgb ∧ encode rgb = String.ofList ('#' :: ds.map Char.toLower) := by
  obtain ⟨rgb, hspells, hencode⟩ := h.isSix.exists_spellsRgb
  refine ⟨rgb, decode_eq_ok_iff.mpr ?_, hencode⟩
  obtain htrim | htrim := h.trimmed
  · exact ⟨0, ds, htrim, hspells⟩
  · exact ⟨1, ds, htrim, hspells⟩

/-- Without plus signs and second marks, only written digits are decoded. -/
lemma exists_isWritten_of_decode (hplus : '+' ∉ v.toList)
    (hmarks : ¬ ['#', '#'] <+: trimChars v.toList) (h : decode v = .ok rgb) :
    ∃ ds, IsWritten v ds := by
  obtain ⟨marks, ds, htrim, hspells⟩ := decode_eq_ok_iff.mp h
  have hsix : IsSix ds := hspells.isSix fun hmem =>
    hplus (trimChars_subset _ (htrim ▸ List.mem_append_right _ hmem))
  refine ⟨ds, hsix, ?_⟩
  match marks with
  | 0 => exact .inl htrim
  | 1 => exact .inr htrim
  | marks + 2 => exact absurd ⟨List.replicate marks '#' ++ ds, htrim.symm⟩ hmarks

/-- What is decoded, and when that is just six digits behind one mark or none. -/
theorem decode_grammar (v : String) :
    (∀ rgb, decode v = .ok rgb ↔
      ∃ marks cs, trimChars v.toList = List.replicate marks '#' ++ cs ∧ SpellsRgb cs rgb) ∧
    (∀ ds, IsWritten v ds →
      ∃ rgb, decode v = .ok rgb ∧ encode rgb = String.ofList ('#' :: ds.map Char.toLower)) ∧
    ('+' ∉ v.toList → ¬ ['#', '#'] <+: trimChars v.toList →
      ((∃ rgb, decode v = .ok rgb) ↔ ∃ ds, IsWritten v ds)) := by
  refine ⟨fun rgb => decode_eq_ok_iff, fun ds h => h.exists_decode, fun hplus hmarks => ?_⟩
  constructor
  · rintro ⟨rgb, h⟩
    exact exists_isWritten_of_decode hplus hmarks h
  · rintro ⟨ds, h⟩
    obtain ⟨rgb, hdecode, -⟩ := h.exists_decode
    exact ⟨rgb, hdecode⟩

theorem decode_grammar_mixed :
    '+' ∉ "\t#fF8000\n".toList ∧ ¬ ['#', '#'] <+: trimChars "\t#fF8000\n".toList ∧
      IsWritten "\t#fF8000\n" "fF8000".toList ∧
      (∃ rgb, decode "\t#fF8000\n" = .ok rgb ∧ encode rgb = "#ff8000") ∧
      ∃ ds, IsWritten "\t#fF8000\n" ds := by
  have hplus : '+' ∉ "\t#fF8000\n".toList := by decide
  have hmarks : ¬ ['#', '#'] <+: trimChars "\t#fF8000\n".toList := by decide
  have hwritten : IsWritten "\t#fF8000\n" "fF8000".toList :=
    ⟨by decide, .inr (by decide)⟩
  obtain ⟨-, hread, haccept⟩ := decode_grammar "\t#fF8000\n"
  obtain ⟨rgb, hdecode, hencode⟩ := hread _ hwritten
  refine ⟨hplus, hmarks, hwritten, ⟨rgb, hdecode, ?_⟩, (haccept hplus hmarks).mp ⟨rgb, hdecode⟩⟩
  rw [hencode]
  decide

/-- A plus sign in the place of a digit is decoded, and so is a second mark. -/
theorem decode_lenient :
    (decode "+f+f+f" = .ok ⟨15, 15, 15⟩ ∧ ¬ ∃ ds, IsWritten "+f+f+f" ds) ∧
      decode "##ff8000" = .ok ⟨255, 128, 0⟩ ∧ ¬ ∃ ds, IsWritten "##ff8000" ds := by
  have hplus : trimChars "+f+f+f".toList = "+f+f+f".toList := by decide
  have hmarks : trimChars "##ff8000".toList = "##ff8000".toList := by decide
  refine ⟨⟨by decide, ?_⟩, by decide, ?_⟩
  · rintro ⟨ds, hsix, htrim⟩
    rw [hplus] at htrim
    obtain rfl | htrim := htrim
    · exact absurd (hsix.digits '+' (by decide)) (by decide)
    · cases htrim
  · rintro ⟨ds, hsix, htrim⟩
    rw [hmarks] at htrim
    obtain rfl | htrim := htrim
    · exact absurd (hsix.digits '#' (by decide)) (by decide)
    · cases htrim
      exact absurd (hsix.digits '#' (by decide)) (by decide)

end ParticleScene.Color
