import ParticleScene.Preview
import ParticleScene.Proofs.Color.Slices
import ParticleScene.Proofs.Scene.Effects

/-!
# Colors in normal form

The normal form of a color is a mark and six digits in lower case. Normalizing gives it, decoding
and writing a color again comes back to it, and whatever else is no color in any form is refused.
So the colors of a layer that was given one color are all decoded and written as that color.
-/

namespace ParticleScene.Color

open Text

variable {v c : String} {cs ds : List Char}

/-! ### Validation -/

lemma isHexChars_iff : isHexChars cs ↔ ∃ ds, IsSix ds ∧ cs = '#' :: ds := by
  constructor
  · intro h
    unfold isHexChars at h
    split at h
    · exact ⟨_, isSix_iff.mpr h, rfl⟩
    · cases h
  · rintro ⟨ds, h, rfl⟩
    exact isSix_iff.mp h

lemma isHex_ofList (h : IsSix ds) : isHex (String.ofList ('#' :: ds)) := by
  rw [isHex, String.toList_ofList]
  exact isHexChars_iff.mpr ⟨ds, h, rfl⟩

/-! ### The normal form -/

/-- Digits in lower case are digits. -/
lemma IsSix.lower (h : IsSix ds) : IsSix (ds.map Char.toLower) := by
  refine ⟨by rw [List.length_map, h.length_eq], ?_⟩
  rw [List.forall_mem_map]
  exact fun d hd => toLower_mem_hexDigits (h.digits d hd)

lemma IsSix.lower_lower (h : IsSix ds) :
    (ds.map Char.toLower).map Char.toLower = ds.map Char.toLower := by
  rw [List.map_map, List.map_inj_left]
  exact fun d hd => toLower_toLower_of_mem_hexDigits (h.digits d hd)

/-- No blanks stand around a mark and digits. -/
lemma IsSix.trimChars_eq (h : IsSix ds) : trimChars ('#' :: ds) = '#' :: ds := by
  refine (isTrimmed_of_all ?_).trimChars_eq
  rw [List.all_cons, Bool.and_eq_true, List.all_eq_true]
  exact ⟨by decide, fun d hd => by simpa using not_isBlank_of_mem_hexDigits (h.digits d hd)⟩

/-- What is normalized, and the normal form of it. -/
lemma normalize_eq_ok_iff : normalize v = .ok c ↔
    ∃ ds, IsSix ds ∧ trimChars v.toList = '#' :: ds ∧
      c = String.ofList ('#' :: ds.map Char.toLower) := by
  have hhex : isHex (trim v) ↔ ∃ ds, IsSix ds ∧ trimChars v.toList = '#' :: ds := by
    rw [isHex, trim, String.toList_ofList]
    exact isHexChars_iff
  have hlower {ds : List Char} (h : trimChars v.toList = '#' :: ds) :
      lowerAscii (trim v) = String.ofList ('#' :: ds.map Char.toLower) := by
    rw [lowerAscii, trim, String.toList_ofList, h]
    rfl
  rw [normalize]
  constructor
  · intro h
    split at h
    · obtain ⟨ds, hsix, htrim⟩ := hhex.mp ‹_›
      rw [hlower htrim] at h
      exact ⟨ds, hsix, htrim, (Except.ok.inj h).symm⟩
    · cases h
  · rintro ⟨ds, hsix, htrim, rfl⟩
    rw [if_pos (hhex.mpr ⟨ds, hsix, htrim⟩), hlower htrim]

/-- Everything else is refused. -/
lemma normalize_eq_error_iff :
    (∃ why, normalize v = .error why) ↔ ¬ ∃ ds, IsSix ds ∧ trimChars v.toList = '#' :: ds := by
  cases h : normalize v with
  | error why =>
    refine iff_of_true ⟨why, rfl⟩ ?_
    rintro ⟨ds, hsix, htrim⟩
    rw [normalize_eq_ok_iff.mpr ⟨ds, hsix, htrim, rfl⟩] at h
    cases h
  | ok c =>
    obtain ⟨ds, hsix, htrim, -⟩ := normalize_eq_ok_iff.mp h
    exact iff_of_false (fun ⟨_, h⟩ => nomatch h) (not_not_intro ⟨ds, hsix, htrim⟩)

/-- A normal form is a color and its own normal form. -/
lemma normalize_idem (h : normalize v = .ok c) : isHex c ∧ normalize c = .ok c := by
  obtain ⟨ds, hsix, -, rfl⟩ := normalize_eq_ok_iff.mp h
  refine ⟨isHex_ofList hsix.lower, normalize_eq_ok_iff.mpr ⟨_, hsix.lower, ?_, ?_⟩⟩
  · rw [String.toList_ofList, hsix.lower.trimChars_eq]
  · rw [hsix.lower_lower]

/-- Different colors have different texts. -/
lemma encode_injective : Function.Injective encode := by
  rintro ⟨red, green, blue⟩ ⟨red', green', blue'⟩ h
  have hchars := String.ofList_injective h
  obtain ⟨hfront, hblue⟩ := List.append_inj' hchars rfl
  obtain ⟨hred, hgreen⟩ := List.append_inj' hfront rfl
  rw [Rgb.mk.injEq]
  exact ⟨hexByte_injective (List.cons_eq_cons.mp hred).2, hexByte_injective hgreen,
    hexByte_injective hblue⟩

/-- A text and its normal form are decoded to one color, which is written as the normal form. -/
lemma exists_decode_of_normalize (h : normalize v = .ok c) :
    ∃ rgb, decode v = .ok rgb ∧ decode c = .ok rgb ∧ encode rgb = c := by
  obtain ⟨ds, hsix, htrim, rfl⟩ := normalize_eq_ok_iff.mp h
  have hv : IsWritten v ds := ⟨hsix, .inr htrim⟩
  have hc : IsWritten (String.ofList ('#' :: ds.map Char.toLower)) (ds.map Char.toLower) :=
    ⟨hsix.lower, .inr (by rw [String.toList_ofList, hsix.lower.trimChars_eq])⟩
  obtain ⟨rgb, hdecode, hencode⟩ := hv.exists_decode
  obtain ⟨rgb', hdecode', hencode'⟩ := hc.exists_decode
  rw [hsix.lower_lower, ← hencode] at hencode'
  rw [encode_injective hencode'] at hdecode'
  exact ⟨rgb, hdecode, hdecode', hencode⟩

/-! ### The colors of a layer -/

/-- The points of a layer stand together in the preview. -/
lemma previewPoints_infix {l : Layer} {ls : List Layer} (h : l ∈ ls) :
    previewPoints [l] <:+: previewPoints ls := by
  obtain ⟨before, after, rfl⟩ := List.append_of_mem h
  refine ⟨previewPoints before, previewPoints after, ?_⟩
  simp only [previewPoints, List.flatMap_append, List.flatMap_cons, List.flatMap_nil,
    List.append_nil, List.append_assoc]

/-- In a layer of one color, all points have this color. -/
lemma color_of_mem_previewPoints_recolor {l : Layer} {p : PreviewPoint}
    (h : p ∈ previewPoints [l.recolor c]) : p.color = c := by
  rw [previewPoints, List.flatMap_singleton, List.mem_map] at h
  obtain ⟨e, he, rfl⟩ := h
  obtain ⟨e, -, rfl⟩ := List.mem_map.mp he
  rfl

/-- Validation, the normal form, decoding and writing agree on every text, told from its characters
or from its bytes, and so do the colors that a layer shows after it was given one. -/
theorem normalize_agrees :
    (∀ v c, normalize v = .ok c → isHex c ∧ normalize c = .ok c ∧
      ∃ rgb, decode v = .ok rgb ∧ decode c = .ok rgb ∧ encode rgb = c) ∧
    (∀ (s s' : Scene) (index : Nat) (v : String) (answer : Answer),
      s.attempt (.setLayerColor index v) = .ok (answer, s') →
      ∃ l, s'.layers[index]? = some l ∧ normalize v = .ok l.color ∧
        previewPoints [l] <:+: previewPoints s'.layers ∧
        ∀ p ∈ previewPoints [l], p.color = l.color ∧
          ∃ rgb, p.rgb = .ok rgb ∧ encode rgb = l.color) ∧
    (∀ v, (∃ why, normalize v = .error why) ↔
      ¬ ∃ ds, IsSix ds ∧ trimChars v.toList = '#' :: ds) ∧
    ∀ v, isHexSliced? v = some (isHex v) ∧ decodeSliced? v = some (decode v) := by
  refine ⟨fun v c h => ?_, fun s s' index v answer h => ?_, fun v => normalize_eq_error_iff,
    fun v => ⟨isHexSliced?_eq v, decodeSliced?_eq v⟩⟩
  · obtain ⟨hhex, hnormal⟩ := normalize_idem h
    exact ⟨hhex, hnormal, exists_decode_of_normalize h⟩
  · obtain ⟨l, c, hl, hnormal, -, rfl⟩ := Scene.attempt_setLayerColor.mp h
    have hput : (s.layers.set index (l.recolor c))[index]? = some (l.recolor c) :=
      List.getElem?_set_self (List.getElem?_eq_some_iff.mp hl).1
    refine ⟨l.recolor c, hput, hnormal, previewPoints_infix (List.mem_of_getElem? hput),
      fun p hp => ?_⟩
    have hcolor := color_of_mem_previewPoints_recolor hp
    obtain ⟨rgb, -, hdecode, hencode⟩ := exists_decode_of_normalize hnormal
    refine ⟨hcolor, rgb, ?_, hencode⟩
    rw [PreviewPoint.rgb, hcolor, hdecode]

/-- A layer with an element of its own color and one that has none. -/
def twoColored : Scene :=
  .ofLayers [{ elements := [{ kind := .free, position := ⟨0.0, 0.0⟩, color := some "red" },
    { kind := .obj, position := ⟨1.0, 0.0⟩ }] }]

theorem normalize_agrees_twoColored :
    normalize " #FFAA00\n" = .ok "#ffaa00" ∧
      (∃ rgb, decode " #FFAA00\n" = .ok rgb ∧ encode rgb = "#ffaa00") ∧
      ∃ s', twoColored.attempt (.setLayerColor 0 " #FFAA00\n") = .ok (.done, s') ∧
        ∀ p ∈ previewPoints s'.layers, ∃ rgb, p.rgb = .ok rgb ∧ encode rgb = "#ffaa00" := by
  obtain ⟨hagree, hlayer, -, -⟩ := normalize_agrees
  have hnormal : normalize " #FFAA00\n" = .ok "#ffaa00" := by decide
  obtain ⟨-, -, rgb, hdecode, -, hencode⟩ := hagree _ _ hnormal
  refine ⟨hnormal, ⟨rgb, hdecode, hencode⟩, _,
    Scene.attempt_setLayerColor.mpr ⟨_, _, rfl, hnormal, rfl, rfl⟩, fun p hp => ?_⟩
  obtain ⟨l, hl, hcolor, -, hpoints⟩ := hlayer twoColored _ 0 " #FFAA00\n" .done
    (Scene.attempt_setLayerColor.mpr ⟨_, _, rfl, hnormal, rfl, rfl⟩)
  cases hl
  exact (hpoints p hp).2

end ParticleScene.Color
