import ParticleScene.Document
import ParticleScene.Preview
import ParticleScene.Proofs.Layer
import ParticleScene.Proofs.Script.Bare
import ParticleScene.Proofs.Targeter

/-!
# Loading what was saved

A document keeps a layer in range as it is, but for the window of ticks of its elements, which
has no missing end any more. Scripts and previews do not depend on these windows. Layers that
come out of a document come out of it again after they were saved.
-/

namespace ParticleScene

/-- An element with a whole window of ticks; a missing end has its default. -/
def Element.fillTicks (e : Element) : Element :=
  { e with
    tickStart := some (e.tickStart.getD 0)
    tickEnd := some (e.tickEnd.getD 20) }

/-- A layer whose elements have whole windows of ticks. -/
def Layer.fillTicks (l : Layer) : Layer :=
  { l with elements := l.elements.map Element.fillTicks }

/-! ### Windows of ticks -/

lemma Layer.InRange.fillTicks {l : Layer} (h : l.InRange) : l.fillTicks.InRange :=
  ⟨h.alpha_isFinite, h.zero_le_alpha, h.alpha_le_one, h.one_le_repeatCount,
    h.one_le_repeatInterval⟩

lemma Layer.bare_fillTicks (m : Modes) (l : Layer) : l.fillTicks.bare m = l.bare m := by
  simp [bare, fillTicks, Element.bare, Element.fillTicks, Function.comp_def]

lemma compile_fillTicks (o : Options) (signal : Compile.Signal) (ls : List Layer) :
    compile o signal (ls.map Layer.fillTicks) = compile o signal ls := by
  have hbare : (ls.map Layer.fillTicks).map (Layer.bare o.modes) =
      ls.map (Layer.bare o.modes) := by
    rw [List.map_map]
    exact List.map_congr_left fun l _ => Layer.bare_fillTicks o.modes l
  rw [← compile_bare, hbare, compile_bare]

lemma previewPoints_fillTicks (ls : List Layer) :
    previewPoints (ls.map Layer.fillTicks) = previewPoints ls := by
  simp only [previewPoints, List.flatMap_map, Layer.fillTicks, List.map_map]
  rfl

/-! ### Layers and records -/

lemma countOfInt_countToInt {n : UInt32} (h : 1 ≤ n) : countOfInt (countToInt n) = n := by
  have hn := n.toNat_lt
  have hone : 1 ≤ n.toNat := UInt32.le_iff_toNat_le.mp h
  have hint : (countToInt n).toInt = n.toNat := by
    rw [countToInt, Int64.toInt_ofInt_of_le] <;> omega
  have hcount : min (max (countToInt n).toInt 1).toNat (UInt32.size - 1) = n.toNat := by
    rw [hint, UInt32.size]
    omega
  rw [countOfInt, hcount, UInt32.ofNat_toNat]

namespace LayerRecord

/-- A layer in range comes back with whole windows of ticks. -/
lemma toLayer_ofLayer {l : Layer} (hl : l.InRange) (ht : l.targeter.IsSpelled) :
    (ofLayer l).toLayer = l.fillTicks := by
  have helements : (l.elements.map ElementRecord.ofElement).map ElementRecord.toElement =
      l.elements.map Element.fillTicks := by
    rw [List.map_map]
    rfl
  simp only [toLayer, ofLayer, helements, Targeter.parse_text ht,
    countOfInt_countToInt hl.one_le_repeatCount, countOfInt_countToInt hl.one_le_repeatInterval]
  exact hl.fillTicks.normalize_eq

lemma toLayer_inRange (r : LayerRecord) : r.toLayer.InRange :=
  Layer.normalize_inRange _

lemma toLayer_isSpelled (r : LayerRecord) : r.toLayer.targeter.IsSpelled :=
  Targeter.parse_isSpelled r.targeter

lemma fillTicks_toLayer (r : LayerRecord) : r.toLayer.fillTicks = r.toLayer := by
  have helements : (r.elements.map ElementRecord.toElement).map Element.fillTicks =
      r.elements.map ElementRecord.toElement := by
    rw [List.map_map]
    rfl
  exact congrArg (fun elements => { r.toLayer with elements }) helements

end LayerRecord

/-! ### Documents -/

namespace Document

lemma toLayers_ofLayers {ls : List Layer}
    (hls : ∀ l ∈ ls, l.InRange ∧ l.targeter.IsSpelled) :
    (ofLayers ls).toLayers = ls.map Layer.fillTicks := by
  simp only [ofLayers, toLayers, List.map_map]
  apply List.map_congr_left
  intro l hl
  obtain ⟨hrange, hspelled⟩ := hls l hl
  exact LayerRecord.toLayer_ofLayer hrange hspelled

lemma toLayers_ofLayers_toLayers (d : Document) : (ofLayers d.toLayers).toLayers = d.toLayers := by
  have hls : ∀ l ∈ d.toLayers, l.InRange ∧ l.targeter.IsSpelled := by
    intro l hl
    obtain ⟨r, -, rfl⟩ := List.mem_map.mp hl
    exact ⟨r.toLayer_inRange, r.toLayer_isSpelled⟩
  rw [toLayers_ofLayers hls, toLayers, List.map_map]
  exact List.map_congr_left fun r _ => r.fillTicks_toLayer

/-- Saving and loading layers in range fills in missing ticks of elements and changes nothing
else, so that scripts and previews stay the same. The layers of a document do not change at
all. -/
theorem compile_toLayers_ofLayers :
    (∀ ls : List Layer, (∀ l ∈ ls, l.InRange ∧ ∃ text, l.targeter = .parse text) →
      (ofLayers ls).toLayers = ls.map Layer.fillTicks ∧
      (∀ o signal, compile o signal (ofLayers ls).toLayers = compile o signal ls) ∧
      previewPoints (ofLayers ls).toLayers = previewPoints ls) ∧
    ∀ d : Document, (ofLayers d.toLayers).toLayers = d.toLayers := by
  refine ⟨fun ls hls => ?_, toLayers_ofLayers_toLayers⟩
  have hfill : (ofLayers ls).toLayers = ls.map Layer.fillTicks := by
    apply toLayers_ofLayers
    intro l hl
    obtain ⟨hrange, text, htargeter⟩ := hls l hl
    rw [htargeter]
    exact ⟨hrange, Targeter.parse_isSpelled text⟩
  rw [hfill]
  exact ⟨rfl, fun o signal => compile_fillTicks o signal ls, previewPoints_fillTicks ls⟩

/-- A layer with a targeter that has a parameter, and an element without a first tick. -/
def ring : Layer where
  name := "Ring"
  alpha := 0.5
  repeatCount := 3
  targeter := .parse "Forward\x7bf=2\x7d"
  elements := [⟨.circle, ⟨1.0, 0.0⟩, 0.0, none, none, some 40⟩]

theorem compile_toLayers_ofLayers_ring :
    (∀ l ∈ [ring], l.InRange ∧ ∃ text, l.targeter = .parse text) ∧
    (ofLayers [ring]).toLayers = [ring.fillTicks] ∧
    (∀ o signal, compile o signal (ofLayers [ring]).toLayers = compile o signal [ring]) ∧
    previewPoints (ofLayers [ring]).toLayers = previewPoints [ring] := by
  have hring : ∀ l ∈ [ring], l.InRange ∧ ∃ text, l.targeter = .parse text := by
    intro l hl
    obtain rfl := List.mem_singleton.mp hl
    exact ⟨⟨by decide, by decide, by decide, by decide, by decide⟩,
      "Forward\x7bf=2\x7d", rfl⟩
  exact ⟨hring, compile_toLayers_ofLayers.1 [ring] hring⟩

end Document

end ParticleScene
