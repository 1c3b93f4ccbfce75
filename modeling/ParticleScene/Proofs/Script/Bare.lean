import Mathlib.Data.List.Basic
import ParticleScene.Proofs.Except
import ParticleScene.Proofs.Script.Sequence
import ParticleScene.Script.Compile

/-!
# What scripts depend on

`Layer.bare` takes from a layer what no script shows: where its elements come from, when they
last, and the ends and sizes that documents keep. In some modes more is not shown: colors in a
rainbow, and vertical offsets in a rise. Every operation of a compilation commutes with taking
these fields away, so that the script of the bare layers is the script of the layers.
-/

namespace ParticleScene

/-! ### Bare layers -/

/-- Whether heights come from a rise alone. -/
def Animation.isRise : Animation → Bool
  | rise _ => true
  | _ => false

/-- An element without what scripts in some modes do not depend on. -/
def Element.bare (m : Modes) (e : Element) : Element where
  kind := .point
  position := e.position
  yOffset := if m.animation.isRise then 0.0 else e.yOffset
  color := if m.rainbow then none else e.color

/-- A layer without what scripts in some modes do not depend on. -/
def Layer.bare (m : Modes) (l : Layer) : Layer :=
  { l with
    tickEnd := 0
    tickDelay := 0
    shapeSize := 0.0
    color := if m.rainbow then "" else l.color
    yOffset := if m.animation.isRise then 0.0 else l.yOffset
    elements := l.elements.map (Element.bare m) }

/-- A spot with its element bare. -/
def Spot.bare (m : Modes) (spot : Spot) : Spot :=
  { spot with element := spot.element.bare m }

/-- A frame with its elements bare. -/
def Frame.bare (m : Modes) (f : Frame) : Frame :=
  { f with spots := f.spots.map (Spot.bare m) }

section

variable {m : Modes}

lemma Element.bare_yOffset (h : ¬ m.animation.isRise) (e : Element) :
    (e.bare m).yOffset = e.yOffset := if_neg h

lemma Layer.bare_yOffset (h : ¬ m.animation.isRise) (l : Layer) :
    (l.bare m).yOffset = l.yOffset := if_neg h

@[simp] lemma Layer.bare_tickStart (l : Layer) : (l.bare m).tickStart = l.tickStart := rfl

@[simp] lemma Layer.bare_elements_length (l : Layer) :
    (l.bare m).elements.length = l.elements.length := by
  simp [bare]

@[simp] lemma Layer.bare_isShown (l : Layer) : (l.bare m).isShown = l.isShown := by
  simp [isShown, bare]

lemma Layer.bare_positions (l : Layer) :
    (l.bare m).elements.map Element.position = l.elements.map Element.position := by
  simp [bare, Element.bare]

/-! ### Frames -/

namespace Animation

lemma place_bare {l : Layer} {spot spot' : Nat → Element → Spot}
    (h : ∀ i e, spot' i (e.bare m) = (spot i e).bare m) :
    place (l.bare m) spot' = (place l spot).map (Spot.bare m) := by
  simp only [place, Layer.bare, List.zipIdx_map, List.map_map]
  apply List.map_congr_left
  intro p _
  exact h p.2 p.1

lemma standing_bare (h : ¬ m.animation.isRise) (lift : Float) (i : Nat) (e : Element) :
    standing lift i (e.bare m) = (standing lift i e).bare m := by
  simp only [standing, Spot.bare, Element.bare_yOffset h]
  rfl

lemma tourSpots_bare (h : ¬ m.animation.isRise) (l : Layer) (layerY : Float) :
    tourSpots (l.bare m) layerY = (tourSpots l layerY).map (Spot.bare m) := by
  rw [tourSpots, tourSpots, Layer.bare_positions, List.map_filterMap]
  apply List.filterMap_congr
  intro i _
  simp only [Layer.bare, List.getElem?_map, Option.map_map]
  congr 1
  funext e
  exact standing_bare h layerY i e

lemma rotationFrame_bare (h : ¬ m.animation.isRise) (l : Layer) (layerY : Float)
    (plan : FramePlan) (frame : Nat) (lift : Float) :
    rotationFrame (l.bare m) layerY plan frame lift =
      (rotationFrame l layerY plan frame lift).bare m := by
  simp only [rotationFrame, Frame.bare, Frame.mk.injEq, true_and]
  apply place_bare
  intro i e
  simp only [Element.bare_yOffset h]
  rfl

lemma orbitFrame_bare (h : ¬ m.animation.isRise) (l : Layer) (layerY : Float)
    (plan : FramePlan) (radius speed : Float) (frame : Nat) :
    orbitFrame (l.bare m) layerY plan radius speed frame =
      (orbitFrame l layerY plan radius speed frame).bare m := by
  simp only [orbitFrame, Frame.bare, Frame.mk.injEq, true_and]
  apply place_bare
  intro i e
  simp only [Element.bare_yOffset h]
  rfl

/-- The height of a rise takes the place of vertical offsets, so that these may be bare. -/
lemma riseFrame_bare (l : Layer) (height : Float) :
    riseFrame (l.bare m) height = (riseFrame l height).bare m := by
  simp only [riseFrame, Frame.bare, Frame.mk.injEq, true_and]
  exact place_bare fun i e => rfl

/-- The frames of a bare layer are bare frames. -/
lemma frames_bare (m : Modes) (l : Layer) (globalY : Float) :
    m.animation.frames (l.bare m) ((l.bare m).yOffset + globalY) =
      (m.animation.frames l (l.yOffset + globalY)).map (Frame.bare m) := by
  by_cases hrise : m.animation.isRise
  · cases h : m.animation with
    | rise r => simp [frames, riseFrame_bare]
    | _ => simp [h, isRise] at hrise
  · rw [Layer.bare_yOffset hrise]
    cases h : m.animation with
    | rotation speed lift => simp [frames, rotationFrame_bare hrise]
    | orbit radius speed => simp [frames, orbitFrame_bare hrise]
    | rise r => simp [h, isRise] at hrise
    | proximity mode => simp [frames, tourSpots_bare hrise, Frame.bare]
    | persistent => simp [frames, Frame.bare, place_bare (standing_bare hrise _)]
    | single => simp [frames, Frame.bare, place_bare (standing_bare hrise _)]

end Animation

/-! ### Emission -/

namespace Emitter

/-- The emitter of the bare layer. -/
def bare (m : Modes) (emitter : Emitter) : Emitter :=
  { emitter with layer := emitter.layer.bare m }

variable {emitter : Emitter} {s : Running}

lemma color_bare (h : s.rainbow.isSome = m.rainbow) (e : Element) :
    (emitter.bare m).color s (e.bare m) = emitter.color s e := by
  cases hrainbow : s.rainbow with
  | some r => simp [color, hrainbow]
  | none =>
    have hm : m.rainbow = false := by simpa [hrainbow] using h.symm
    simp [color, hrainbow, Element.effectiveColor, Element.bare, bare, Layer.bare, hm]

lemma color_rainbow_isSome (emitter : Emitter) (s : Running) (e : Element) :
    (emitter.color s e).2.rainbow.isSome = s.rainbow.isSome := by
  unfold color
  split <;> simp [*]

lemma emitSpot_bare (h : s.rainbow.isSome = m.rainbow) (spot : Spot) :
    (emitter.bare m).emitSpot s (spot.bare m) = emitter.emitSpot s spot := by
  simp only [emitSpot, Spot.bare, color_bare h]
  rfl

lemma emitSpot_rainbow_isSome {spot : Spot} {lines : List Line} {s' : Running}
    (h : emitter.emitSpot s spot = .ok (lines, s')) :
    s'.rainbow.isSome = s.rainbow.isSome := by
  unfold emitSpot at h
  split at h
  · cases h
    exact color_rainbow_isSome emitter s spot.element
  · cases h

lemma emitSpots_bare (emitter : Emitter) (h : s.rainbow.isSome = m.rainbow) (spots : List Spot) :
    (emitter.bare m).emitSpots s (spots.map (Spot.bare m)) = emitter.emitSpots s spots := by
  rw [emitSpots_eq_all, emitSpots_eq_all]
  apply Emission.all_map (P := fun s => s.rainbow.isSome = m.rainbow)
  · exact emitSpot_bare
  · intro s spot lines s' hspot hs
    exact (emitSpot_rainbow_isSome hspot).trans hs
  · exact h

lemma emitSpots_rainbow_isSome {spots : List Spot} {lines : List Line} {s' : Running}
    (h : emitter.emitSpots s spots = .ok (lines, s')) :
    s'.rainbow.isSome = s.rainbow.isSome := by
  rw [emitSpots_eq_all] at h
  refine Emission.all_preserves (P := fun s' => s'.rainbow.isSome = s.rainbow.isSome) ?_ h rfl
  intro t spot lines t' hspot ht
  exact (emitSpot_rainbow_isSome hspot).trans ht

lemma emitFrame_bare (h : s.rainbow.isSome = m.rainbow) (f : Frame) :
    (emitter.bare m).emitFrame s (f.bare m) = emitter.emitFrame s f := by
  simp only [emitFrame, Frame.bare, emitSpots_bare emitter h]

lemma emitFrame_rainbow_isSome {f : Frame} {lines : List Line} {s' : Running}
    (h : emitter.emitFrame s f = .ok (lines, s')) : s'.rainbow.isSome = s.rainbow.isSome := by
  obtain ⟨⟨_, _⟩, hspots, hlines⟩ := map_eq_ok_iff.mp h
  cases hlines
  exact emitSpots_rainbow_isSome hspots

lemma emitFrames_bare (emitter : Emitter) (h : s.rainbow.isSome = m.rainbow) (fs : List Frame) :
    (emitter.bare m).emitFrames s (fs.map (Frame.bare m)) = emitter.emitFrames s fs := by
  rw [emitFrames_eq_all, emitFrames_eq_all]
  apply Emission.all_map (P := fun s => s.rainbow.isSome = m.rainbow)
  · exact emitFrame_bare
  · intro s f lines s' hframe hs
    exact (emitFrame_rainbow_isSome hframe).trans hs
  · exact h

lemma emitFrames_rainbow_isSome {fs : List Frame} {lines : List Line} {s' : Running}
    (h : emitter.emitFrames s fs = .ok (lines, s')) :
    s'.rainbow.isSome = s.rainbow.isSome := by
  rw [emitFrames_eq_all] at h
  refine Emission.all_preserves (P := fun s' => s'.rainbow.isSome = s.rainbow.isSome) ?_ h rfl
  intro t f lines t' hframe ht
  exact (emitFrame_rainbow_isSome hframe).trans ht

end Emitter

end

variable {o : Options} {s : Running}

lemma emitLayer_bare (h : s.rainbow.isSome = o.modes.rainbow) (l : Layer) :
    emitLayer o (l.bare o.modes) s = emitLayer o l s := by
  have hframes := Emitter.emitFrames_bare
    ⟨l, o.modes.animation, .ofLayer l (o.modes.animation.commandKind o.effectKind)⟩ h
    (o.modes.animation.frames l (l.yOffset + o.globalYOffset))
  simp only [emitLayer, Animation.frames_bare, ← hframes]
  rfl

lemma emitLayer_rainbow_isSome {l : Layer} {lines : List Line} {s' : Running}
    (h : emitLayer o l s = .ok (lines, s')) : s'.rainbow.isSome = s.rainbow.isSome := by
  obtain ⟨⟨_, _⟩, hframes, hlines⟩ := map_eq_ok_iff.mp h
  cases hlines
  exact Emitter.emitFrames_rainbow_isSome hframes

/-! ### Compilation -/

namespace Compile

lemma ordered_bare (m : Modes) (ls : List Layer) :
    ordered (ls.map (Layer.bare m)) = (ordered ls).map (Layer.bare m) := by
  have hshown : Layer.isShown ∘ Layer.bare m = Layer.isShown :=
    funext fun l => Layer.bare_isShown l
  rw [ordered, ordered, List.filter_map, hshown]
  refine (List.map_mergeSort ?_).symm
  intros
  rfl

lemma elementTotal_bare (m : Modes) (ls : List Layer) :
    elementTotal (ls.map (Layer.bare m)) = elementTotal ls := by
  simp [elementTotal, List.length_flatMap, Function.comp_def]

lemma emitLayers_bare (h : s.rainbow.isSome = o.modes.rainbow) (signal : Signal)
    (total : Nat) (ls : List Layer) (processed reported : Nat) :
    emitLayers o signal total (ls.map (Layer.bare o.modes)) s processed reported =
      emitLayers o signal total ls s processed reported := by
  induction ls generalizing s processed reported with
  | nil => rfl
  | cons l rest ih =>
    simp only [List.map_cons, emitLayers, emitLayer_bare h, Layer.bare_elements_length]
    cases hlayer : emitLayer o l s with
    | error why =>
      simp only [ih h]
      rfl
    | ok out =>
      obtain ⟨block, s'⟩ := out
      simp only [ih ((emitLayer_rainbow_isSome hlayer).trans h)]

lemma start_rainbow_isSome (m : Modes) : (start m).rainbow.isSome = m.rainbow := by
  cases h : m.rainbow <;> simp [start, h]

end Compile

/-- What is taken from bare layers is not compiled. -/
theorem compile_bare (o : Options) (signal : Compile.Signal) (ls : List Layer) :
    compile o signal (ls.map (Layer.bare o.modes)) = compile o signal ls := by
  have hemitted : Compile.emitted o signal (ls.map (Layer.bare o.modes)) =
      Compile.emitted o signal ls := by
    simp only [Compile.emitted, Compile.ordered_bare, Compile.elementTotal_bare]
    exact Compile.emitLayers_bare (Compile.start_rainbow_isSome o.modes) ..
  simp only [compile, hemitted]

end ParticleScene
