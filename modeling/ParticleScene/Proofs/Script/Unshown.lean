import Mathlib.Data.List.Forall2
import ParticleScene.Proofs.Script.Bare

/-!
# What scripts do not show

Layers agree in a script when they agree in what the modes of the script show. Kinds, sizes and the
ends of tick windows never count, colors do not count in a rainbow, and vertical offsets, that of
the whole script among them, do not count in a rise. Layers that agree are compiled alike: to the
same script, warnings and reports, and to the same cancellation.
-/

namespace ParticleScene

/-! ### Agreement -/

/-- Two elements agree in what a script of some modes shows. -/
structure Element.SameInScript (m : Modes) (e e' : Element) : Prop where
  position : e.position = e'.position
  yOffset : m.animation.isRise = false → e.yOffset = e'.yOffset
  color : m.rainbow = false → e.color = e'.color

/-- Two layers agree in what a script of some modes shows. -/
structure Layer.SameInScript (m : Modes) (l l' : Layer) : Prop where
  name : l.name = l'.name
  visible : l.visible = l'.visible
  tickStart : l.tickStart = l'.tickStart
  particle : l.particle = l'.particle
  alpha : l.alpha = l'.alpha
  repeatCount : l.repeatCount = l'.repeatCount
  repeatInterval : l.repeatInterval = l'.repeatInterval
  targeter : l.targeter = l'.targeter
  yOffset : m.animation.isRise = false → l.yOffset = l'.yOffset
  color : m.rainbow = false → l.color = l'.color
  elements : List.Forall₂ (Element.SameInScript m) l.elements l'.elements

/-- Two sets of options agree in what a script shows. -/
structure Options.SameInScript (o o' : Options) : Prop where
  skillName : o.skillName = o'.skillName
  effectKind : o.effectKind = o'.effectKind
  modes : o.modes = o'.modes
  globalYOffset : o.modes.animation.isRise = false → o.globalYOffset = o'.globalYOffset

/-- What is mapped to the same values one by one is mapped to the same list. -/
lemma map_eq_map_of_forall₂ {α β : Type} {R : α → α → Prop} {f : α → β} {xs ys : List α}
    (hf : ∀ x y, R x y → f x = f y) (h : List.Forall₂ R xs ys) : xs.map f = ys.map f := by
  rw [← List.forall₂_eq_eq_eq, List.forall₂_map_left_iff, List.forall₂_map_right_iff]
  exact h.imp hf

variable {m : Modes}

lemma Element.SameInScript.bare_eq {e e' : Element} (h : e.SameInScript m e') :
    e.bare m = e'.bare m := by
  have hy : (e.bare m).yOffset = (e'.bare m).yOffset := by
    cases hrise : m.animation.isRise with
    | true => simp [bare, hrise]
    | false => simpa [bare, hrise] using h.yOffset hrise
  have hcolor : (e.bare m).color = (e'.bare m).color := by
    cases hrainbow : m.rainbow with
    | true => simp [bare, hrainbow]
    | false => simpa [bare, hrainbow] using h.color hrainbow
  simp only [bare, mk.injEq, h.position, true_and, and_true]
  exact ⟨hy, hcolor⟩

lemma Layer.SameInScript.bare_eq {l l' : Layer} (h : l.SameInScript m l') :
    l.bare m = l'.bare m := by
  have hy : (l.bare m).yOffset = (l'.bare m).yOffset := by
    cases hrise : m.animation.isRise with
    | true => simp [bare, hrise]
    | false => simpa [bare, hrise] using h.yOffset hrise
  have hcolor : (l.bare m).color = (l'.bare m).color := by
    cases hrainbow : m.rainbow with
    | true => simp [bare, hrainbow]
    | false => simpa [bare, hrainbow] using h.color hrainbow
  have helements : (l.bare m).elements = (l'.bare m).elements :=
    map_eq_map_of_forall₂ (fun _ _ => Element.SameInScript.bare_eq) h.elements
  simp only [bare, mk.injEq, h.name, h.visible, h.tickStart, h.particle, h.alpha, h.repeatCount,
    h.repeatInterval, h.targeter, true_and]
  exact ⟨hcolor, hy, helements⟩

/-! ### The offset of a whole script -/

namespace Animation

/-- A rise passes over the offset of the layer. -/
lemma frames_of_isRise {a : Animation} (ha : a.isRise = true) (l : Layer) (layerY layerY' : Float) :
    a.frames l layerY = a.frames l layerY' := by
  cases a with
  | rise r => rfl
  | _ => cases ha

end Animation

namespace Options.SameInScript

variable {o o' : Options}

lemma emitLayer_eq (h : o.SameInScript o') (l : Layer) (s : Running) :
    emitLayer o l s = emitLayer o' l s := by
  have hframes : o.modes.animation.frames l (l.yOffset + o.globalYOffset) =
      o.modes.animation.frames l (l.yOffset + o'.globalYOffset) := by
    cases hrise : o.modes.animation.isRise with
    | true => exact Animation.frames_of_isRise hrise ..
    | false => rw [h.globalYOffset hrise]
  simp only [emitLayer, hframes, ← h.effectKind, ← h.modes]

lemma emitLayers_eq (h : o.SameInScript o') (signal : Compile.Signal) (total : Nat)
    (ls : List Layer) (s : Running) (processed reported : Nat) :
    Compile.emitLayers o signal total ls s processed reported =
      Compile.emitLayers o' signal total ls s processed reported := by
  induction ls generalizing s processed reported with
  | nil => rfl
  | cons l rest ih => simp only [Compile.emitLayers, h.emitLayer_eq, ih]

lemma compile_eq (h : o.SameInScript o') (signal : Compile.Signal) (ls : List Layer) :
    compile o signal ls = compile o' signal ls := by
  have hemitted : Compile.emitted o signal ls = Compile.emitted o' signal ls := by
    simp only [Compile.emitted, h.emitLayers_eq, h.modes]
  have htexts : Compile.texts o = Compile.texts o' := by
    funext lines
    simp only [Compile.texts, resolvedSkillName, h.skillName, h.modes]
  simp only [compile, hemitted, htexts, h.modes]

end Options.SameInScript

/-- Layers and options that agree in what a script shows have the same outcome: the same script with
the same number of lines and the same warnings, or the same cancellation, after the same reports. -/
theorem compile_eq_of_sameInScript {o o' : Options} {ls ls' : List Layer} (ho : o.SameInScript o')
    (hls : List.Forall₂ (Layer.SameInScript o.modes) ls ls') (signal : Compile.Signal) :
    compile o signal ls = compile o' signal ls' := by
  have hbare : ls.map (Layer.bare o.modes) = ls'.map (Layer.bare o.modes) :=
    map_eq_map_of_forall₂ (fun _ _ => Layer.SameInScript.bare_eq) hls
  calc compile o signal ls
    _ = compile o signal (ls.map (Layer.bare o.modes)) := (compile_bare o signal ls).symm
    _ = compile o signal (ls'.map (Layer.bare o.modes)) := by rw [hbare]
    _ = compile o signal ls' := compile_bare o signal ls'
    _ = compile o' signal ls' := ho.compile_eq signal ls'

/-- A rise in the colors of the rainbow. -/
def risingRainbow : Options where
  modes := { rise := { enabled := true, speed := 2.0, limit := 5.0 }, rainbow := true }

/-- A layer of one element. -/
def modest : Layer where
  elements := [⟨.free, ⟨0.0, 0.0⟩, 0.0, none, none, none⟩]

/-- The same layer with other values in all that a rise in the colors of the rainbow does not
show. Its offset is not finite. -/
def adorned : Layer where
  tickEnd := 99
  tickDelay := 1
  shapeSize := 3.0
  color := "#123456"
  yOffset := 1.0 / 0.0
  elements := [⟨.image, ⟨0.0, 0.0⟩, 0.0 / 0.0, some "#ffffff", some 7, some 8⟩]

theorem compile_eq_of_sameInScript_adorned :
    risingRainbow.SameInScript { risingRainbow with globalYOffset := 4.0 } ∧
      modest.SameInScript risingRainbow.modes adorned ∧
      compile risingRainbow Compile.uncancelled [modest] =
        compile { risingRainbow with globalYOffset := 4.0 } Compile.uncancelled [adorned] := by
  have hrise : risingRainbow.modes.animation.isRise ≠ false := by decide
  have ho : risingRainbow.SameInScript { risingRainbow with globalYOffset := 4.0 } :=
    ⟨rfl, rfl, rfl, fun h => absurd h hrise⟩
  have helements : List.Forall₂ (Element.SameInScript risingRainbow.modes)
      modest.elements adorned.elements :=
    .cons ⟨rfl, fun h => absurd h hrise, nofun⟩ .nil
  have hlayer : modest.SameInScript risingRainbow.modes adorned :=
    ⟨rfl, rfl, rfl, rfl, rfl, rfl, rfl, rfl, fun h => absurd h hrise, nofun, helements⟩
  exact ⟨ho, hlayer,
    compile_eq_of_sameInScript ho (.cons hlayer .nil) Compile.uncancelled⟩

end ParticleScene
