import ParticleScene.Proofs.Script.Sequence

/-!
# Faults of emission

What runs on from layer to layer decides about colors and delays, but not about success. A
layer fails exactly when a place of its frames is not finite, and the first such place names
the failure, whatever came before the layer.
-/

namespace ParticleScene

namespace Emitter

variable {m : Emitter} {s : Running} {why : Failure}

/-- The failure that spots lead to: that of the first spot that is not finite. -/
def fault? (m : Emitter) (spots : List Spot) : Option Failure :=
  (spots.find? fun spot => !spot.isFinite).map fun spot =>
    .nonFiniteCoordinate m.layer.name spot.index

lemma fault?_eq_findSome? (m : Emitter) (spots : List Spot) :
    m.fault? spots = spots.findSome? fun spot =>
      if spot.isFinite then none else some (.nonFiniteCoordinate m.layer.name spot.index) := by
  induction spots with
  | nil => rfl
  | cons spot rest ih =>
    rw [List.findSome?_cons, ← ih]
    cases h : spot.isFinite <;> simp [fault?, h]

lemma fault?_append (m : Emitter) (spots more : List Spot) :
    m.fault? (spots ++ more) = (m.fault? spots).or (m.fault? more) := by
  simp only [fault?_eq_findSome?, List.findSome?_append]

lemma fault?_flatMap (m : Emitter) (fs : List Frame) :
    m.fault? (fs.flatMap Frame.spots) = fs.findSome? fun f => m.fault? f.spots := by
  induction fs with
  | nil => rfl
  | cons f rest ih =>
    rw [List.flatMap_cons, fault?_append, ih, List.findSome?_cons]
    cases m.fault? f.spots <;> rfl

lemma emitSpots_eq_error_iff {spots : List Spot} :
    m.emitSpots s spots = .error why ↔ m.fault? spots = some why := by
  rw [emitSpots_eq_all, fault?_eq_findSome?]
  apply Emission.all_eq_error_iff
  intro s spot why
  cases h : spot.isFinite <;> simp [emitSpot, h]

lemma emitFrame_eq_error_iff {f : Frame} :
    m.emitFrame s f = .error why ↔ m.fault? f.spots = some why := by
  rw [← emitSpots_eq_error_iff (s := s), emitFrame]
  cases m.emitSpots s f.spots <;> simp [Except.map]

/-- Emission fails at the first place that is not finite, wherever among the frames it is. -/
lemma emitFrames_eq_error_iff {fs : List Frame} :
    m.emitFrames s fs = .error why ↔ m.fault? (fs.flatMap Frame.spots) = some why := by
  rw [emitFrames_eq_all, fault?_flatMap]
  apply Emission.all_eq_error_iff
  intro s f why
  exact emitFrame_eq_error_iff

end Emitter

/-- The failure of a layer that cannot be emitted under some options. -/
def fault? (o : Options) (l : Layer) : Option Failure :=
  let animation := o.modes.animation
  Emitter.fault? ⟨l, animation, Effect.ofLayer l (animation.commandKind o.effectKind)⟩
    ((animation.frames l (l.yOffset + o.globalYOffset)).flatMap Frame.spots)

/-- Whether a layer fails does not depend on what ran on until its turn. -/
lemma emitLayer_eq_error_iff {o : Options} {l : Layer} {s : Running} {why : Failure} :
    emitLayer o l s = .error why ↔ fault? o l = some why := by
  rw [fault?, ← Emitter.emitFrames_eq_error_iff (s := s), emitLayer]
  dsimp only
  cases Emitter.emitFrames _ _ _ <;> simp [Except.map]

lemma fault?_eq_none_of_emitLayer {o : Options} {l : Layer} {s : Running}
    {block : List Line × Running} (h : emitLayer o l s = .ok block) : fault? o l = none := by
  rw [Option.eq_none_iff_forall_ne_some]
  intro why hsome
  rw [emitLayer_eq_error_iff.mpr hsome] at h
  cases h

end ParticleScene
