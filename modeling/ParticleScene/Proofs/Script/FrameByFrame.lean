import Mathlib.Data.List.GetD
import Mathlib.Data.List.Induction
import Mathlib.Logic.Function.Iterate
import ParticleScene.Proofs.Geometry.Tour
import ParticleScene.Proofs.Script.Colors

/-!
# Every element once in every frame

An animation draws a layer in a number of frames, each after the same delay, and each frame draws
all elements in one order. A layer fails at the first place, frame by frame, that is not finite.
If there is none, its block shows each element once in each frame.
-/

namespace ParticleScene

namespace Animation

/-- How many frames an animation has. -/
def frameCount : Animation → Nat
  | rotation speed _ => (FramePlan.forSpeed speed).frames
  | orbit _ speed => (FramePlan.forSpeed speed).frames
  | rise r => (r.heights?.getD []).length
  | proximity _ => 1
  | persistent => 1
  | single => 1

/-- The delay before the elements of each frame. -/
def pauseBefore? (a : Animation) (l : Layer) : Option Pause :=
  match a with
  | rotation speed _ => some (.frame (FramePlan.forSpeed speed).delay)
  | orbit _ speed => some (.frame (FramePlan.forSpeed speed).delay)
  | rise _ => some risePause
  | proximity _ => none
  | persistent => none
  | single => some (.ticks l.tickStart.toInt)

/-- The elements of a layer, by their indices, in the order in which each frame draws them. -/
def drawOrder (a : Animation) (l : Layer) : List Nat :=
  match a with
  | proximity _ => Tour.order (l.elements.map Element.position)
  | _ => List.range l.elements.length

/-- The height under a frame of a rotation: that of a rise after as many steps, if there is one. -/
def liftAt (lift : Option Rise) (frame : Nat) : Float :=
  match lift with
  | some r => r.climb^[frame] 0.0
  | none => 0.0

/-- Where a frame draws an element. -/
def spotAt (a : Animation) (layerY : Float) (frame i : Nat) (e : Element) : Spot :=
  match a with
  | rotation speed lift =>
    let p := e.position.rotate (Float.ofNat frame * (FramePlan.forSpeed speed).angleStep)
    ⟨i, e, p.x, p.z, e.yOffset + layerY + liftAt lift frame⟩
  | orbit radius speed =>
    let p := e.position.orbit radius speed frame
    ⟨i, e, p.x, p.z, e.yOffset + layerY⟩
  | rise r => ⟨i, e, e.position.x, e.position.z, (r.heights?.getD []).getD frame 0.0⟩
  | proximity _ => standing layerY i e
  | persistent => standing layerY i e
  | single => standing layerY i e

lemma index_spotAt (a : Animation) (layerY : Float) (frame i : Nat) (e : Element) :
    (a.spotAt layerY frame i e).index = i := by
  cases a <;> rfl

/-- The frame of a number. -/
def frameAt (a : Animation) (l : Layer) (layerY : Float) (frame : Nat) : Frame where
  pause := a.pauseBefore? l
  spots := (a.drawOrder l).filterMap fun i => l.elements[i]?.map (a.spotAt layerY frame i)

variable {a : Animation} {l : Layer}

/-- Placing the elements of a layer is placing them at their indices, one after the other. -/
lemma place_eq_filterMap (l : Layer) (spot : Nat → Element → Spot) :
    place l spot =
      (List.range l.elements.length).filterMap fun i => l.elements[i]?.map (spot i) := by
  rw [place]
  induction l.elements using List.reverseRecOn with
  | nil => rfl
  | append_singleton es e ih =>
    have hfront : (List.range es.length).filterMap (fun i => (es ++ [e])[i]?.map (spot i)) =
        (List.range es.length).filterMap fun i => es[i]?.map (spot i) := by
      apply List.filterMap_congr
      intro i hi
      rw [List.getElem?_append_left (List.mem_range.mp hi)]
    rw [List.zipIdx_append, List.map_append, ih, List.length_append, List.length_singleton,
      List.range_succ, List.filterMap_append, hfront]
    simp

lemma climbFrom_eq_map_range (r : Rise) (height : Float) (n : Nat) :
    r.climbFrom height n = (List.range n).map fun k => r.climb^[k] height := by
  induction n generalizing height with
  | zero => rfl
  | succ n ih =>
    rw [Rise.climbFrom, ih, List.range_succ_eq_map, List.map_cons, List.map_map]
    rfl

lemma lifts_eq_map_range (n : Nat) (lift : Option Rise) :
    lifts n lift = (List.range n).map (liftAt lift) := by
  cases lift with
  | none =>
    rw [lifts, ← List.length_range (n := n), ← List.map_const']
    simp only [List.length_range]
    rfl
  | some r => exact climbFrom_eq_map_range r 0.0 n

lemma zipIdx_map_range {α : Type} (f : Nat → α) (n : Nat) :
    ((List.range n).map f).zipIdx = (List.range n).map fun k => (f k, k) := by
  apply List.ext_getElem?
  intro k
  simp only [List.getElem?_zipIdx, List.getElem?_map, Option.map_map]
  cases h : (List.range n)[k]? with
  | none => rfl
  | some j =>
    obtain ⟨_, hj⟩ := List.getElem?_eq_some_iff.mp h
    rw [List.getElem_range] at hj
    simp [hj]

lemma rotationFrame_eq_frameAt (speed : Float) (lift : Option Rise) (l : Layer) (layerY : Float)
    (frame : Nat) :
    rotationFrame l layerY (FramePlan.forSpeed speed) frame (liftAt lift frame) =
      (rotation speed lift).frameAt l layerY frame := by
  rw [rotationFrame, place_eq_filterMap]
  rfl

lemma orbitFrame_eq_frameAt (radius speed : Float) (l : Layer) (layerY : Float) (frame : Nat) :
    orbitFrame l layerY (FramePlan.forSpeed speed) radius speed frame =
      (orbit radius speed).frameAt l layerY frame := by
  rw [orbitFrame, place_eq_filterMap]
  rfl

lemma riseFrame_eq_frameAt {r : Rise} {frame : Nat} (hframe : frame < (r.heights?.getD []).length)
    (l : Layer) (layerY : Float) :
    riseFrame l (r.heights?.getD [])[frame] = (rise r).frameAt l layerY frame := by
  rw [riseFrame, place_eq_filterMap, ← List.getD_eq_getElem _ 0.0 hframe]
  rfl

/-- The frames of an animation, one for each number. -/
lemma frames_eq_map_range (a : Animation) (l : Layer) (layerY : Float) :
    a.frames l layerY = (List.range a.frameCount).map (a.frameAt l layerY) := by
  cases a with
  | rotation speed lift =>
    simp only [frames, lifts_eq_map_range, frameCount, zipIdx_map_range, List.map_map]
    exact List.map_congr_left fun k _ => rotationFrame_eq_frameAt speed lift l layerY k
  | orbit radius speed =>
    exact List.map_congr_left fun k _ => orbitFrame_eq_frameAt radius speed l layerY k
  | rise r =>
    apply List.ext_getElem (by simp [frames, frameCount])
    intro k hk _
    simp only [frames, List.getElem_map, List.getElem_range]
    exact riseFrame_eq_frameAt (by simpa [frames, frameCount] using hk) l layerY
  | proximity m => rfl
  | persistent =>
    rw [frames, place_eq_filterMap]
    rfl
  | single =>
    rw [frames, place_eq_filterMap]
    rfl

/-- Each frame draws each element once. -/
lemma drawOrder_perm (a : Animation) (l : Layer) :
    (a.drawOrder l).Perm (List.range l.elements.length) := by
  cases a with
  | proximity m =>
    have h := Tour.order_perm (l.elements.map Element.position)
    rwa [List.length_map] at h
  | _ => exact .refl _

/-! ### Lines of commands -/

/-- Commands, each with the delay that is due after it, when `n` commands stand before them. -/
def spread (a : Animation) (n : Nat) : List Command → List Line
  | [] => []
  | c :: rest =>
    .command c :: (a.pauseAfter? (n + 1)).toList.map Line.pause ++ a.spread (n + 1) rest

/-- The commands of frames, each frame after a delay, when `n` commands stand before them. -/
def layOut (a : Animation) (pause : Option Pause) (n : Nat) : List (List Command) → List Line
  | [] => []
  | cs :: rest =>
    pause.toList.map Line.pause ++ a.spread n cs ++ a.layOut pause (n + cs.length) rest

lemma spread_append (a : Animation) (n : Nat) (cs ds : List Command) :
    a.spread n (cs ++ ds) = a.spread n cs ++ a.spread (n + cs.length) ds := by
  induction cs generalizing n with
  | nil => rfl
  | cons c rest ih =>
    simp only [List.cons_append, spread, ih, List.append_assoc, List.length_cons]
    rw [Nat.add_right_comm n 1, Nat.add_assoc n]

end Animation

/-! ### Emission -/

variable {o : Options} {l : Layer} {s s' : Running} {lines : List Line}

/-- Lines are commands, one for each spot, with the delays that are due after them. -/
def IsSpread (o : Options) (s : Running) (ds : List LayerSpot) (lines : List Line)
    (s' : Running) : Prop :=
  ∃ cs, List.Forall₂ (IsDrawnAt o) ds cs ∧ lines = o.modes.animation.spread s.commands cs ∧
    s'.commands = s.commands + cs.length

lemma isSpread_composes : Account.Composes (IsSpread o) where
  nil s := ⟨[], .nil, rfl, rfl⟩
  append := by
    rintro s s₁ s₂ ds es _ _ ⟨cs, hcs, rfl, hs⟩ ⟨cs', hcs', rfl, hs'⟩
    refine ⟨cs ++ cs', List.rel_append hcs hcs', ?_, ?_⟩
    · rw [Animation.spread_append, hs]
    · rw [hs', hs, List.length_append, Nat.add_assoc]

lemma isSpread_emitSpot {spot : Spot} (h : (o.emitter l).emitSpot s spot = .ok (lines, s')) :
    IsSpread o s [⟨l, spot⟩] lines s' := by
  obtain ⟨color, rainbow, -, rfl, rfl⟩ := Emitter.emitSpot_eq_ok h
  refine ⟨[⟨(o.emitter l).effect, color, spot.x, spot.z, spot.y⟩],
    .cons ⟨rfl, rfl, rfl, rfl⟩ .nil, ?_, rfl⟩
  rw [Animation.spread, Animation.spread, List.append_nil]
  rfl

lemma isSpread_emitSpots {spots : List Spot}
    (h : (o.emitter l).emitSpots s spots = .ok (lines, s')) :
    IsSpread o s (spots.map (.mk l)) lines s' := by
  rw [Emitter.emitSpots_eq_all] at h
  rw [List.map_eq_flatMap]
  exact Emission.all_composes isSpread_composes _ (fun _ _ => isSpread_emitSpot) h

/-- Frames with one delay are laid out one after the other, and the commands are numbered on. -/
lemma exists_layOut_of_emitFrames {fs : List Frame} {pause : Option Pause}
    (hpause : ∀ f ∈ fs, f.pause = pause)
    (h : (o.emitter l).emitFrames s fs = .ok (lines, s')) :
    ∃ batches,
      List.Forall₂ (fun f cs => List.Forall₂ (IsDrawnAt o) (f.spots.map (.mk l)) cs) fs batches ∧
      lines = o.modes.animation.layOut pause s.commands batches := by
  rw [Emitter.emitFrames_eq_all] at h
  induction fs generalizing s lines with
  | nil =>
    cases h
    exact ⟨[], .nil, rfl⟩
  | cons f rest ih =>
    rw [Emission.all] at h
    split at h
    · cases h
    · rename_i hframe
      split at h
      · cases h
      · rename_i hrest
        cases h
        obtain ⟨spots, hspots, rfl⟩ := Emitter.emitFrame_eq_ok_iff.mp hframe
        obtain ⟨cs, hcs, rfl, hs⟩ := isSpread_emitSpots hspots
        obtain ⟨batches, hbatches, rfl⟩ :=
          ih (fun f hf => hpause f (List.mem_cons_of_mem _ hf)) hrest
        refine ⟨cs :: batches, .cons hcs hbatches, ?_⟩
        rw [Animation.layOut, hs, hpause f List.mem_cons_self]

/-! ### Blocks -/

namespace Options

/-- Where a frame draws the element at an index, if there is one. -/
def spot? (o : Options) (l : Layer) (frame i : Nat) : Option Spot :=
  l.elements[i]?.map (o.modes.animation.spotAt (l.yOffset + o.globalYOffset) frame i)

/-- Whether a frame draws the element at an index at a finite place. -/
def isFiniteAt (o : Options) (l : Layer) (frame i : Nat) : Bool :=
  (o.spot? l frame i).all Spot.isFinite

/-- The frames and indices of what is drawn of a layer: frame by frame, in the order of drawing. -/
def draws (o : Options) (l : Layer) : List (Nat × Nat) :=
  (List.range o.modes.animation.frameCount).flatMap fun frame =>
    (o.modes.animation.drawOrder l).map (Prod.mk frame)

lemma mem_draws {d : Nat × Nat} :
    d ∈ o.draws l ↔ d.1 < o.modes.animation.frameCount ∧ d.2 < l.elements.length := by
  have hmem := (o.modes.animation.drawOrder_perm l).mem_iff (a := d.2)
  rw [List.mem_range] at hmem
  obtain ⟨frame, i⟩ := d
  simp [draws, hmem]

lemma frames_eq_frameAt (o : Options) (l : Layer) :
    o.frames l = (List.range o.modes.animation.frameCount).map
      (o.modes.animation.frameAt l (l.yOffset + o.globalYOffset)) :=
  Animation.frames_eq_map_range ..

lemma spots_frames (o : Options) (l : Layer) :
    (o.frames l).flatMap Frame.spots = (o.draws l).filterMap fun d => o.spot? l d.1 d.2 := by
  rw [frames_eq_frameAt, List.flatMap_map, draws, List.filterMap_flatMap]
  simp only [List.filterMap_map]
  rfl

lemma index_of_spot? {frame i : Nat} {spot : Spot} (h : o.spot? l frame i = some spot) :
    spot.index = i := by
  obtain ⟨e, -, rfl⟩ := Option.map_eq_some_iff.mp h
  exact Animation.index_spotAt ..

/-- The failure of a layer comes from the first place, in the order of drawing, that is not
finite. -/
lemma fault?_eq_find? (o : Options) (l : Layer) :
    fault? o l = ((o.draws l).find? fun d => !o.isFiniteAt l d.1 d.2).map fun d =>
      .nonFiniteCoordinate l.name d.2 := by
  have hany : (fun d : Nat × Nat => (o.spot? l d.1 d.2).any fun spot => !spot.isFinite) =
      fun d => !o.isFiniteAt l d.1 d.2 := by
    funext d
    rw [isFiniteAt]
    cases o.spot? l d.1 d.2 <;> rfl
  have hfault : fault? o l = (o.emitter l).fault? ((o.frames l).flatMap Frame.spots) := rfl
  rw [hfault, Emitter.fault?, spots_frames, List.find?_filterMap, hany]
  cases hfind : (o.draws l).find? fun d => !o.isFiniteAt l d.1 d.2 with
  | none => rfl
  | some d =>
    have hd : o.isFiniteAt l d.1 d.2 = false := by simpa using List.find?_some hfind
    cases hspot : o.spot? l d.1 d.2 with
    | none =>
      rw [isFiniteAt, hspot] at hd
      cases hd
    | some spot =>
      simp only [Option.bind_some, hspot, Option.map_some, index_of_spot? hspot]
      rfl

/-- The commands of a frame are drawn for the elements of the layer, in the order of drawing. -/
def DrawsFrame (o : Options) (l : Layer) (frame : Nat) (cs : List Command) : Prop :=
  List.Forall₂ (fun i c => ∃ spot, o.spot? l frame i = some spot ∧ IsDrawnAt o ⟨l, spot⟩ c)
    (o.modes.animation.drawOrder l) cs

/-- The block of a layer: its name, and its frames laid out after the commands before it. -/
lemma exists_layOut_of_emitLayer {block : List Line} (h : emitLayer o l s = .ok (block, s')) :
    ∃ batches,
      List.Forall₂ (o.DrawsFrame l) (List.range o.modes.animation.frameCount) batches ∧
      block = .comment l.name ::
        o.modes.animation.layOut (o.modes.animation.pauseBefore? l) s.commands batches := by
  obtain ⟨lines, hframes, rfl⟩ := emitLayer_eq_ok_iff.mp h
  rw [frames_eq_frameAt] at hframes
  have hpause : ∀ f ∈ (List.range o.modes.animation.frameCount).map
      (o.modes.animation.frameAt l (l.yOffset + o.globalYOffset)),
      f.pause = o.modes.animation.pauseBefore? l := by
    intro f hf
    obtain ⟨frame, -, rfl⟩ := List.mem_map.mp hf
    rfl
  obtain ⟨batches, hbatches, rfl⟩ := exists_layOut_of_emitFrames hpause hframes
  refine ⟨batches, ?_, rfl⟩
  refine (List.forall₂_map_left_iff.mp hbatches).imp fun frame cs hcs => ?_
  rw [List.forall₂_map_left_iff] at hcs
  refine forall₂_of_filterMap (fun i hi => ?_) hcs
  have hlt := List.mem_range.mp ((o.modes.animation.drawOrder_perm l).mem_iff.mp hi)
  rw [spot?, List.getElem?_eq_getElem hlt]
  rfl

/-- Which layers fail: those that some frame draws at a place that is not finite. -/
lemma exists_emitLayer_eq_error_iff :
    (∃ why, emitLayer o l s = .error why) ↔
      ∃ frame < o.modes.animation.frameCount, ∃ i < l.elements.length,
        o.isFiniteAt l frame i = false := by
  simp only [emitLayer_eq_error_iff, ← Option.isSome_iff_exists, fault?_eq_find?,
    Option.isSome_map, List.find?_isSome, mem_draws, Bool.not_eq_true', Prod.exists]
  constructor
  · rintro ⟨frame, i, ⟨hframe, hi⟩, hnot⟩
    exact ⟨frame, hframe, i, hi, hnot⟩
  · rintro ⟨frame, hframe, i, hi, hnot⟩
    exact ⟨frame, i, ⟨hframe, hi⟩, hnot⟩

/-- How a layer fails: for the first place in the order of drawing that is not finite. -/
lemma emitLayer_eq_error_iff_first {why : Failure} :
    emitLayer o l s = .error why ↔
      ∃ before frame i after, o.draws l = before ++ (frame, i) :: after ∧
        (∀ d ∈ before, o.isFiniteAt l d.1 d.2) ∧ o.isFiniteAt l frame i = false ∧
        why = .nonFiniteCoordinate l.name i := by
  rw [emitLayer_eq_error_iff, fault?_eq_find?, Option.map_eq_some_iff]
  simp only [List.find?_eq_some_iff_append, Bool.not_eq_true', Bool.not_not, Prod.exists]
  constructor
  · rintro ⟨frame, i, ⟨hnot, before, after, hdraws, hbefore⟩, rfl⟩
    exact ⟨before, frame, i, after, hdraws, hbefore, hnot, rfl⟩
  · rintro ⟨before, frame, i, after, hdraws, hbefore, hnot, rfl⟩
    exact ⟨frame, i, ⟨hnot, before, after, hdraws, hbefore⟩, rfl⟩

end Options

/-- A layer fails just if some frame draws some element at a place that is not finite. The failure
names the layer and the first such element in the order of drawing: frame by frame, and in each
frame as the elements are listed, or in the order of a tour under the proximity animation.
Otherwise the block of the layer is its name and, frame by frame, one delay, if the animation has
one, and one command for each element in that order; other delays follow commands where they are
due. -/
theorem emitLayer_frame_by_frame (o : Options) (l : Layer) (s : Running) :
    (o.modes.animation.drawOrder l).Perm (List.range l.elements.length) ∧
    ((∃ why, emitLayer o l s = .error why) ↔
      ∃ frame < o.modes.animation.frameCount, ∃ i < l.elements.length,
        o.isFiniteAt l frame i = false) ∧
    (∀ why, emitLayer o l s = .error why ↔
      ∃ before frame i after, o.draws l = before ++ (frame, i) :: after ∧
        (∀ d ∈ before, o.isFiniteAt l d.1 d.2) ∧ o.isFiniteAt l frame i = false ∧
        why = .nonFiniteCoordinate l.name i) ∧
    ((∀ frame < o.modes.animation.frameCount, ∀ i < l.elements.length, o.isFiniteAt l frame i) →
      ∃ block s' batches, emitLayer o l s = .ok (block, s') ∧
        List.Forall₂ (o.DrawsFrame l) (List.range o.modes.animation.frameCount) batches ∧
        block = .comment l.name ::
          o.modes.animation.layOut (o.modes.animation.pauseBefore? l) s.commands batches) := by
  refine ⟨o.modes.animation.drawOrder_perm l, Options.exists_emitLayer_eq_error_iff,
    fun _ => Options.emitLayer_eq_error_iff_first, fun hfinite => ?_⟩
  cases hemit : emitLayer o l s with
  | error why =>
    obtain ⟨frame, hframe, i, hi, hnot⟩ := Options.exists_emitLayer_eq_error_iff.mp ⟨why, hemit⟩
    rw [hfinite frame hframe i hi] at hnot
    cases hnot
  | ok out =>
    obtain ⟨batches, hbatches, hblock⟩ := Options.exists_layOut_of_emitLayer hemit
    exact ⟨out.1, out.2, batches, rfl, hbatches, hblock⟩

end ParticleScene
