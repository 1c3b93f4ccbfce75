import Mathlib.Data.List.Forall2
import ParticleScene.Script.Emission

/-!
# The frames of an animation

Every spot of a frame belongs to an element of the layer. A frame draws all elements in the order
of the layer, except that the one frame of the proximity animation draws them in the order of a
tour.
-/

namespace ParticleScene

/-- What is related to the values of items is related to the items, if each item has a value. -/
lemma forall₂_of_filterMap {α β γ : Type} {f : α → Option β} {R : β → γ → Prop} {as : List α}
    {cs : List γ} (has : ∀ a ∈ as, (f a).isSome) (h : List.Forall₂ R (as.filterMap f) cs) :
    List.Forall₂ (fun a c => ∃ b, f a = some b ∧ R b c) as cs := by
  induction as generalizing cs with
  | nil =>
    cases h
    exact .nil
  | cons a rest ih =>
    obtain ⟨b, hb⟩ := Option.isSome_iff_exists.mp (has a List.mem_cons_self)
    rw [List.filterMap_cons_some hb, List.forall₂_cons_left_iff] at h
    obtain ⟨c, cs, hc, hcs, rfl⟩ := h
    exact .cons ⟨b, hb, hc⟩ (ih (fun a ha => has a (List.mem_cons_of_mem _ ha)) hcs)

namespace Animation

/-- Spots that are made for the elements that they are asked for. -/
def Places (spot : Nat → Element → Spot) : Prop :=
  ∀ i e, (spot i e).index = i ∧ (spot i e).element = e

variable {a : Animation} {l : Layer} {layerY : Float} {f : Frame} {x : Spot}

lemma standing_places (lift : Float) : Places (standing lift) := fun _ _ => ⟨rfl, rfl⟩

@[simp] lemma length_place (l : Layer) (spot : Nat → Element → Spot) :
    (place l spot).length = l.elements.length := by
  simp [place]

lemma getElem?_of_mem_place {spot : Nat → Element → Spot} (hspot : Places spot)
    (hx : x ∈ place l spot) : l.elements[x.index]? = some x.element := by
  obtain ⟨⟨e, i⟩, hmem, rfl⟩ := List.mem_map.mp hx
  rw [(hspot i e).1, (hspot i e).2]
  exact List.mem_zipIdx_iff_getElem?.mp hmem

lemma getElem?_of_mem_tourSpots (hx : x ∈ tourSpots l layerY) :
    l.elements[x.index]? = some x.element := by
  obtain ⟨i, -, hi⟩ := List.mem_filterMap.mp hx
  obtain ⟨e, he, rfl⟩ := Option.map_eq_some_iff.mp hi
  exact he

/-- Whether an animation draws in the order of a tour. -/
def isProximity : Animation → Bool
  | proximity _ => true
  | _ => false

/-- A frame that does not draw in the order of a tour draws all elements as they are listed. -/
lemma exists_spots_eq_place (ha : a.isProximity = false) (hf : f ∈ a.frames l layerY) :
    ∃ spot, Places spot ∧ f.spots = place l spot := by
  cases a with
  | rotation speed lift =>
    obtain ⟨⟨height, frame⟩, -, rfl⟩ := List.mem_map.mp hf
    refine ⟨fun i e =>
      let p := e.position.rotate (Float.ofNat frame * (FramePlan.forSpeed speed).angleStep)
      ⟨i, e, p.x, p.z, e.yOffset + layerY + height⟩, fun _ _ => ⟨rfl, rfl⟩, rfl⟩
  | orbit radius speed =>
    obtain ⟨frame, -, rfl⟩ := List.mem_map.mp hf
    refine ⟨fun i e =>
      let p := e.position.orbit radius speed frame
      ⟨i, e, p.x, p.z, e.yOffset + layerY⟩, fun _ _ => ⟨rfl, rfl⟩, rfl⟩
  | rise r =>
    obtain ⟨height, -, rfl⟩ := List.mem_map.mp hf
    refine ⟨fun i e => ⟨i, e, e.position.x, e.position.z, height⟩, fun _ _ => ⟨rfl, rfl⟩, rfl⟩
  | proximity m => cases ha
  | persistent =>
    obtain rfl := List.mem_singleton.mp hf
    exact ⟨_, standing_places layerY, rfl⟩
  | single =>
    obtain rfl := List.mem_singleton.mp hf
    exact ⟨_, standing_places layerY, rfl⟩

/-- Every spot is drawn for the element at its index. -/
lemma getElem?_of_mem_frames (hf : f ∈ a.frames l layerY) (hx : x ∈ f.spots) :
    l.elements[x.index]? = some x.element := by
  cases ha : a.isProximity with
  | false =>
    obtain ⟨spot, hspot, hspots⟩ := exists_spots_eq_place ha hf
    exact getElem?_of_mem_place hspot (hspots ▸ hx)
  | true =>
    cases a with
    | proximity m =>
      obtain rfl := List.mem_singleton.mp hf
      exact getElem?_of_mem_tourSpots hx
    | _ => cases ha

/-- Delays after commands belong to the proximity animation only. -/
lemma pauseAfter?_eq_none (ha : a.isProximity = false) (count : Nat) :
    a.pauseAfter? count = none := by
  cases a with
  | proximity m => cases ha
  | _ => rfl

/-- No delay comes before the frame of the proximity animation. -/
lemma pause_eq_none (ha : a.isProximity = true) (hf : f ∈ a.frames l layerY) : f.pause = none := by
  cases a with
  | proximity m =>
    obtain rfl := List.mem_singleton.mp hf
    rfl
  | _ => cases ha

end Animation

end ParticleScene
