import Mathlib.Tactic.Lemma
import ParticleScene.Source.Stroke

/-!
# Elements of drawings

A drawing has an element for each pixel of its stroke, in order. With a mirror each pixel has a
reflection, and the element of the reflection stands right behind that of the pixel.
-/

namespace ParticleScene

variable {α β : Type}

/-- Of a list of pairs laid end to end, the first members stand at the even places. -/
lemma getElem?_flatMap_pair_even (f g : α → β) (xs : List α) (i : Nat) :
    (xs.flatMap fun x => [f x, g x])[2 * i]? = xs[i]?.map f := by
  induction xs generalizing i with
  | nil => rfl
  | cons x xs ih =>
    cases i with
    | zero => rfl
    | succ i => exact ih i

/-- The second members stand at the odd places. -/
lemma getElem?_flatMap_pair_odd (f g : α → β) (xs : List α) (i : Nat) :
    (xs.flatMap fun x => [f x, g x])[2 * i + 1]? = xs[i]?.map g := by
  induction xs generalizing i with
  | nil => rfl
  | cons x xs ih =>
    cases i with
    | zero => rfl
    | succ i => exact ih i

lemma length_flatMap_pair (f g : α → β) (xs : List α) :
    (xs.flatMap fun x => [f x, g x]).length = 2 * xs.length := by
  induction xs with
  | nil => rfl
  | cons x xs ih =>
    rw [List.flatMap_cons, List.length_append, ih, List.length_cons]
    exact Nat.add_comm 2 _

/-- Every mirror but the one that is off reflects every pixel. -/
lemma Mirror.exists_reflection {m : Mirror} (hm : m ≠ .off) (c : Canvas) :
    ∃ reflection : Pixel → Pixel, ∀ p, m.reflect? c p = some (reflection p) := by
  cases m with
  | off => exact absurd rfl hm
  | x => exact ⟨_, fun _ => rfl⟩
  | z => exact ⟨_, fun _ => rfl⟩
  | double => exact ⟨_, fun _ => rfl⟩

namespace Drawing

variable {d : Drawing} {l : Layer} {e : Element}

lemma elements_of_off (h : d.mirror = .off) (l : Layer) :
    d.elements l = (d.stroke.pixels d.scale).map (d.element l) := by
  have hself : d.withReflection = fun p => [p] := by
    funext p
    rw [withReflection, h]
    rfl
  rw [elements, hself, List.flatMap_singleton']

lemma elements_of_reflection {reflection : Pixel → Pixel}
    (h : ∀ p, d.mirror.reflect? d.canvas p = some (reflection p)) (l : Layer) :
    d.elements l =
      (d.stroke.pixels d.scale).flatMap fun p => [d.element l p, d.element l (reflection p)] := by
  have hpair : d.withReflection = fun p => [p, reflection p] := by
    funext p
    rw [withReflection, h]
    rfl
  rw [elements, hpair, List.map_flatMap]
  rfl

/-- Each pixel is followed by its reflection. -/
lemma elements_of_ne_off (h : d.mirror ≠ .off) (l : Layer) :
    (d.elements l).length = 2 * (d.stroke.pixels d.scale).length ∧
      ∀ i p, (d.stroke.pixels d.scale)[i]? = some p →
        ∃ q, d.mirror.reflect? d.canvas p = some q ∧
          (d.elements l)[2 * i]? = some (d.element l p) ∧
          (d.elements l)[2 * i + 1]? = some (d.element l q) := by
  obtain ⟨reflection, hreflection⟩ := Mirror.exists_reflection h d.canvas
  rw [elements_of_reflection hreflection]
  refine ⟨length_flatMap_pair _ _ _, fun i p hp => ⟨reflection p, hreflection p, ?_, ?_⟩⟩
  · rw [getElem?_flatMap_pair_even, hp]
    rfl
  · rw [getElem?_flatMap_pair_odd, hp]
    rfl

/-- The elements of a drawing have the kind of its stroke and the window of the layer. -/
lemma of_mem_elements (h : e ∈ d.elements l) :
    e.kind = d.stroke.kind ∧ e.tickStart = some l.tickStart ∧ e.tickEnd = some l.tickEnd := by
  obtain ⟨p, -, rfl⟩ := List.mem_map.mp h
  exact ⟨rfl, rfl, rfl⟩

end Drawing

end ParticleScene
