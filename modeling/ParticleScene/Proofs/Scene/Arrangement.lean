import Mathlib.Tactic.SplitIfs
import ParticleScene.Proofs.Scene.Coherence

/-!
# Arranging layers

Some operations add, rename, edit or reorder layers and leave their lists of elements alone, but
for the colors. `Operation.place` says where such an operation moves a layer. The main statement:
two scenes that differ only in the elements of one layer differ afterwards in the elements of the
same layer, wherever it stands then.
-/

namespace ParticleScene

/-- The operations that add, rename, edit or reorder layers. -/
def Operation.arranges : Operation → Bool
  | .addLayer _ _ | .pushLayer _ | .renameLayer _ _ | .moveLayerUp _ | .moveLayerDown _
  | .editLayer _ _ | .setLayerColor _ _ | .showAllLayers => true
  | _ => false

/-- The place of an item after the items at an index and behind it were exchanged. -/
def exchangedPlace (index place : Nat) : Nat :=
  if place = index then index + 1 else if place = index + 1 then index else place

/-- The place, after an operation that arranges layers, of the layer that stood at a place. -/
def Operation.place (s : Scene) (place : Nat) : Operation → Nat
  | .moveLayerUp (before + 1) =>
    if before + 1 < s.layers.length then exchangedPlace before place else place
  | .moveLayerDown index =>
    if index + 1 < s.layers.length then exchangedPlace index place else place
  | _ => place

/-- A layer with other elements. -/
def Layer.holding (es : List Element) (l : Layer) : Layer :=
  { l with elements := es }

/-- An element without its color. -/
def Element.uncolored (e : Element) : Element :=
  { e with color := none }

/-- The same elements in the same order, colors aside. -/
def SameButColors (es es' : List Element) : Prop :=
  es.map Element.uncolored = es'.map Element.uncolored

namespace Scene

variable {s t : Scene} {α β : Type} {xs : List α} {index place : Nat} {f : α → α}

lemma exchangedPlace_exchangedPlace (index place : Nat) :
    exchangedPlace index (exchangedPlace index place) = place := by
  unfold exchangedPlace
  split_ifs <;> omega

lemma exchangedPlace_lt {length : Nat} (hindex : index + 1 < length) (hplace : place < length) :
    exchangedPlace index place < length := by
  unfold exchangedPlace
  split_ifs <;> omega

lemma getElem?_swapWithNext (hindex : index + 1 < xs.length) (place : Nat) :
    (swapWithNext xs index)[place]? = xs[exchangedPlace index place]? := by
  induction xs generalizing index place with
  | nil => simp at hindex
  | cons a rest ih =>
    cases index with
    | zero =>
      cases rest with
      | nil => simp at hindex
      | cons b rest =>
        match place with
        | 0 => rfl
        | 1 => rfl
        | place + 2 => rfl
    | succ index =>
      rw [swapWithNext]
      cases place with
      | zero => rfl
      | succ place =>
        have hnext : exchangedPlace (index + 1) (place + 1) = exchangedPlace index place + 1 := by
          unfold exchangedPlace
          split_ifs <;> omega
        rw [hnext, List.getElem?_cons_succ, List.getElem?_cons_succ]
        exact ih (by simpa using hindex) place

lemma length_swapWithNext (xs : List α) (index : Nat) :
    (swapWithNext xs index).length = xs.length := by
  induction xs, index using swapWithNext.induct with
  | case1 a b rest => rfl
  | case2 a rest index ih => simp only [swapWithNext, List.length_cons, ih]
  | case3 rest index h h' =>
    rw [swapWithNext]
    · exact h
    · exact h'

/-! ### Layers after an operation -/

/-- An operation whose function gives a scene alone leaves that scene, or fails and leaves the old
one. -/
lemma perform_snd_of_done {s : Scene} {op : Operation} {x : Except Failure Scene}
    (h : s.attempt op = x.map (Answer.done, ·)) : (s.perform op).2 = x.toOption.getD s := by
  rw [perform, h]
  cases x <;> rfl

/-- An operation whose function gives an answer with the scene. -/
lemma perform_snd_of_answer {β : Type} {s : Scene} {op : Operation}
    {x : Except Failure (β × Scene)} {f : β → Answer} (h : s.attempt op = x.map (·.map f id)) :
    (s.perform op).2 = (x.map Prod.snd).toOption.getD s := by
  rw [perform, h]
  cases x <;> rfl

lemma layers_perform_editLayer (s : Scene) (index : Nat) (e : LayerEdit) :
    (s.perform (.editLayer index e)).2.layers = s.layers.modify index e.apply := by
  have h : s.attempt (.editLayer index e) = (s.editLayer index e).map (Answer.done, ·) := rfl
  rw [List.modify_eq_set_getElem?, perform_snd_of_done h, editLayer, layerAt]
  cases s.layers[index]? <;> rfl

lemma perform_setLayerColor (s : Scene) (index : Nat) (color : String) :
    (s.perform (.setLayerColor index color)).2 =
      (s.setLayerColor index color).toOption.getD s :=
  perform_snd_of_done rfl

lemma layers_perform_setLayerColor_of_ok {color normal : String} (s : Scene) (index : Nat)
    (hcolor : Color.normalize color = .ok normal) :
    (s.perform (.setLayerColor index color)).2.layers =
      s.layers.modify index (Layer.recolor · normal) := by
  rw [List.modify_eq_set_getElem?, perform_setLayerColor, setLayerColor, layerAt, hcolor]
  cases s.layers[index]? <;> rfl

lemma layers_perform_setLayerColor_of_error {color : String} {why : Failure} (s : Scene)
    (index : Nat) (hcolor : Color.normalize color = .error why) :
    (s.perform (.setLayerColor index color)).2.layers = s.layers := by
  rw [perform_setLayerColor, setLayerColor, layerAt, hcolor]
  cases s.layers[index]? <;> rfl

lemma perform_moveLayerUp (s : Scene) (index : Nat) :
    (s.perform (.moveLayerUp index)).2 = ((s.moveLayerUp index).map Prod.snd).toOption.getD s :=
  perform_snd_of_answer rfl

lemma layers_perform_moveLayerUp_zero (s : Scene) :
    (s.perform (.moveLayerUp 0)).2.layers = s.layers := by
  rw [perform_moveLayerUp, moveLayerUp, layerAt]
  cases s.layers[0]? <;> rfl

lemma layers_perform_moveLayerUp (s : Scene) (before : Nat) :
    (s.perform (.moveLayerUp (before + 1))).2.layers =
      if before + 1 < s.layers.length then swapWithNext s.layers before else s.layers := by
  rw [perform_moveLayerUp, moveLayerUp, layerAt]
  by_cases hlt : before + 1 < s.layers.length
  · rw [if_pos hlt, List.getElem?_eq_getElem hlt]
    rfl
  · rw [if_neg hlt, List.getElem?_eq_none (Nat.le_of_not_lt hlt)]
    rfl

lemma layers_perform_moveLayerDown (s : Scene) (index : Nat) :
    (s.perform (.moveLayerDown index)).2.layers =
      if index + 1 < s.layers.length then swapWithNext s.layers index else s.layers := by
  have h : s.attempt (.moveLayerDown index) = (s.moveLayerDown index).map (·.map .index id) := rfl
  rw [perform_snd_of_answer h, moveLayerDown, layerAt]
  by_cases hlt : index + 1 < s.layers.length
  · rw [if_pos hlt, if_pos hlt, List.getElem?_eq_getElem (Nat.lt_of_succ_lt hlt)]
    rfl
  · rw [if_neg hlt, if_neg hlt]
    cases s.layers[index]? <;> rfl

/-! ### Another layer list behind the same operation -/

section

variable {ls : List Layer} {es : List Element} {op : Operation}

lemma modify_concat (hplace : place < xs.length) (f : α → α) (a : α) :
    (xs ++ [a]).modify place f = xs.modify place f ++ [a] := by
  apply List.ext_getElem?
  intro i
  rw [List.getElem?_modify]
  by_cases hi : i < xs.length
  · rw [List.getElem?_append_left hi, List.getElem?_append_left (by simpa using hi),
      List.getElem?_modify]
  · have hne : place ≠ i := by omega
    rw [List.getElem?_append_right (Nat.le_of_not_lt hi),
      List.getElem?_append_right (by simpa using hi), List.length_modify]
    simp only [if_neg hne, Option.map_eq_map, Option.map_id']

lemma swapWithNext_modify (hindex : index + 1 < xs.length) (place : Nat) (f : α → α) :
    swapWithNext (xs.modify place f) index =
      (swapWithNext xs index).modify (exchangedPlace index place) f := by
  apply List.ext_getElem?
  intro i
  have hplace : place = exchangedPlace index i ↔ exchangedPlace index place = i := by
    constructor
    · rintro rfl
      exact exchangedPlace_exchangedPlace index i
    · rintro rfl
      exact (exchangedPlace_exchangedPlace index place).symm
  rw [getElem?_swapWithNext (by rwa [List.length_modify]), List.getElem?_modify,
    List.getElem?_modify, getElem?_swapWithNext hindex]
  simp only [hplace]

lemma map_modify {g : α → β} {f' : β → β} (hg : ∀ a, g (f a) = f' (g a)) (place : Nat) :
    (xs.modify place f).map g = (xs.map g).modify place f' := by
  apply List.ext_getElem?
  intro i
  rw [List.getElem?_map, List.getElem?_modify, List.getElem?_modify, List.getElem?_map]
  cases xs[i]? with
  | none => rfl
  | some a =>
    simp only [Option.map_eq_map, Option.map_some]
    split_ifs with hi
    · rw [hg]
    · rfl

/-- The layers of a scene are those of another one, but for the elements of the layer at a
place. -/
structure HoldsAt (ls' ls : List Layer) (place : Nat) (es : List Element) : Prop where
  place_lt : place < ls.length
  eq_modify : ls' = ls.modify place (Layer.holding es)

namespace HoldsAt

variable {ls' : List Layer}

lemma length_eq (h : HoldsAt ls' ls place es) : ls'.length = ls.length := by
  rw [h.eq_modify, List.length_modify]

lemma concat (h : HoldsAt ls' ls place es) (l : Layer) :
    HoldsAt (ls' ++ [l]) (ls ++ [l]) place es :=
  ⟨by simpa using Nat.lt_succ_of_lt h.place_lt, by rw [h.eq_modify, modify_concat h.place_lt]⟩

lemma swapWithNext (h : HoldsAt ls' ls place es) (hindex : index + 1 < ls'.length) :
    HoldsAt (swapWithNext ls' index) (swapWithNext ls index) (exchangedPlace index place) es := by
  rw [h.length_eq] at hindex
  refine ⟨?_, by rw [h.eq_modify, swapWithNext_modify hindex]⟩
  rw [length_swapWithNext]
  exact exchangedPlace_lt hindex h.place_lt

/-- A change of one layer that also changes what the layer holds. -/
lemma modify {g : Layer → Layer} {k : List Element → List Element}
    (hg : ∀ l es, g (l.holding es) = (g l).holding (k es)) (h : HoldsAt ls' ls place es)
    (index : Nat) :
    HoldsAt (ls'.modify index g) (ls.modify index g) place
      (if index = place then k es else es) := by
  refine ⟨by rw [List.length_modify]; exact h.place_lt, ?_⟩
  rw [h.eq_modify]
  by_cases hplace : index = place
  · subst hplace
    rw [if_pos rfl, List.modify_modify_eq, List.modify_modify_eq]
    exact congrArg (ls.modify index) (funext fun l => hg l es)
  · rw [if_neg hplace, List.modify_modify_ne _ _ _ (Ne.symm hplace)]

lemma map {g : Layer → Layer} (hg : ∀ l, g (l.holding es) = (g l).holding es)
    (h : HoldsAt ls' ls place es) : HoldsAt (ls'.map g) (ls.map g) place es :=
  ⟨by rw [List.length_map]; exact h.place_lt, by rw [h.eq_modify, map_modify hg]⟩

end HoldsAt

lemma sameButColors_recolor (color : String) (es : List Element) :
    SameButColors (es.map fun e => { e with color := some color }) es := by
  rw [SameButColors, List.map_map]
  rfl

lemma HoldsAt.editLayer (h : HoldsAt s.layers t.layers place es) (index : Nat) (e : LayerEdit) :
    HoldsAt (s.perform (.editLayer index e)).2.layers (t.perform (.editLayer index e)).2.layers
      place es := by
  have hedit := h.modify (g := e.apply) (k := id) (fun l es => by cases e <;> rfl) index
  rw [id, ite_self] at hedit
  rw [layers_perform_editLayer, layers_perform_editLayer]
  exact hedit

/-- An operation that arranges layers does the same to two scenes that differ in the elements of
one layer, and afterwards they differ in that layer. -/
lemma HoldsAt.perform (h : HoldsAt s.layers t.layers place es) (hop : op.arranges) :
    ∃ es', SameButColors es' es ∧
      HoldsAt (s.perform op).2.layers (t.perform op).2.layers (op.place s place) es' := by
  cases op with
  | addLayer name tickStart => exact ⟨es, rfl, h.concat _⟩
  | pushLayer layer => exact ⟨es, rfl, h.concat _⟩
  | renameLayer index name => exact ⟨es, rfl, h.editLayer index (.name name)⟩
  | editLayer index e => exact ⟨es, rfl, h.editLayer index e⟩
  | moveLayerUp index =>
    cases index with
    | zero =>
      rw [layers_perform_moveLayerUp_zero, layers_perform_moveLayerUp_zero]
      exact ⟨es, rfl, h⟩
    | succ before =>
      rw [layers_perform_moveLayerUp, layers_perform_moveLayerUp, Operation.place, ← h.length_eq]
      split_ifs with hlt
      · exact ⟨es, rfl, h.swapWithNext hlt⟩
      · exact ⟨es, rfl, h⟩
  | moveLayerDown index =>
    rw [layers_perform_moveLayerDown, layers_perform_moveLayerDown, Operation.place,
      ← h.length_eq]
    split_ifs with hlt
    · exact ⟨es, rfl, h.swapWithNext hlt⟩
    · exact ⟨es, rfl, h⟩
  | setLayerColor index color =>
    cases hcolor : Color.normalize color with
    | ok normal =>
      rw [layers_perform_setLayerColor_of_ok s index hcolor,
        layers_perform_setLayerColor_of_ok t index hcolor]
      refine ⟨_, ?_, h.modify (k := List.map fun e => { e with color := some normal })
        (fun _ _ => rfl) index⟩
      split_ifs
      · exact sameButColors_recolor normal es
      · rfl
    | error why =>
      rw [layers_perform_setLayerColor_of_error s index hcolor,
        layers_perform_setLayerColor_of_error t index hcolor]
      exact ⟨es, rfl, h⟩
  | showAllLayers => exact ⟨es, rfl, h.map fun _ => rfl⟩
  | _ => cases hop

end

end Scene

end ParticleScene
