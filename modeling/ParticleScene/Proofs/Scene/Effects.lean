import ParticleScene.Proofs.Except
import ParticleScene.Scene

/-!
# What successful operations do

Each operation on layers that are there is inverted: it succeeds exactly if the layer is there and
its own check passes, and then it gives one answer and records one list of layers, or leaves the
scene as it is.
-/

namespace ParticleScene.Scene

variable {s s' : Scene} {index : Nat} {answer : Answer}

/-! ### Answers -/

lemma map_answer_eq_ok {β : Type} {x : Except Failure (β × Scene)} {f : β → Answer} :
    x.map (·.map f id) = .ok (answer, s') ↔ ∃ b, x = .ok (b, s') ∧ answer = f b := by
  rw [map_eq_ok_iff]
  constructor
  · rintro ⟨⟨b, t⟩, hx, h⟩
    cases h
    exact ⟨b, hx, rfl⟩
  · rintro ⟨b, hx, rfl⟩
    exact ⟨(b, s'), hx, rfl⟩

lemma map_done_eq_ok {x : Except Failure Scene} :
    x.map (Answer.done, ·) = .ok (answer, s') ↔ x = .ok s' ∧ answer = .done := by
  rw [map_eq_ok_iff]
  constructor
  · rintro ⟨t, hx, h⟩
    cases h
    exact ⟨hx, rfl⟩
  · rintro ⟨hx, rfl⟩
    exact ⟨s', hx, rfl⟩

/-! ### Layers -/

lemma layerAt_eq_ok {l : Layer} : s.layerAt index = .ok l ↔ s.layers[index]? = some l := by
  unfold layerAt
  cases s.layers[index]? <;> simp

lemma attempt_removeLayer : s.attempt (.removeLayer index) = .ok (answer, s') ↔
    ∃ l, s.layers[index]? = some l ∧ answer = .layer l ∧
      s' = s.record .layerChange s!"Remove layer '{l.name}'" (s.layers.eraseIdx index) := by
  refine map_answer_eq_ok.trans ?_
  simp only [removeLayer, bind_eq_ok_iff, layerAt_eq_ok]
  constructor
  · rintro ⟨l, ⟨found, hfound, h⟩, rfl⟩
    cases h
    exact ⟨l, hfound, rfl, rfl⟩
  · rintro ⟨l, hl, rfl, rfl⟩
    exact ⟨l, ⟨l, hl, rfl⟩, rfl⟩

lemma attempt_editLayer {e : LayerEdit} :
    s.attempt (.editLayer index e) = .ok (answer, s') ↔
      ∃ l, s.layers[index]? = some l ∧ answer = .done ∧
        s' = s.put index .layerEdit s!"Set {e.field}" (e.apply l) := by
  refine map_done_eq_ok.trans ?_
  simp only [editLayer, bind_eq_ok_iff, layerAt_eq_ok]
  constructor
  · rintro ⟨⟨l, hl, h⟩, rfl⟩
    cases h
    exact ⟨l, hl, rfl, rfl⟩
  · rintro ⟨l, hl, rfl, rfl⟩
    exact ⟨⟨l, hl, rfl⟩, rfl⟩

/-- A text asks for an edit of a field that is known, and for nothing otherwise. -/
lemma attempt_inputField {field raw : String} :
    s.attempt (.inputField index field raw) = .ok (answer, s') ↔
      ∃ l, s.layers[index]? = some l ∧
        ((∃ e, LayerEdit.ofInput? field raw l = some e ∧ answer = .known true ∧
            s' = s.put index .layerEdit s!"Set {e.field}" (e.apply l)) ∨
          (LayerEdit.ofInput? field raw l = none ∧ answer = .known false ∧ s' = s)) := by
  refine map_answer_eq_ok.trans ?_
  simp only [inputField, bind_eq_ok_iff, layerAt_eq_ok]
  constructor
  · rintro ⟨known, ⟨l, hl, h⟩, rfl⟩
    refine ⟨l, hl, ?_⟩
    cases he : LayerEdit.ofInput? field raw l with
    | none =>
      rw [he] at h
      cases h
      exact .inr ⟨rfl, rfl, rfl⟩
    | some e =>
      rw [he] at h
      obtain ⟨t, hedit, h⟩ := bind_eq_ok_iff.mp h
      cases h
      obtain ⟨found, hfound, hedit⟩ := bind_eq_ok_iff.mp hedit
      obtain rfl := Option.some.inj (hl.symm.trans (layerAt_eq_ok.mp hfound))
      cases hedit
      exact .inl ⟨e, rfl, rfl, rfl⟩
  · rintro ⟨l, hl, ⟨e, he, rfl, rfl⟩ | ⟨he, rfl, rfl⟩⟩
    · refine ⟨true, ⟨l, hl, ?_⟩, rfl⟩
      rw [he]
      exact bind_eq_ok_iff.mpr ⟨_, bind_eq_ok_iff.mpr ⟨l, layerAt_eq_ok.mpr hl, rfl⟩, rfl⟩
    · refine ⟨false, ⟨l, hl, ?_⟩, rfl⟩
      rw [he]
      rfl

/-- The first layer stays where it is. -/
lemma attempt_moveLayerUp_zero : s.attempt (.moveLayerUp 0) = .ok (answer, s') ↔
    0 < s.layers.length ∧ answer = .index 0 ∧ s' = s := by
  refine map_answer_eq_ok.trans ?_
  simp only [moveLayerUp, bind_eq_ok_iff, layerAt_eq_ok]
  constructor
  · rintro ⟨place, ⟨l, hl, h⟩, rfl⟩
    cases h
    exact ⟨(List.getElem?_eq_some_iff.mp hl).1, rfl, rfl⟩
  · rintro ⟨hlt, rfl, rfl⟩
    exact ⟨0, ⟨_, List.getElem?_eq_getElem hlt, rfl⟩, rfl⟩

lemma attempt_moveLayerUp_succ : s.attempt (.moveLayerUp (index + 1)) = .ok (answer, s') ↔
    index + 1 < s.layers.length ∧ answer = .index index ∧
      s' = s.record .layerChange "Move layer up" (swapWithNext s.layers index) := by
  refine map_answer_eq_ok.trans ?_
  simp only [moveLayerUp, bind_eq_ok_iff, layerAt_eq_ok]
  constructor
  · rintro ⟨place, ⟨l, hl, h⟩, rfl⟩
    cases h
    exact ⟨(List.getElem?_eq_some_iff.mp hl).1, rfl, rfl⟩
  · rintro ⟨hlt, rfl, rfl⟩
    exact ⟨index, ⟨_, List.getElem?_eq_getElem hlt, rfl⟩, rfl⟩

/-- The last layer stays where it is. -/
lemma attempt_moveLayerDown : s.attempt (.moveLayerDown index) = .ok (answer, s') ↔
    (index + 1 < s.layers.length ∧ answer = .index (index + 1) ∧
      s' = s.record .layerChange "Move layer down" (swapWithNext s.layers index)) ∨
    (index + 1 = s.layers.length ∧ answer = .index index ∧ s' = s) := by
  refine map_answer_eq_ok.trans ?_
  simp only [moveLayerDown, bind_eq_ok_iff, layerAt_eq_ok]
  constructor
  · rintro ⟨place, ⟨l, hl, h⟩, rfl⟩
    have hlt := (List.getElem?_eq_some_iff.mp hl).1
    split at h
    · cases h
      exact .inl ⟨‹_›, rfl, rfl⟩
    · cases h
      exact .inr ⟨Nat.le_antisymm hlt (Nat.le_of_not_lt ‹_›), rfl, rfl⟩
  · rintro (⟨hlt, rfl, rfl⟩ | ⟨hlast, rfl, rfl⟩)
    · have hget := List.getElem?_eq_getElem (Nat.lt_of_succ_lt hlt)
      exact ⟨index + 1, ⟨_, hget, by rw [if_pos hlt]; rfl⟩, rfl⟩
    · have hget := List.getElem?_eq_getElem (Nat.lt_of_succ_le (Nat.le_of_eq hlast))
      have hge : ¬ index + 1 < s'.layers.length := Nat.not_lt_of_le (Nat.le_of_eq hlast.symm)
      exact ⟨index, ⟨_, hget, by rw [if_neg hge]; rfl⟩, rfl⟩

lemma attempt_setLayerColor {color : String} :
    s.attempt (.setLayerColor index color) = .ok (answer, s') ↔
      ∃ l normal, s.layers[index]? = some l ∧ Color.normalize color = .ok normal ∧
        answer = .done ∧ s' = s.put index .layerEdit "Set color" (l.recolor normal) := by
  refine map_done_eq_ok.trans ?_
  simp only [setLayerColor, bind_eq_ok_iff, layerAt_eq_ok]
  constructor
  · rintro ⟨⟨l, hl, normal, hnormal, h⟩, rfl⟩
    cases h
    exact ⟨l, normal, hl, hnormal, rfl, rfl⟩
  · rintro ⟨l, normal, hl, hnormal, rfl, rfl⟩
    exact ⟨⟨l, hl, normal, hnormal, rfl⟩, rfl⟩

/-! ### Elements -/

lemma attempt_appendElements {es : List Element} :
    s.attempt (.appendElements index es) = .ok (answer, s') ↔
      ∃ l, s.layers[index]? = some l ∧ answer = .count es.length ∧
        s' = s.put index .elementChange s!"Add {es.length} elements"
          { l with elements := l.elements ++ es } := by
  refine map_answer_eq_ok.trans ?_
  simp only [appendElements, bind_eq_ok_iff, layerAt_eq_ok]
  constructor
  · rintro ⟨n, ⟨l, hl, h⟩, rfl⟩
    cases h
    exact ⟨l, hl, rfl, rfl⟩
  · rintro ⟨l, hl, rfl, rfl⟩
    exact ⟨es.length, ⟨l, hl, rfl⟩, rfl⟩

lemma outcome_eq_ok {p : Production} {es : List Element} :
    p.outcome = .ok es ↔ p = .elements es := by
  cases p <;> simp [Production.outcome]

lemma attempt_importElements {source : Source} :
    s.attempt (.importElements index source) = .ok (answer, s') ↔
      ∃ l es, s.layers[index]? = some l ∧ source.produce l = .elements es ∧
        answer = .count es.length ∧
        s' = s.put index .imported source.description (l.merge source.mode es) := by
  refine map_answer_eq_ok.trans ?_
  simp only [importElements, bind_eq_ok_iff, layerAt_eq_ok, outcome_eq_ok]
  constructor
  · rintro ⟨n, ⟨l, hl, es, hes, h⟩, rfl⟩
    cases h
    exact ⟨l, es, hl, hes, rfl, rfl⟩
  · rintro ⟨l, es, hl, hes, rfl, rfl⟩
    exact ⟨es.length, ⟨l, hl, es, hes, rfl⟩, rfl⟩

lemma attempt_removeElement {element : Nat} :
    s.attempt (.removeElement index element) = .ok (answer, s') ↔
      ∃ l e, s.layers[index]? = some l ∧ l.elements[element]? = some e ∧ answer = .element e ∧
        s' = s.put index .elementChange "Remove element"
          { l with elements := l.elements.eraseIdx element } := by
  refine map_answer_eq_ok.trans ?_
  simp only [removeElement, bind_eq_ok_iff, layerAt_eq_ok]
  constructor
  · rintro ⟨e, ⟨l, hl, ⟨found, changed⟩, hremoved, h⟩, rfl⟩
    cases h
    unfold Layer.removeElement at hremoved
    split at hremoved
    · cases hremoved
      exact ⟨l, _, hl, ‹_›, rfl, rfl⟩
    · cases hremoved
  · rintro ⟨l, e, hl, he, rfl, rfl⟩
    refine ⟨e, ⟨l, hl, (e, { l with elements := l.elements.eraseIdx element }), ?_, rfl⟩, rfl⟩
    rw [Layer.removeElement, he]

lemma attempt_clearLayer : s.attempt (.clearLayer index) = .ok (answer, s') ↔
    ∃ l, s.layers[index]? = some l ∧ answer = .done ∧
      s' = s.put index .elementChange "Clear layer" { l with elements := [] } := by
  refine map_done_eq_ok.trans ?_
  simp only [clearLayer, bind_eq_ok_iff, layerAt_eq_ok]
  constructor
  · rintro ⟨⟨l, hl, h⟩, rfl⟩
    cases h
    exact ⟨l, hl, rfl, rfl⟩
  · rintro ⟨l, hl, rfl, rfl⟩
    exact ⟨⟨l, hl, rfl⟩, rfl⟩

end ParticleScene.Scene
