import ParticleScene.Proofs.Document
import ParticleScene.Proofs.Document.Finite
import ParticleScene.Source

/-!
# Layers that documents keep

A document keeps a layer as it is when the layer is in range and its elements have whole windows of
ticks. Layers that were loaded are so and have finite floats; putting elements into a layer leaves
it so if these elements have whole windows, and leaves its floats finite exactly if theirs are.
-/

namespace ParticleScene

/-- An element as a document stores it has finite floats. -/
def Element.IsFinite (e : Element) : Prop :=
  (ElementRecord.ofElement e).IsFinite

/-- A layer as a document stores it has finite floats. -/
def Layer.IsFinite (l : Layer) : Prop :=
  (LayerRecord.ofLayer l).IsFinite

/-- A layer that a document keeps. -/
structure Layer.IsStorable (l : Layer) : Prop where
  inRange : l.InRange
  isSpelled : l.targeter.IsSpelled
  whole : ∀ e ∈ l.elements, e.fillTicks = e

variable {l l' : Layer} {ls : List Layer} {es : List Element} {mode : ImportMode} {index : ℕ}

/-! ### One layer -/

lemma Layer.IsStorable.fillTicks_eq (h : l.IsStorable) : l.fillTicks = l := by
  have helements : l.elements.map Element.fillTicks = l.elements :=
    (List.map_congr_left h.whole).trans l.elements.map_id
  rw [Layer.fillTicks, helements]

lemma Layer.isFinite_iff : l.IsFinite ↔ l.alpha.isFinite ∧ l.shapeSize.isFinite ∧
    l.yOffset.isFinite ∧ ∀ e ∈ l.elements, e.IsFinite := by
  constructor
  · rintro ⟨halpha, hsize, hoffset, helements⟩
    exact ⟨halpha, hsize, hoffset, fun e he => helements _ (List.mem_map_of_mem he)⟩
  · rintro ⟨halpha, hsize, hoffset, helements⟩
    refine ⟨halpha, hsize, hoffset, fun r hr => ?_⟩
    obtain ⟨e, he, rfl⟩ := List.mem_map.mp hr
    exact helements e he

lemma Layer.merge_eq (l : Layer) (mode : ImportMode) (es : List Element) :
    l.merge mode es = { l with elements := (l.merge mode es).elements } := by
  cases mode <;> rfl

/-- The elements of a layer after an import are imported, or were there before. -/
lemma Layer.mem_elements_merge {e : Element} (he : e ∈ (l.merge mode es).elements) :
    e ∈ l.elements ∨ e ∈ es := by
  cases mode with
  | append => exact List.mem_append.mp he
  | replace => exact .inr he

lemma Layer.mem_merge_of_mem {e : Element} (he : e ∈ es) : e ∈ (l.merge mode es).elements := by
  cases mode with
  | append => exact List.mem_append_right l.elements he
  | replace => exact he

lemma Layer.IsStorable.merge (h : l.IsStorable) (hes : ∀ e ∈ es, e.fillTicks = e)
    (mode : ImportMode) : (l.merge mode es).IsStorable := by
  have hwhole : ∀ e ∈ (l.merge mode es).elements, e.fillTicks = e := fun e he =>
    (Layer.mem_elements_merge he).elim (h.whole e) (hes e)
  rw [l.merge_eq]
  exact ⟨⟨h.inRange.1, h.inRange.2, h.inRange.3, h.inRange.4, h.inRange.5⟩, h.isSpelled, hwhole⟩

/-- Elements put into a layer decide whether its floats stay finite. -/
lemma Layer.IsFinite.merge_iff (h : l.IsFinite) (mode : ImportMode) :
    (l.merge mode es).IsFinite ↔ ∀ e ∈ es, e.IsFinite := by
  obtain ⟨halpha, hsize, hoffset, helements⟩ := Layer.isFinite_iff.mp h
  constructor
  · intro hmerged e he
    exact (Layer.isFinite_iff.mp hmerged).2.2.2 e (Layer.mem_merge_of_mem he)
  · intro hes
    rw [l.merge_eq, Layer.isFinite_iff]
    exact ⟨halpha, hsize, hoffset, fun e he =>
      (Layer.mem_elements_merge he).elim (helements e) (hes e)⟩

/-! ### Layers of a document -/

namespace Document

lemma isFinite_ofLayers_iff : (ofLayers ls).IsFinite ↔ ∀ l ∈ ls, l.IsFinite :=
  List.forall_mem_map

/-- Layers that a document keeps come out of it as they are. -/
lemma toLayers_ofLayers_of_isStorable (h : ∀ l ∈ ls, l.IsStorable) :
    (ofLayers ls).toLayers = ls := by
  rw [toLayers_ofLayers fun l hl => ⟨(h l hl).inRange, (h l hl).isSpelled⟩]
  exact (List.map_congr_left fun l hl => (h l hl).fillTicks_eq).trans ls.map_id

variable {r : LayerRecord} {d : Document}

lemma isStorable_toLayer (r : LayerRecord) : r.toLayer.IsStorable where
  inRange := r.toLayer_inRange
  isSpelled := r.toLayer_isSpelled
  whole e he := by
    obtain ⟨r, -, rfl⟩ := List.mem_map.mp he
    rfl

lemma isFinite_toLayer (h : r.IsFinite) : r.toLayer.IsFinite := by
  refine Layer.isFinite_iff.mpr
    ⟨r.toLayer_inRange.alpha_isFinite, h.shapeSize, h.yOffset, fun e he => ?_⟩
  obtain ⟨r', hr', rfl⟩ := List.mem_map.mp he
  exact h.elements r' hr'

lemma isStorable_of_mem_toLayers (hl : l ∈ d.toLayers) : l.IsStorable := by
  obtain ⟨r, -, rfl⟩ := List.mem_map.mp hl
  exact isStorable_toLayer r

lemma isFinite_of_mem_toLayers (h : d.IsFinite) (hl : l ∈ d.toLayers) : l.IsFinite := by
  obtain ⟨r, hr, rfl⟩ := List.mem_map.mp hl
  exact isFinite_toLayer (h r hr)

/-! ### An import into one of several layers -/

lemma forall_mem_set {p : Layer → Prop} (hls : ∀ l ∈ ls, p l) (hl : p l) :
    ∀ l' ∈ ls.set index l, p l' := by
  intro l' hl'
  obtain hold | rfl := List.mem_or_eq_of_mem_set hl'
  · exact hls l' hold
  · exact hl

/-- The imported elements decide whether a document stays finite. -/
lemma isFinite_ofLayers_set_iff (hls : ∀ l ∈ ls, l.IsFinite) (hl : ls[index]? = some l) :
    (ofLayers (ls.set index (l.merge mode es))).IsFinite ↔ ∀ e ∈ es, e.IsFinite := by
  have hlt : index < ls.length := (List.getElem?_eq_some_iff.mp hl).1
  rw [isFinite_ofLayers_iff, ← (hls l (List.mem_of_getElem? hl)).merge_iff mode]
  exact ⟨fun h => h _ (List.mem_set hlt _), forall_mem_set hls⟩

lemma toLayers_ofLayers_set (hls : ∀ l ∈ ls, l.IsStorable) (hl : ls[index]? = some l)
    (hes : ∀ e ∈ es, e.fillTicks = e) :
    (ofLayers (ls.set index (l.merge mode es))).toLayers = ls.set index (l.merge mode es) :=
  toLayers_ofLayers_of_isStorable
    (forall_mem_set hls ((hls l (List.mem_of_getElem? hl)).merge hes mode))

end Document

end ParticleScene
