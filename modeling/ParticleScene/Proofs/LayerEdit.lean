import ParticleScene.LayerEdit
import ParticleScene.Proofs.Layer

/-!
# Edits change one field

Two layers are the same but for some fields if they agree in all others; fields have the names that
input fields and documents give them. An edit brings the whole layer into range, so in a layer that
is in range already it changes the field it names and no other.

The raw text of an input field is read as a value of that field. When it spells none, the edit
writes the value that the layer has, which does nothing to a layer in range.
-/

namespace ParticleScene

namespace Layer

/-- Two layers agree in every field that is not named. -/
structure SameBut (fields : List String) (l l' : Layer) : Prop where
  name : "name" ∉ fields → l'.name = l.name
  visible : "visible" ∉ fields → l'.visible = l.visible
  tickStart : "tick_start" ∉ fields → l'.tickStart = l.tickStart
  tickEnd : "tick_end" ∉ fields → l'.tickEnd = l.tickEnd
  tickDelay : "tick_delay" ∉ fields → l'.tickDelay = l.tickDelay
  particle : "particle" ∉ fields → l'.particle = l.particle
  color : "color" ∉ fields → l'.color = l.color
  alpha : "alpha" ∉ fields → l'.alpha = l.alpha
  shapeSize : "shape_size" ∉ fields → l'.shapeSize = l.shapeSize
  repeatCount : "repeat" ∉ fields → l'.repeatCount = l.repeatCount
  repeatInterval : "repeat_interval" ∉ fields → l'.repeatInterval = l.repeatInterval
  yOffset : "y_offset" ∉ fields → l'.yOffset = l.yOffset
  targeter : "targeter" ∉ fields → l'.targeter = l.targeter
  elements : "elements" ∉ fields → l'.elements = l.elements

variable {fields : List String} {l l' : Layer}

/-- Range is a matter of three fields. -/
lemma SameBut.inRange (h : l.SameBut fields l') (halpha : "alpha" ∉ fields)
    (hcount : "repeat" ∉ fields) (hinterval : "repeat_interval" ∉ fields) (hl : l.InRange) :
    l'.InRange := by
  obtain ⟨hfinite, hzero, hone, hcount', hinterval'⟩ := hl
  rw [← h.alpha halpha] at hfinite hzero hone
  rw [← h.repeatCount hcount] at hcount'
  rw [← h.repeatInterval hinterval] at hinterval'
  exact ⟨hfinite, hzero, hone, hcount', hinterval'⟩

/-- A layer with other elements. -/
lemma sameBut_elements (l : Layer) (es : List Element) :
    l.SameBut ["elements"] { l with elements := es } := by
  constructor <;> simp

lemma sameBut_recolor (l : Layer) (color : String) :
    l.SameBut ["color", "elements"] (l.recolor color) := by
  constructor <;> simp [recolor]

end Layer

namespace LayerEdit

variable {e : LayerEdit} {l : Layer}

/-- The edit that sets the same field to its value brought into range. -/
def inRange : LayerEdit → LayerEdit
  | alpha v => .alpha (if v.isFinite then Number.cut 0.0 1.0 v else 1.0)
  | repeatCount v => .repeatCount (max v 1)
  | repeatInterval v => .repeatInterval (max v 1)
  | e => e

lemma field_inRange (e : LayerEdit) : e.inRange.field = e.field := by
  cases e <;> rfl

lemma set_sameBut (e : LayerEdit) (l : Layer) : l.SameBut [e.field] (e.set l) := by
  cases e <;> constructor <;> simp [field, set]

/-- To bring a layer into range after a value was written is to bring the value into range, and the
layer that it is written to. -/
lemma apply_eq_set (e : LayerEdit) (l : Layer) : e.apply l = e.inRange.set l.normalize := by
  cases e <;> rfl

/-- In a layer in range an edit writes its value, brought into range, and does nothing else. -/
lemma apply_eq_set_of_inRange (hl : l.InRange) (e : LayerEdit) : e.apply l = e.inRange.set l := by
  rw [apply_eq_set, hl.normalize_eq]

lemma apply_sameBut (hl : l.InRange) (e : LayerEdit) : l.SameBut [e.field] (e.apply l) := by
  rw [apply_eq_set_of_inRange hl, ← field_inRange]
  exact set_sameBut e.inRange l

lemma apply_inRange (e : LayerEdit) (l : Layer) : (e.apply l).InRange :=
  Layer.normalize_inRange _

/-- The edit that a text asks for is one of the field that was named. -/
lemma field_of_ofInput? {name raw : String} (h : ofInput? name raw l = some e) :
    e.field = name := by
  unfold ofInput? at h
  split at h <;> simp at h <;> subst h <;> rfl

/-! ### Raw texts -/

/-- The fields that hold a number or a truth value. -/
def typedFields : List String :=
  ["visible", "tick_start", "tick_end", "tick_delay", "alpha", "shape_size", "repeat",
    "repeat_interval", "y_offset"]

/-- The fields that an input field edits. The color is none of them. -/
def inputFields : List String :=
  ["name", "particle", "targeter"] ++ typedFields

/-- The edit to the value that a text spells on a field that holds a number or a truth value.
Floats have to be finite. -/
def spelled? (field text : String) : Option LayerEdit :=
  match field with
  | "visible" => (Number.bool? text).map .visible
  | "tick_start" => (Number.int64? text).map .tickStart
  | "tick_end" => (Number.int64? text).map .tickEnd
  | "tick_delay" => (Number.int64? text).map .tickDelay
  | "alpha" => (finite? text).map .alpha
  | "shape_size" => (finite? text).map .shapeSize
  | "repeat" => (Number.uint32? text).map .repeatCount
  | "repeat_interval" => (Number.uint32? text).map .repeatInterval
  | "y_offset" => (finite? text).map .yOffset
  | _ => none

variable {field raw : String}

lemma ofInput?_isSome_iff : (ofInput? field raw l).isSome ↔ field ∈ inputFields := by
  unfold ofInput?
  split <;> simp_all [inputFields, typedFields]

example : ofInput? "color" "#ff0000" l = none := rfl

/-- A text that spells a value asks for the edit to that value. -/
lemma ofInput?_of_spelled? (h : spelled? field (Text.trim raw) = some e) :
    ofInput? field raw l = some e := by
  unfold spelled? at h
  split at h <;> simp only [Option.map_eq_some_iff, reduceCtorEq] at h <;>
    obtain ⟨v, hv, rfl⟩ := h <;> simp [ofInput?, readOr, hv]

/-- A text that spells no value asks for an edit to the value that the field has. -/
lemma set_eq_self_of_spelled?_none (hfield : field ∈ typedFields)
    (hnone : spelled? field (Text.trim raw) = none) (h : ofInput? field raw l = some e) :
    e.set l = l := by
  simp only [typedFields, List.mem_cons, List.not_mem_nil, or_false] at hfield
  rcases hfield with rfl | rfl | rfl | rfl | rfl | rfl | rfl | rfl | rfl <;>
    simp_all [spelled?, ofInput?, readOr] <;> subst h <;> rfl

/-- Raw text does no damage to a layer in range: it edits the field it is given for and no other,
it leaves the layer in range, and where it does not spell a value of the field, it leaves the layer
as it is. -/
theorem apply_ofInput? (hl : l.InRange) (field raw : String) :
    ((ofInput? field raw l).isSome ↔ field ∈ inputFields) ∧
    ∀ e, ofInput? field raw l = some e →
      l.SameBut [field] (e.apply l) ∧ (e.apply l).InRange ∧
      (field ∈ typedFields →
        match spelled? field (Text.trim raw) with
        | some e' => e = e'
        | none => e.apply l = l) := by
  refine ⟨ofInput?_isSome_iff, fun e he => ⟨?_, apply_inRange e l, fun hfield => ?_⟩⟩
  · rw [← field_of_ofInput? he]
    exact apply_sameBut hl e
  · cases hspelled : spelled? field (Text.trim raw) with
    | some e' =>
      rw [ofInput?_of_spelled? hspelled] at he
      exact (Option.some.inj he).symm
    | none =>
      change (e.set l).normalize = l
      rw [set_eq_self_of_spelled?_none hfield hspelled he, hl.normalize_eq]

/-- A word where a number belongs, on a layer that is half transparent. -/
theorem apply_ofInput?_word :
    let l : Layer := { alpha := 0.5 }
    l.InRange ∧ ∃ e, ofInput? "alpha" "  abc " l = some e ∧ e.apply l = l := by
  intro l
  have hl : l.InRange := ⟨by decide, by decide, by decide, by decide, by decide⟩
  obtain ⟨hsome, hharmless⟩ := apply_ofInput? hl "alpha" "  abc "
  obtain ⟨e, he⟩ := Option.isSome_iff_exists.mp (hsome.mpr (by decide))
  obtain ⟨-, -, hkept⟩ := hharmless e he
  have hnone : spelled? "alpha" (Text.trim "  abc ") = none := by decide
  rw [hnone] at hkept
  exact ⟨hl, e, he, hkept (by decide)⟩

end LayerEdit

end ParticleScene
