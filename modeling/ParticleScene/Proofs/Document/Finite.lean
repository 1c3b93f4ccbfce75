import ParticleScene.Proofs.Document.Text

/-!
# Floats of saved scenes

A document that is read from a text has finite floats. A float that is not finite is written as
null, which is no number, so the text of a document with such a float is refused.
-/

namespace ParticleScene

open Json (FloatReader)

variable {reader : FloatReader}

namespace Json

variable {j : Json} {x y : Float} {field : Option Json}

lemma isFinite_of_float? (h : j.float? reader = some x) : x.isFinite := by
  cases j with
  | number n =>
    change (some (reader n)).filter Float.isFinite = some x at h
    exact (Option.filter_eq_some_iff.mp h).2
  | _ => cases h

lemma isFinite_of_orDefault (hx : x.isFinite) (h : orDefault x (float? reader) field = some y) :
    y.isFinite := by
  cases field with
  | none =>
    cases h
    exact hx
  | some j => exact isFinite_of_float? h

/-- What every item that is read satisfies, a list that may be missing satisfies throughout. -/
lemma forall_of_orDefault {α : Type} {read : Json → Option α} {p : α → Prop} {xs : List α}
    (hread : ∀ j x, read j = some x → p x) (h : orDefault [] (listOf? read) field = some xs) :
    ∀ x ∈ xs, p x := by
  cases field with
  | none =>
    cases h
    exact List.forall_mem_nil p
  | some j => exact forall_of_listOf? hread h

/-- A float that can be read once it is written is finite. -/
lemma isFinite_of_float?_ofFloat (h : (Json.ofFloat x).float? reader = some y) : x.isFinite := by
  by_contra hx
  rw [Json.ofFloat, if_neg hx] at h
  cases h

end Json

/-! ### Elements -/

namespace ElementRecord

variable {r r' : ElementRecord} {j : Json} {p q : Position}

/-- The fields that the floats of an element are read from. -/
lemma exists_fields_of_ofJson? (h : ofJson? reader j = some r) :
    ∃ typ position tickStart tickEnd yOffset color,
      j.fields? keys = some [typ, position, tickStart, tickEnd, yOffset, color] ∧
        Json.required (position? reader) position = some r.position ∧
        Json.orDefault 0.0 (Json.float? reader) yOffset = some r.yOffset := by
  unfold ofJson? at h
  split at h
  case h_1 hfields =>
    obtain ⟨_, -, h⟩ := Option.bind_eq_some_iff.mp h
    obtain ⟨_, hposition, h⟩ := Option.bind_eq_some_iff.mp h
    obtain ⟨_, -, h⟩ := Option.bind_eq_some_iff.mp h
    obtain ⟨_, -, h⟩ := Option.bind_eq_some_iff.mp h
    obtain ⟨_, hoffset, h⟩ := Option.bind_eq_some_iff.mp h
    obtain ⟨_, -, h⟩ := Option.bind_eq_some_iff.mp h
    cases h
    exact ⟨_, _, _, _, _, _, hfields, hposition, hoffset⟩
  case h_2 => cases h

lemma isFinite_of_position? {field : Option Json}
    (h : Json.required (position? reader) field = some p) : p.x.isFinite ∧ p.z.isFinite := by
  obtain ⟨j, rfl⟩ : ∃ j, field = some j := by
    cases field with
    | none => cases h
    | some j => exact ⟨j, rfl⟩
  change position? reader j = some p at h
  unfold position? at h
  split at h
  · obtain ⟨x, hx, h⟩ := Option.bind_eq_some_iff.mp h
    obtain ⟨z, hz, h⟩ := Option.bind_eq_some_iff.mp h
    cases h
    exact ⟨Json.isFinite_of_float? hx, Json.isFinite_of_float? hz⟩
  · cases h

lemma isFinite_of_ofJson? (h : ofJson? reader j = some r) : r.IsFinite := by
  obtain ⟨_, _, _, _, _, _, -, hposition, hoffset⟩ := exists_fields_of_ofJson? h
  obtain ⟨hx, hz⟩ := isFinite_of_position? hposition
  exact ⟨hx, hz, Json.isFinite_of_orDefault (by decide) hoffset⟩

lemma isFinite_of_ofJson?_toJson (h : ofJson? reader r.toJson = some r') : r.IsFinite := by
  obtain ⟨_, _, _, _, _, _, hread, hposition, hoffset⟩ := exists_fields_of_ofJson? h
  rw [fields?_toJson] at hread
  cases hread
  obtain ⟨x, hx, hposition⟩ := Option.bind_eq_some_iff.mp hposition
  obtain ⟨z, hz, -⟩ := Option.bind_eq_some_iff.mp hposition
  exact ⟨Json.isFinite_of_float?_ofFloat hx, Json.isFinite_of_float?_ofFloat hz,
    Json.isFinite_of_float?_ofFloat hoffset⟩

end ElementRecord

/-! ### Layers -/

namespace LayerRecord

variable {r r' : LayerRecord} {j : Json}

/-- The fields that the floats of a layer are read from. -/
lemma exists_fields_of_ofJson? (h : ofJson? reader j = some r) :
    ∃ name visible particle tickDelay tickStart tickEnd color alpha shapeSize repeatCount
      repeatInterval yOffset targeter elements,
      j.fields? keys = some [name, visible, particle, tickDelay, tickStart, tickEnd, color, alpha,
          shapeSize, repeatCount, repeatInterval, yOffset, targeter, elements] ∧
        Json.orDefault 1.0 (Json.float? reader) alpha = some r.alpha ∧
        Json.orDefault 1.0 (Json.float? reader) shapeSize = some r.shapeSize ∧
        Json.orDefault 0.0 (Json.float? reader) yOffset = some r.yOffset ∧
        Json.orDefault [] (Json.listOf? (ElementRecord.ofJson? reader)) elements =
          some r.elements := by
  unfold ofJson? at h
  split at h
  case h_1 hfields =>
    obtain ⟨_, -, h⟩ := Option.bind_eq_some_iff.mp h
    obtain ⟨_, -, h⟩ := Option.bind_eq_some_iff.mp h
    obtain ⟨_, -, h⟩ := Option.bind_eq_some_iff.mp h
    obtain ⟨_, -, h⟩ := Option.bind_eq_some_iff.mp h
    obtain ⟨_, -, h⟩ := Option.bind_eq_some_iff.mp h
    obtain ⟨_, -, h⟩ := Option.bind_eq_some_iff.mp h
    obtain ⟨_, -, h⟩ := Option.bind_eq_some_iff.mp h
    obtain ⟨_, halpha, h⟩ := Option.bind_eq_some_iff.mp h
    obtain ⟨_, hsize, h⟩ := Option.bind_eq_some_iff.mp h
    obtain ⟨_, -, h⟩ := Option.bind_eq_some_iff.mp h
    obtain ⟨_, -, h⟩ := Option.bind_eq_some_iff.mp h
    obtain ⟨_, hoffset, h⟩ := Option.bind_eq_some_iff.mp h
    obtain ⟨_, -, h⟩ := Option.bind_eq_some_iff.mp h
    obtain ⟨_, helements, h⟩ := Option.bind_eq_some_iff.mp h
    cases h
    exact ⟨_, _, _, _, _, _, _, _, _, _, _, _, _, _, hfields, halpha, hsize, hoffset, helements⟩
  case h_2 => cases h

lemma isFinite_of_ofJson? (h : ofJson? reader j = some r) : r.IsFinite := by
  obtain ⟨_, _, _, _, _, _, _, _, _, _, _, _, _, _, -, halpha, hsize, hoffset, helements⟩ :=
    exists_fields_of_ofJson? h
  exact ⟨Json.isFinite_of_orDefault (by decide) halpha,
    Json.isFinite_of_orDefault (by decide) hsize, Json.isFinite_of_orDefault (by decide) hoffset,
    Json.forall_of_orDefault (fun _ _ => ElementRecord.isFinite_of_ofJson?) helements⟩

lemma isFinite_of_ofJson?_toJson (h : ofJson? reader r.toJson = some r') : r.IsFinite := by
  obtain ⟨_, _, _, _, _, _, _, _, _, _, _, _, _, _, hread, halpha, hsize, hoffset, helements⟩ :=
    exists_fields_of_ofJson? h
  rw [fields?_toJson] at hread
  cases hread
  exact ⟨Json.isFinite_of_float?_ofFloat halpha, Json.isFinite_of_float?_ofFloat hsize,
    Json.isFinite_of_float?_ofFloat hoffset, Json.forall_of_listOf?_array
      (fun _ _ => ElementRecord.isFinite_of_ofJson?_toJson) helements⟩

end LayerRecord

/-! ### Documents -/

namespace Document

variable {d d' : Document} {j : Json} {text : String}

lemma exists_field_of_ofJson? (h : ofJson? reader j = some d) :
    ∃ layers, j.fields? ["layers"] = some [layers] ∧
      Json.orDefault [] (Json.listOf? (LayerRecord.ofJson? reader)) layers = some d.layers := by
  unfold ofJson? at h
  split at h
  case h_1 hfields =>
    obtain ⟨_, hlayers, h⟩ := Option.map_eq_some_iff.mp h
    cases h
    exact ⟨_, hfields, hlayers⟩
  case h_2 => cases h

lemma isFinite_of_ofJson? (h : ofJson? reader j = some d) : d.IsFinite := by
  obtain ⟨field, -, hlayers⟩ := exists_field_of_ofJson? h
  exact Json.forall_of_orDefault (fun _ _ => LayerRecord.isFinite_of_ofJson?) hlayers

lemma isFinite_of_ofJson?_toJson (h : ofJson? reader d.toJson = some d') : d.IsFinite := by
  obtain ⟨_, hread, hlayers⟩ := exists_field_of_ofJson? h
  rw [fields?_toJson] at hread
  cases hread
  exact Json.forall_of_listOf?_array (fun _ _ => LayerRecord.isFinite_of_ofJson?_toJson) hlayers

/-- Whatever text a document is read from, and by whatever reader, its floats are finite. -/
lemma isFinite_of_ofText (h : ofText reader text = .ok d) : d.IsFinite := by
  rw [ofText] at h
  split at h
  case h_1 hread =>
    cases h
    obtain ⟨j, -, hj⟩ := Option.bind_eq_some_iff.mp hread
    exact isFinite_of_ofJson? hj
  case h_2 => cases h

/-- The text of a document with a float that is not finite is refused. -/
lemma ofText_text_of_not_isFinite (h : ¬ d.IsFinite) :
    ofText reader d.text = .error .malformedJson := by
  have hread : (Json.ofText? d.text).bind (ofJson? reader) = none := by
    rw [text, Json.indented, Json.ofText?_print Json.Layout.indented_setsApart d.spellable_toJson]
    exact Option.eq_none_iff_forall_ne_some.mpr fun d' hd' => h (isFinite_of_ofJson?_toJson hd')
  rw [ofText, hread]

end Document

end ParticleScene
