import ParticleScene.Proofs.Document.Finite
import ParticleScene.Proofs.Json.Variants

/-!
# Fields left out

What a document file leaves out has its default, so a scene can be written in many ways: members
whose value is the default may be missing from any object, the rest may stand in any order, and
members that no reader asks for may stand among them. All of these texts are read as the one
document, by a reader that gets its floats back. Two things spoil a text: an element without a
position, which has no default, and an added key that spells no characters.
-/

namespace ParticleScene

open Json (FloatReader IsReadable IsWritten)

variable {reader : FloatReader} {allowed : Option String → Prop}

/-! ### Floats -/

namespace Json

variable {field' : Option Json}

/-- A float is written as another only if the two are identical. -/
lemma eq_of_ofFloat_eq {x y : Float} (hx : x.isFinite) (hy : y.isFinite)
    (h : Json.ofFloat x = .ofFloat y) : x = y := by
  have hread := float?_ofFloat hx (FloatReader.nearest_readsBack hx)
  rw [h, float?_ofFloat hy (FloatReader.nearest_readsBack hy)] at hread
  exact (Option.some.inj hread).symm

example : Json.ofFloat (-0.0) ≠ .ofFloat 0.0 := fun h =>
  absurd (eq_of_ofFloat_eq (by decide) (by decide) h) (by decide)

/-- Only a float that is written has to be read back; the default is not read. -/
lemma orDefault_float? {y z : Float} (hy : y.isFinite) (hz : z.isFinite)
    (hread : reader.ReadsBack z) (h : Varied (some (.ofFloat y)) Eq (some (.ofFloat z)) field') :
    orDefault y (float? reader) field' = some z := by
  cases h with
  | kept h =>
    rw [← h]
    exact float?_ofFloat hz hread
  | dropped h =>
    rw [eq_of_ofFloat_eq hy hz (Option.some.inj h)]
    rfl

end Json

/-! ### Elements -/

namespace ElementRecord

variable {r : ElementRecord} {j j' : Json}

/-- The documented defaults. A color that is missing is written by leaving it out. -/
def defaults : List (String × Json) :=
  [("typ", .string "point"), ("tick_start", .ofInt 0), ("tick_end", .ofInt 20),
   ("y_offset", .ofFloat 0.0)]

/-- An element written in another way, with added keys that are allowed. -/
def IsVariant (allowed : Option String → Prop) : Json → Json → Prop :=
  Json.IsVariant allowed keys defaults fun _ => Eq

/-- However an element is written, it is read. -/
lemma ofJson?_of_isVariant (hr : r.IsFinite) (hread : r.IsReadBack reader)
    (h : IsVariant IsReadable r.toJson j) : ofJson? reader j = some r := by
  rw [toJson_eq] at h
  obtain ⟨fields', hfields, hvaried⟩ :=
    Json.fields?_of_isVariant r.fields keys_nodup h
  obtain _ | ⟨htyp, _ | ⟨hposition, _ | ⟨hstart, _ | ⟨hend, _ | ⟨hoffset, _ | ⟨hcolor, ⟨⟩⟩⟩⟩⟩⟩⟩ :=
    hvaried
  change j.fields? keys = _ at hfields
  have htyp : Json.orDefault .point (fun j => j.string?.map ElementKind.ofTag) _ = some r.kind :=
    Json.orDefault_of_varied_eq htyp (congrArg some (ofTag_tag r.kind)) (by rintro j ⟨⟩; decide)
  have hposition := Json.eq_of_varied rfl hposition
  have hstart := Json.orDefault_int64? (m := 0) hstart
  have hend := Json.orDefault_int64? (m := 20) hend
  have hoffset := Json.orDefault_float? (by decide) hr.yOffset hread.yOffset hoffset
  have hcolor := Json.eq_of_varied rfl hcolor
  rw [ofJson?, hfields]
  simp only [htyp, hposition, Json.required, position?_array hr hread, hstart, hend, hoffset,
    hcolor, nullable_string, bind, Option.bind]

/-- The keys of an element that is read spell characters. -/
lemma isVariant_isReadable (h : IsVariant allowed j j') (hread : ofJson? reader j' = some r) :
    IsVariant IsReadable j j' :=
  Json.isVariant_isReadable_of_read rfl h hread fun _ _ _ _ _ _ _ _ h => h

/-- An element without a position is not read, whatever else it has. -/
lemma ofJson?_of_lacksPosition {members : List (Option String × Json)}
    (h : ∀ m ∈ members, m.1 ≠ some "position") :
    ofJson? reader (Json.ofMembers members) = none := by
  rw [Option.eq_none_iff_forall_ne_some]
  intro r hr
  obtain ⟨members, rfl, hobject⟩ := Json.exists_asWritten_of_read (ofJson? reader) rfl hr
  obtain ⟨typ, position, _, _, _, _, hfields, hposition, -⟩ := exists_fields_of_ofJson? hobject
  obtain _ | ⟨-, _ | ⟨hmember, -⟩⟩ := Json.forall₂_of_mapM hfields
  have hmissing : ∀ m ∈ members, m.1 ≠ "position" := fun m hm hname =>
    h _ (List.mem_map_of_mem hm) (congrArg some hname)
  rw [Json.eq_none_of_member? hmissing hmember] at hposition
  cases hposition

end ElementRecord

/-! ### Layers -/

namespace LayerRecord

variable {r : LayerRecord} {j j' v : Json} {members : List (String × Json)}

/-- The documented defaults. -/
def defaults : List (String × Json) :=
  [("name", .string "Layer"), ("visible", .bool true), ("particle", .string "reddust"),
   ("tick_delay", .ofInt 0), ("tick_start", .ofInt 0), ("tick_end", .ofInt 20),
   ("color", .string "#ffffff"), ("alpha", .ofFloat 1.0), ("shape_size", .ofFloat 1.0),
   ("repeat", .ofInt 1), ("repeat_interval", .ofInt 1), ("y_offset", .ofFloat 0.0),
   ("targeter", .string "Origin"), ("elements", .array [])]

/-- A layer written in another way; its elements may be, too. -/
def IsVariant (allowed : Option String → Prop) : Json → Json → Prop :=
  Json.IsVariant allowed keys defaults fun name =>
    if name = "elements" then Json.ItemsVary (ElementRecord.IsVariant allowed) else Eq

/-- However a layer is written, it is read. -/
lemma ofJson?_of_isVariant (hr : r.IsFinite) (hread : r.IsReadBack reader)
    (h : IsVariant IsReadable r.toJson j) : ofJson? reader j = some r := by
  rw [toJson_eq] at h
  obtain ⟨fields', hfields, hvaried⟩ :=
    Json.fields?_of_isVariant r.fields keys_nodup h
  obtain _ | ⟨hname, _ | ⟨hvisible, _ | ⟨hparticle, _ | ⟨hdelay, _ | ⟨hstart, _ | ⟨hend,
    _ | ⟨hcolor, _ | ⟨halpha, _ | ⟨hsize, _ | ⟨hcount, _ | ⟨hinterval, _ | ⟨hoffset,
    _ | ⟨htargeter, _ | ⟨helements, ⟨⟩⟩⟩⟩⟩⟩⟩⟩⟩⟩⟩⟩⟩⟩⟩ := hvaried
  change j.fields? keys = _ at hfields
  have hname := Json.orDefault_string? (s := "Layer") hname
  have hvisible := Json.orDefault_bool? (b := true) hvisible
  have hparticle := Json.orDefault_string? (s := "reddust") hparticle
  have hdelay := Json.orDefault_int64? (m := 0) hdelay
  have hstart := Json.orDefault_int64? (m := 0) hstart
  have hend := Json.orDefault_int64? (m := 20) hend
  have hcolor := Json.orDefault_string? (s := "#ffffff") hcolor
  have halpha := Json.orDefault_float? (y := 1.0) (by decide) hr.alpha hread.alpha halpha
  have hsize := Json.orDefault_float? (y := 1.0) (by decide) hr.shapeSize hread.shapeSize hsize
  have hcount := Json.orDefault_int64? (m := 1) hcount
  have hinterval := Json.orDefault_int64? (m := 1) hinterval
  have hoffset := Json.orDefault_float? (y := 0.0) (by decide) hr.yOffset hread.yOffset hoffset
  have htargeter := Json.orDefault_string? (s := Targeter.defaultName) htargeter
  have helements : Json.orDefault [] (Json.listOf? (ElementRecord.ofJson? reader)) _ =
      some r.elements :=
    Json.orDefault_of_varied helements
      (Json.listOf?_array fun e he =>
        ElementRecord.ofJson?_toJson (hr.elements e he) (hread.elements e he))
      (fun j' => Json.listOf?_of_itemsVary fun e he _ =>
        ElementRecord.ofJson?_of_isVariant (hr.elements e he) (hread.elements e he))
      (by rintro j ⟨⟩; rfl)
  rw [ofJson?, hfields]
  simp only [hname, hvisible, hparticle, hdelay, hstart, hend, hcolor, halpha, hsize, hcount,
    hinterval, hoffset, htargeter, helements, bind, Option.bind]

/-- The elements in a layer that is read are read. -/
lemma listOf?_of_mem (h : ofJson? reader (.object members) = some r)
    (hv : ("elements", v) ∈ members) :
    Json.listOf? (ElementRecord.ofJson? reader) v = some r.elements := by
  obtain ⟨_, _, _, _, _, _, _, _, _, _, _, _, _, field, hfields, -, -, -, hread⟩ :=
    exists_fields_of_ofJson? h
  have hmember := (Json.forall₂_of_mapM hfields).get (i := 13) (by decide) (by simp)
  have hfield : field = some v := Json.eq_some_of_member? hv hmember
  rwa [hfield] at hread

/-- The keys of a layer that is read, and those of its elements, spell characters. -/
lemma isVariant_isReadable (h : IsVariant allowed j j') (hread : ofJson? reader j' = some r) :
    IsVariant IsReadable j j' := by
  refine Json.isVariant_isReadable_of_read rfl h hread ?_
  rintro written members - rfl m - v hv hvaried
  by_cases hname : m.1 = "elements"
  · rw [hname] at hv
    rw [if_pos hname] at hvaried ⊢
    exact Json.itemsVary_of_listOf? (fun _ _ _ => ElementRecord.isVariant_isReadable) hvaried
      (listOf?_of_mem hread hv)
  · rwa [if_neg hname] at hvaried ⊢

/-- A layer with an element that is not read is not read. -/
lemma ofJson?_of_mem_elements {members : List (Option String × Json)} {elements : List Json}
    (helements : (some "elements", .array elements) ∈ members) (hj : j ∈ elements)
    (hnone : ElementRecord.ofJson? reader j = none) :
    ofJson? reader (Json.ofMembers members) = none := by
  rw [Option.eq_none_iff_forall_ne_some]
  intro r hr
  obtain ⟨members, rfl, hobject⟩ := Json.exists_asWritten_of_read (ofJson? reader) rfl hr
  have hread := listOf?_of_mem hobject (Json.mem_of_asWritten helements)
  rw [Json.listOf?_of_mem hj hnone] at hread
  cases hread

end LayerRecord

/-! ### Documents -/

namespace Document

variable {d d' : Document} {j v : Json} {text : String} {members : List (String × Json)}

/-- The tree of a document, written in another way. -/
def IsVariant (allowed : Option String → Prop) : Json → Json → Prop :=
  Json.IsVariant allowed ["layers"] [("layers", .array [])] fun _ =>
    Json.ItemsVary (LayerRecord.IsVariant allowed)

/-- However a document is written, it is read. -/
lemma ofJson?_of_isVariant (hd : d.IsFinite) (hread : d.IsReadBack reader)
    (h : IsVariant IsReadable d.toJson j) : ofJson? reader j = some d := by
  obtain ⟨fields', hfields, hvaried⟩ := Json.fields?_of_isVariant
    [("layers", some (.array (d.layers.map LayerRecord.toJson)))] (List.nodup_singleton "layers") h
  obtain _ | ⟨hlayers, ⟨⟩⟩ := hvaried
  change j.fields? ["layers"] = _ at hfields
  have hlayers : Json.orDefault [] (Json.listOf? (LayerRecord.ofJson? reader)) _ = some d.layers :=
    Json.orDefault_of_varied hlayers
      (Json.listOf?_array fun r hr => LayerRecord.ofJson?_toJson (hd r hr) (hread r hr))
      (fun j' => Json.listOf?_of_itemsVary fun r hr _ =>
        LayerRecord.ofJson?_of_isVariant (hd r hr) (hread r hr))
      (by rintro j ⟨⟩; rfl)
  rw [ofJson?, hfields]
  simp only [hlayers, Option.map_some]

/-- The layers in a document that is read are read. -/
lemma listOf?_of_mem (h : ofJson? reader (.object members) = some d)
    (hv : ("layers", v) ∈ members) :
    Json.listOf? (LayerRecord.ofJson? reader) v = some d.layers := by
  obtain ⟨field, hfields, hread⟩ := exists_field_of_ofJson? h
  obtain _ | ⟨hmember, -⟩ := Json.forall₂_of_mapM hfields
  rwa [Json.eq_some_of_member? hv hmember] at hread

/-- The keys of a document that is read spell characters, in each of its records. -/
lemma isVariant_isReadable (h : IsVariant allowed d.toJson j) (hread : ofJson? reader j = some d') :
    IsVariant IsReadable d.toJson j := by
  refine Json.isVariant_isReadable_of_read rfl h hread ?_
  rintro written members ⟨⟩ rfl m hm v hv hvaried
  cases List.mem_singleton.mp hm
  exact Json.itemsVary_of_listOf? (fun _ _ _ => LayerRecord.isVariant_isReadable) hvaried
    (listOf?_of_mem hread hv)

/-- Some element of the document has no position, whatever keys it has. -/
def LacksPosition (j : Json) : Prop :=
  ∃ document layers layer elements element, j = Json.ofMembers document ∧
    (some "layers", .array layers) ∈ document ∧ Json.ofMembers layer ∈ layers ∧
    (some "elements", .array elements) ∈ layer ∧ Json.ofMembers element ∈ elements ∧
    ∀ m ∈ element, m.1 ≠ some "position"

lemma ofJson?_of_lacksPosition (h : LacksPosition j) : ofJson? reader j = none := by
  obtain ⟨document, layers, layer, elements, element, rfl, hlayers, hlayer, helements, helement,
    hposition⟩ := h
  rw [Option.eq_none_iff_forall_ne_some]
  intro d hd
  obtain ⟨document, rfl, hobject⟩ := Json.exists_asWritten_of_read (ofJson? reader) rfl hd
  have hnone : LayerRecord.ofJson? reader (Json.ofMembers layer) = none :=
    LayerRecord.ofJson?_of_mem_elements helements helement
      (ElementRecord.ofJson?_of_lacksPosition hposition)
  have hread := listOf?_of_mem hobject (Json.mem_of_asWritten hlayers)
  rw [Json.listOf?_of_mem hlayer hnone] at hread
  cases hread

/-- Fields that are left out of the text of a document have their defaults: in whatever way a
document is written, its text is read as the document, if the reader gets back each float of it and
the added keys spell characters. A text with an added key that spells none, in any of the records,
is refused. So is one in which a position is left out. -/
theorem ofText_of_isVariant (hd : d.IsFinite) (hread : d.IsReadBack reader) :
    (∀ j text, IsVariant IsReadable d.toJson j → Json.IsTextOf text j →
      ofText reader text = .ok d) ∧
    (∀ j text, IsVariant IsWritten d.toJson j → ¬ IsVariant IsReadable d.toJson j →
      Json.IsTextOf text j → ofText reader text = .error .malformedJson) ∧
    ∀ j text, LacksPosition j → Json.IsTextOf text j →
      ofText reader text = .error .malformedJson := by
  refine ⟨fun j text hvariant htext => ?_, fun j text hvariant hgarbled htext => ?_,
    fun j text hlacks htext => ?_⟩
  · rw [ofText, Json.ofText?_of_isTextOf htext, Option.bind_some,
      ofJson?_of_isVariant hd hread hvariant]
  · have hnone : ofJson? reader j = none := Option.eq_none_iff_forall_ne_some.mpr fun d' hd' =>
      hgarbled (isVariant_isReadable hvariant hd')
    rw [ofText, Json.ofText?_of_isTextOf htext, Option.bind_some, hnone]
  · rw [ofText, Json.ofText?_of_isTextOf htext, Option.bind_some, ofJson?_of_lacksPosition hlacks]

/-- Half of a character is no character, and it may stand in a value that nothing reads, but not in
a key. -/
example : ofJson? .fast (Json.ofMembers [(some "extra", .garbled)]) = some {} ∧
    ofJson? .fast (Json.ofMembers [(none, .null)]) = none := by decide

/-- One layer with one element; all but a name, a position and a tick are defaults. -/
def sparse : Document where
  layers := [{ name := "Smoke", elements := [{ position := ⟨1.5, -2.0⟩, tickEnd := 40 }] }]

/-- The element with its keys in another order, and a number beyond all floats among them. -/
def sparseElement : Json :=
  .object [("tick_end", .ofInt 40), ("zoom", .number ⟨false, 1, 999, false⟩),
    ("position", .array [.ofFloat 1.5, .ofFloat (-2.0)])]

/-- The layer without its defaults, and a nested value that nothing reads. -/
def sparseLayer : Json :=
  .object [("elements", .array [sparseElement]), ("layers", .array [.object [("", .null)]]),
    ("name", .string "Smoke")]

def sparseTree : Json :=
  .object [("layers", .array [sparseLayer])]

lemma sparse_isFinite : sparse.IsFinite := by
  decide

lemma sparse_isReadBack : sparse.IsReadBack .fast := by
  decide

lemma isVariant_sparseElement :
    ElementRecord.IsVariant IsReadable
      (ElementRecord.toJson { position := ⟨1.5, -2.0⟩, tickEnd := 40 }) sparseElement := by
  refine Json.isVariant_object _ [("zoom", .number ⟨false, 1, 999, false⟩)]
    (List.filter_append_perm (fun m => m.1 ∈ ["position", "tick_end"]) _).symm ?_
    (List.forall₂_same.mpr fun m _ => ⟨rfl, rfl⟩) ?_ ?_
  · intro m hm
    fin_cases hm <;> rfl
  · exact List.forall_mem_singleton.mpr ⟨rfl, by decide⟩
  · exact List.perm_append_singleton _ [_, _]

lemma isVariant_sparseLayer :
    LayerRecord.IsVariant IsReadable
      (LayerRecord.toJson
        { name := "Smoke", elements := [{ position := ⟨1.5, -2.0⟩, tickEnd := 40 }] })
      sparseLayer := by
  have helements : Json.ItemsVary (ElementRecord.IsVariant IsReadable)
      (.array [ElementRecord.toJson { position := ⟨1.5, -2.0⟩, tickEnd := 40 }])
      (.array [sparseElement]) := ⟨_, _, rfl, rfl, .cons isVariant_sparseElement .nil⟩
  refine Json.isVariant_object [_, ("elements", .array [sparseElement])]
    [("layers", .array [.object [("", .null)]])]
    (List.filter_append_perm (fun m => m.1 ∈ ["name", "elements"]) _).symm ?_
    (.cons ⟨rfl, rfl⟩ (.cons ⟨rfl, helements⟩ .nil)) ?_ ?_
  · intro m hm
    fin_cases hm <;> rfl
  · exact List.forall_mem_singleton.mpr ⟨rfl, by decide⟩
  · exact List.perm_append_singleton _ [_, _]

lemma isVariant_sparseTree : IsVariant IsReadable sparse.toJson sparseTree := by
  refine @Json.isVariant_object _ _ _ _ _ _ [("layers", _)] [] [("layers", .array [sparseLayer])] []
    (.refl _) (List.forall_mem_nil _) (.cons ⟨rfl, ?_⟩ .nil) (List.forall_mem_nil _) (.refl _)
  exact ⟨_, _, rfl, rfl, .cons isVariant_sparseLayer .nil⟩

lemma spellable_sparseElement : Json.Spellable sparseElement := by
  have hzoom : Json.Spellable (.number ⟨false, 1, 999, false⟩) := by
    apply Json.Spellable.number
    unfold Json.Literal.ShowsKind
    decide
  have hposition : Json.Spellable (.array [.ofFloat 1.5, .ofFloat (-2.0)]) :=
    .array (List.forall_mem_cons.mpr
      ⟨Json.spellable_ofFloat _, List.forall_mem_singleton.mpr (Json.spellable_ofFloat _)⟩)
  apply Json.Spellable.object
  simp only [List.forall_mem_cons]
  exact ⟨Json.spellable_ofInt 40, hzoom, hposition, List.forall_mem_nil _⟩

lemma spellable_sparseTree : Json.Spellable sparseTree := by
  have hnested : Json.Spellable (.array [.object [("", .null)]]) :=
    .array (List.forall_mem_singleton.mpr (.object (List.forall_mem_singleton.mpr .null)))
  have helements : Json.Spellable (.array [sparseElement]) :=
    .array (List.forall_mem_singleton.mpr spellable_sparseElement)
  have hlayer : Json.Spellable sparseLayer := by
    apply Json.Spellable.object
    simp only [List.forall_mem_cons]
    exact ⟨helements, hnested, .string "Smoke", List.forall_mem_nil _⟩
  exact .object (List.forall_mem_singleton.mpr (.array (List.forall_mem_singleton.mpr hlayer)))

/-- A layer whose opacity is a product that the fast reader does not get back. -/
def product : Document where
  layers := [{ alpha := 0.1 * 1.1 }]

/-- The same layer with the opacity that is read in its place. -/
def productRead : Document where
  layers := [{ alpha := 0.11 }]

lemma product_ne_productRead : product ≠ productRead := by
  intro h
  have halpha : (0.1 * 1.1 : Float) = 0.11 := by
    simpa [product, productRead] using h
  exact absurd halpha (by decide)

lemma ofText_product : product.IsFinite ∧ ofText .fast product.text = .ok productRead := by
  refine ⟨by decide, ?_⟩
  have hread : ofJson? .fast product.toJson = some productRead := by decide +kernel
  rw [ofText, text, Json.indented,
    Json.ofText?_print Json.Layout.indented_setsApart product.spellable_toJson, Option.bind_some,
    hread]

/-- The fast reader gets the floats of one document back and reads it from a text of it. It does not
get back those of another document, and reads a third one from its text. -/
theorem ofText_sparse :
    (sparse.IsFinite ∧ sparse.IsReadBack .fast ∧ IsVariant IsReadable sparse.toJson sparseTree ∧
      ofText .fast sparseTree.indented = .ok sparse) ∧
    product.IsFinite ∧ ofText .fast product.text = .ok productRead ∧ product ≠ productRead := by
  obtain ⟨hread, -⟩ := ofText_of_isVariant sparse_isFinite sparse_isReadBack
  refine ⟨⟨sparse_isFinite, sparse_isReadBack, isVariant_sparseTree, ?_⟩, ofText_product.1,
    ofText_product.2, product_ne_productRead⟩
  exact hread _ _ isVariant_sparseTree
    (Json.isTextOf_print Json.Layout.indented_setsApart spellable_sparseTree)

end Document

end ParticleScene
