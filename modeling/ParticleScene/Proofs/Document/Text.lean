import ParticleScene.Document
import ParticleScene.Proofs.Json.Records
import ParticleScene.Proofs.Json.Trees
import ParticleScene.Proofs.Number.ReadBack

/-!
# Saved scenes read back

The text of a document, on one line or indented, is read as the document, whatever its strings and
integers, if its floats are finite and the reader gets each of them back. Some reader does that for
all finite floats, so the text tells documents apart.
-/

namespace ParticleScene

open Json (FloatReader Spellable)

variable {reader : FloatReader} {p q : Float → Prop}

namespace Json

variable {x : Float}

lemma float?_ofFloat (hx : x.isFinite) (hread : reader.ReadsBack x) :
    (Json.ofFloat x).float? reader = some x := by
  rw [Json.ofFloat, if_pos hx, float?, hread, Option.filter_some, if_pos hx]

lemma spellable_ofFloat (x : Float) : Spellable (.ofFloat x) := by
  rw [Json.ofFloat]
  split
  · exact .number (ofFloat_showsKind x)
  · exact .null

lemma spellable_ofInt (z : Int) : Spellable (.ofInt z) :=
  .number (ofInt_showsKind z)

lemma spellable_membersOf {fields : List (String × Option Json)}
    (h : ∀ p ∈ fields, ∀ j ∈ p.2, Spellable j) : Spellable (.object (membersOf fields)) := by
  refine .object fun m hm => ?_
  obtain ⟨⟨name, field⟩, hmem, hfield⟩ := List.mem_filterMap.mp hm
  obtain ⟨j, hj, rfl⟩ := Option.map_eq_some_iff.mp hfield
  exact h (name, field) hmem j hj

lemma spellable_arrayOf {α : Type} {write : α → Json} (h : ∀ x, Spellable (write x))
    (xs : List α) : Spellable (.array (xs.map write)) := by
  refine .array fun j hj => ?_
  obtain ⟨x, -, rfl⟩ := List.mem_map.mp hj
  exact h x

end Json

/-! ### Elements -/

namespace ElementRecord

/-- Every float of a stored element has a property. -/
structure AllFloats (p : Float → Prop) (r : ElementRecord) : Prop where
  x : p r.position.x
  z : p r.position.z
  yOffset : p r.yOffset

instance [DecidablePred p] (r : ElementRecord) : Decidable (r.AllFloats p) :=
  decidable_of_iff (p r.position.x ∧ p r.position.z ∧ p r.yOffset)
    ⟨fun ⟨hx, hz, hoffset⟩ => ⟨hx, hz, hoffset⟩, fun h => ⟨h.x, h.z, h.yOffset⟩⟩

/-- A stored element whose floats are finite. -/
abbrev IsFinite : ElementRecord → Prop :=
  AllFloats fun x => x.isFinite

/-- A stored element whose floats are read back. -/
abbrev IsReadBack (reader : FloatReader) : ElementRecord → Prop :=
  AllFloats reader.ReadsBack

variable {r : ElementRecord}

lemma AllFloats.imp (h : r.AllFloats p) (hpq : ∀ x, p x → q x) : r.AllFloats q :=
  ⟨hpq _ h.x, hpq _ h.z, hpq _ h.yOffset⟩

lemma ofTag_tag (k : ElementKind) : ElementKind.ofTag k.tag = k := by
  cases k <;> decide

/-- The fields of a stored element. -/
def fields (r : ElementRecord) : List (String × Option Json) :=
  [("typ", some (.string r.kind.tag)),
   ("position", some (.array [.ofFloat r.position.x, .ofFloat r.position.z])),
   ("tick_start", some (.ofInt r.tickStart.toInt)),
   ("tick_end", some (.ofInt r.tickEnd.toInt)),
   ("y_offset", some (.ofFloat r.yOffset)),
   ("color", r.color.map .string)]

lemma toJson_eq (r : ElementRecord) : r.toJson = .object (Json.membersOf r.fields) := by
  rw [toJson, fields]
  cases r.color with
  | none => rfl
  | some color => rfl

lemma keys_nodup : keys.Nodup := by decide

lemma position?_array (h : r.IsFinite) (hread : r.IsReadBack reader) :
    position? reader (.array [.ofFloat r.position.x, .ofFloat r.position.z]) = some r.position := by
  simp only [position?, Json.float?_ofFloat h.x hread.x, Json.float?_ofFloat h.z hread.z, bind,
    Option.bind]

lemma nullable_string (color : Option String) :
    Json.nullable Json.string? (color.map .string) = some color := by
  cases color with
  | none => rfl
  | some color => rfl

lemma fields?_toJson (r : ElementRecord) :
    r.toJson.fields? keys = some (r.fields.map Prod.snd) := by
  rw [toJson_eq]
  exact Json.fields?_membersOf r.fields keys_nodup

lemma ofJson?_toJson (h : r.IsFinite) (hread : r.IsReadBack reader) :
    ofJson? reader r.toJson = some r := by
  rw [ofJson?, fields?_toJson]
  simp only [fields, List.map_cons, List.map_nil, Json.orDefault, Json.required, Json.string?,
    Option.map_some, ofTag_tag, position?_array h hread, Json.int64?_ofInt,
    Json.float?_ofFloat h.yOffset hread.yOffset, nullable_string, bind, Option.bind]

lemma spellable_toJson (r : ElementRecord) : Spellable r.toJson := by
  rw [toJson_eq]
  apply Json.spellable_membersOf
  simp only [fields, List.forall_mem_cons, Option.mem_some_iff, forall_eq', Option.mem_map]
  refine ⟨.string _, .array ?_, Json.spellable_ofInt _, Json.spellable_ofInt _,
    Json.spellable_ofFloat _, ?_, ?_⟩
  · exact List.forall_mem_cons.mpr
      ⟨Json.spellable_ofFloat _, List.forall_mem_singleton.mpr (Json.spellable_ofFloat _)⟩
  · rintro j ⟨color, -, rfl⟩
    exact .string color
  · rintro p ⟨⟩

end ElementRecord

/-! ### Layers -/

namespace LayerRecord

/-- Every float of a stored layer has a property. -/
structure AllFloats (p : Float → Prop) (r : LayerRecord) : Prop where
  alpha : p r.alpha
  shapeSize : p r.shapeSize
  yOffset : p r.yOffset
  elements : ∀ e ∈ r.elements, e.AllFloats p

instance [DecidablePred p] (r : LayerRecord) : Decidable (r.AllFloats p) :=
  decidable_of_iff (p r.alpha ∧ p r.shapeSize ∧ p r.yOffset ∧ ∀ e ∈ r.elements, e.AllFloats p)
    ⟨fun ⟨halpha, hsize, hoffset, helements⟩ => ⟨halpha, hsize, hoffset, helements⟩,
      fun h => ⟨h.alpha, h.shapeSize, h.yOffset, h.elements⟩⟩

/-- A stored layer whose floats are finite. -/
abbrev IsFinite : LayerRecord → Prop :=
  AllFloats fun x => x.isFinite

/-- A stored layer whose floats are read back. -/
abbrev IsReadBack (reader : FloatReader) : LayerRecord → Prop :=
  AllFloats reader.ReadsBack

variable {r : LayerRecord}

lemma AllFloats.imp (h : r.AllFloats p) (hpq : ∀ x, p x → q x) : r.AllFloats q :=
  ⟨hpq _ h.alpha, hpq _ h.shapeSize, hpq _ h.yOffset, fun e he => (h.elements e he).imp hpq⟩

/-- The fields of a stored layer. -/
def fields (r : LayerRecord) : List (String × Option Json) :=
  [("name", some (.string r.name)),
   ("visible", some (.bool r.visible)),
   ("particle", some (.string r.particle)),
   ("tick_delay", some (.ofInt r.tickDelay.toInt)),
   ("tick_start", some (.ofInt r.tickStart.toInt)),
   ("tick_end", some (.ofInt r.tickEnd.toInt)),
   ("color", some (.string r.color)),
   ("alpha", some (.ofFloat r.alpha)),
   ("shape_size", some (.ofFloat r.shapeSize)),
   ("repeat", some (.ofInt r.repeatCount.toInt)),
   ("repeat_interval", some (.ofInt r.repeatInterval.toInt)),
   ("y_offset", some (.ofFloat r.yOffset)),
   ("targeter", some (.string r.targeter)),
   ("elements", some (.array (r.elements.map ElementRecord.toJson)))]

lemma toJson_eq (r : LayerRecord) : r.toJson = .object (Json.membersOf r.fields) := rfl

lemma keys_nodup : keys.Nodup := by decide

lemma fields?_toJson (r : LayerRecord) : r.toJson.fields? keys = some (r.fields.map Prod.snd) := by
  rw [toJson_eq]
  exact Json.fields?_membersOf r.fields keys_nodup

lemma ofJson?_toJson (h : r.IsFinite) (hread : r.IsReadBack reader) :
    ofJson? reader r.toJson = some r := by
  have helements : Json.listOf? (ElementRecord.ofJson? reader)
      (.array (r.elements.map ElementRecord.toJson)) = some r.elements :=
    Json.listOf?_array fun e he =>
      ElementRecord.ofJson?_toJson (h.elements e he) (hread.elements e he)
  rw [ofJson?, fields?_toJson]
  simp only [fields, List.map_cons, List.map_nil, Json.orDefault, Json.string?, Json.bool?,
    Json.int64?_ofInt, Json.float?_ofFloat h.alpha hread.alpha,
    Json.float?_ofFloat h.shapeSize hread.shapeSize, Json.float?_ofFloat h.yOffset hread.yOffset,
    helements, bind, Option.bind]

lemma spellable_toJson (r : LayerRecord) : Spellable r.toJson := by
  rw [toJson_eq]
  apply Json.spellable_membersOf
  simp only [fields, List.forall_mem_cons, Option.mem_some_iff, forall_eq']
  refine ⟨.string _, .bool _, .string _, Json.spellable_ofInt _, Json.spellable_ofInt _,
    Json.spellable_ofInt _, .string _, Json.spellable_ofFloat _, Json.spellable_ofFloat _,
    Json.spellable_ofInt _, Json.spellable_ofInt _, Json.spellable_ofFloat _, .string _,
    Json.spellable_arrayOf ElementRecord.spellable_toJson _, ?_⟩
  rintro p ⟨⟩

end LayerRecord

/-! ### Documents -/

namespace Document

/-- Every float of a document has a property. -/
def AllFloats (p : Float → Prop) (d : Document) : Prop :=
  ∀ r ∈ d.layers, r.AllFloats p

instance [DecidablePred p] (d : Document) : Decidable (d.AllFloats p) :=
  inferInstanceAs (Decidable (∀ r ∈ d.layers, r.AllFloats p))

/-- A document whose floats are finite. -/
abbrev IsFinite : Document → Prop :=
  AllFloats fun x => x.isFinite

/-- A document whose floats are read back. -/
abbrev IsReadBack (reader : FloatReader) : Document → Prop :=
  AllFloats reader.ReadsBack

variable {d : Document}

lemma AllFloats.imp (h : d.AllFloats p) (hpq : ∀ x, p x → q x) : d.AllFloats q :=
  fun r hr => (h r hr).imp hpq

/-- A reader that gets every finite float back reads back the floats of a finite document. -/
lemma IsFinite.isReadBack (h : d.IsFinite) (hreader : ∀ x, x.isFinite → reader.ReadsBack x) :
    d.IsReadBack reader :=
  h.imp hreader

lemma IsFinite.isReadBack_nearest (h : d.IsFinite) : d.IsReadBack .nearest :=
  h.isReadBack fun _ => FloatReader.nearest_readsBack

lemma fields?_toJson (d : Document) : d.toJson.fields? ["layers"] =
    some [some (.array (d.layers.map LayerRecord.toJson))] :=
  Json.fields?_membersOf [("layers", some (.array (d.layers.map LayerRecord.toJson)))]
    (List.nodup_singleton "layers")

lemma ofJson?_toJson (h : d.IsFinite) (hread : d.IsReadBack reader) :
    ofJson? reader d.toJson = some d := by
  have hlayers : Json.listOf? (LayerRecord.ofJson? reader)
      (.array (d.layers.map LayerRecord.toJson)) = some d.layers :=
    Json.listOf?_array fun r hr => LayerRecord.ofJson?_toJson (h r hr) (hread r hr)
  rw [ofJson?, fields?_toJson]
  simp only [Json.orDefault, hlayers, Option.map_some]

lemma spellable_toJson (d : Document) : Spellable d.toJson := by
  refine .object fun m hm => ?_
  cases List.mem_singleton.mp hm
  exact Json.spellable_arrayOf LayerRecord.spellable_toJson d.layers

/-- A document is read from its text in any layout. -/
lemma ofJson?_print {layout : Json.Layout} (hlayout : layout.SetsApart) (h : d.IsFinite)
    (hread : d.IsReadBack reader) :
    (Json.ofText? (d.toJson.print layout 0)).bind (ofJson? reader) = some d := by
  rw [Json.ofText?_print hlayout d.spellable_toJson]
  exact ofJson?_toJson h hread

/-- The text in any layout tells the trees of documents apart. -/
lemma toJson_eq_of_print_eq {d' : Document} {layout : Json.Layout} (hlayout : layout.SetsApart)
    (h : d.toJson.print layout 0 = d'.toJson.print layout 0) : d.toJson = d'.toJson := by
  have hread (d : Document) : Json.ofText? (d.toJson.print layout 0) = some d.toJson :=
    Json.ofText?_print hlayout d.spellable_toJson
  rw [← Option.some.injEq, ← hread, ← hread, h]

/-- The text on one line tells the texts of documents apart. -/
lemma text_eq_of_compactText_eq {d' : Document} (h : d.compactText = d'.compactText) :
    d.text = d'.text := by
  rw [text, text, toJson_eq_of_print_eq Json.Layout.compact_setsApart h]

/-- The indented text tells the texts on one line apart. -/
lemma compactText_eq_of_text_eq {d' : Document} (h : d.text = d'.text) :
    d.compactText = d'.compactText := by
  rw [compactText, compactText, toJson_eq_of_print_eq Json.Layout.indented_setsApart h]

/-- The tree tells documents with finite floats apart, as there is a reader that gets all of these
floats back. -/
lemma eq_of_toJson_eq {d' : Document} (hd : d.IsFinite) (hd' : d'.IsFinite)
    (h : d'.toJson = d.toJson) : d' = d := by
  have hread := ofJson?_toJson hd' hd'.isReadBack_nearest
  rw [h, ofJson?_toJson hd hd.isReadBack_nearest] at hread
  exact (Option.some.inj hread).symm

/-- A document whose floats are finite is read from its text, and from its text on one line, by
every reader that gets its floats back. Different documents have different texts. -/
theorem ofText_text (hd : d.IsFinite) (hread : d.IsReadBack reader) :
    ofText reader d.text = .ok d ∧
      (Json.ofText? d.compactText).bind (ofJson? reader) = some d ∧
      ∀ d' : Document, d'.IsFinite →
        d'.text = d.text ∨ d'.compactText = d.compactText → d' = d := by
  refine ⟨?_, ofJson?_print Json.Layout.compact_setsApart hd hread, fun d' hd' hsame => ?_⟩
  · rw [ofText, text, Json.indented, ofJson?_print Json.Layout.indented_setsApart hd hread]
  · obtain htext | htext := hsame
    · exact eq_of_toJson_eq hd hd' (toJson_eq_of_print_eq Json.Layout.indented_setsApart htext)
    · exact eq_of_toJson_eq hd hd' (toJson_eq_of_print_eq Json.Layout.compact_setsApart htext)

/-- A document of quotes, escapes and control characters, the ends of the integer range, the least
and the greatest positive float and a negative zero. -/
def unusual : Document where
  layers := [{
    name := "say \"hi\" \\ \n\t\x07\x1f\x7f é 界 😀"
    tickStart := Int64.minValue
    tickEnd := Int64.maxValue
    alpha := 0.1
    shapeSize := Float.ofBits 0x7FEFFFFFFFFFFFFF
    yOffset := -0.0
    elements := [
      { position := ⟨Float.ofBits 1, -1e22⟩, color := some "#00ff00" },
      { kind := .free, position := ⟨0.0, 123456789.125⟩ }] }]

lemma unusual_isFinite : unusual.IsFinite := by
  decide

lemma unusual_isReadBack : unusual.IsReadBack .fast := by
  decide +kernel

/-- The fast reader gets these floats back. -/
theorem ofText_text_unusual : unusual.IsFinite ∧ unusual.IsReadBack .fast ∧
    ofText .fast unusual.text = .ok unusual ∧
    (Json.ofText? unusual.compactText).bind (ofJson? .fast) = some unusual :=
  have hread := ofText_text unusual_isFinite unusual_isReadBack
  ⟨unusual_isFinite, unusual_isReadBack, hread.1, hread.2.1⟩

end Document

end ParticleScene
