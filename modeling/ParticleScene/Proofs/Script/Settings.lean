import ParticleScene.Proofs.Document.Omissions
import ParticleScene.Proofs.Files.Stored

/-!
# Options in settings files

Options are read again from the text of their settings file, and from every other text of them, by
a reader that gets their floats back: fields that have the default of their record may be missing,
whole modes as well as the fields in them, and the rest may stand in any order with unknown keys
among them.
-/

namespace ParticleScene

open Json (FloatReader IsReadable Spellable)

variable {j : Json} {reader : FloatReader} {p : Float → Prop}

/-! ### One mode -/

namespace RotateMode

variable {m : RotateMode}

/-- The fields of the mode. -/
def fields (m : RotateMode) : List (String × Option Json) :=
  [("enabled", some (.bool m.enabled)), ("speed", some (.ofFloat m.speed))]

lemma toJson_eq (m : RotateMode) : m.toJson = .object (Json.membersOf m.fields) := rfl

lemma keys_nodup : ["enabled", "speed"].Nodup := by decide

/-- The mode, written in another way. -/
def IsVariant : Json → Json → Prop :=
  Json.IsVariant IsReadable ["enabled", "speed"] (Json.membersOf (fields {})) fun _ => Eq

/-- However the mode is written, it is read. -/
lemma ofJson?_of_isVariant (hspeed : m.speed.isFinite) (hread : reader.ReadsBack m.speed)
    (h : IsVariant m.toJson j) : ofJson? reader j = some m := by
  obtain ⟨fields', hfields, hvaried⟩ := Json.fields?_of_isVariant m.fields keys_nodup h
  obtain _ | ⟨henabled, _ | ⟨hspeed', ⟨⟩⟩⟩ := hvaried
  change j.fields? ["enabled", "speed"] = _ at hfields
  have henabled := Json.orDefault_bool? (b := false) henabled
  have hspeed := Json.orDefault_float? (y := 2.0) (by decide) hspeed hread hspeed'
  rw [ofJson?, hfields]
  simp only [henabled, hspeed, bind, Option.bind]

lemma isVariant_toJson (m : RotateMode) : IsVariant m.toJson m.toJson :=
  Json.isVariant_refl fun _ _ => rfl

lemma ofJson?_toJson_nearest (hspeed : m.speed.isFinite) : ofJson? .nearest m.toJson = some m :=
  ofJson?_of_isVariant hspeed (FloatReader.nearest_readsBack hspeed) m.isVariant_toJson

lemma spellable_toJson (m : RotateMode) : Spellable m.toJson := by
  rw [toJson_eq]
  apply Json.spellable_membersOf
  simp only [fields, List.forall_mem_cons, Option.mem_some_iff, forall_eq']
  exact ⟨.bool _, Json.spellable_ofFloat _, List.forall_mem_nil _⟩

end RotateMode

namespace OrbitMode

variable {m : OrbitMode}

def fields (m : OrbitMode) : List (String × Option Json) :=
  [("enabled", some (.bool m.enabled)), ("radius", some (.ofFloat m.radius)),
   ("speed", some (.ofFloat m.speed))]

lemma toJson_eq (m : OrbitMode) : m.toJson = .object (Json.membersOf m.fields) := rfl

lemma keys_nodup : ["enabled", "radius", "speed"].Nodup := by decide

def IsVariant : Json → Json → Prop :=
  Json.IsVariant IsReadable ["enabled", "radius", "speed"] (Json.membersOf (fields {})) fun _ => Eq

lemma ofJson?_of_isVariant (hradius : m.radius.isFinite) (hspeed : m.speed.isFinite)
    (hreadRadius : reader.ReadsBack m.radius) (hreadSpeed : reader.ReadsBack m.speed)
    (h : IsVariant m.toJson j) : ofJson? reader j = some m := by
  obtain ⟨fields', hfields, hvaried⟩ := Json.fields?_of_isVariant m.fields keys_nodup h
  obtain _ | ⟨henabled, _ | ⟨hradius', _ | ⟨hspeed', ⟨⟩⟩⟩⟩ := hvaried
  change j.fields? ["enabled", "radius", "speed"] = _ at hfields
  have henabled := Json.orDefault_bool? (b := false) henabled
  have hradius := Json.orDefault_float? (y := 0.4) (by decide) hradius hreadRadius hradius'
  have hspeed := Json.orDefault_float? (y := 1.0) (by decide) hspeed hreadSpeed hspeed'
  rw [ofJson?, hfields]
  simp only [henabled, hradius, hspeed, bind, Option.bind]

lemma isVariant_toJson (m : OrbitMode) : IsVariant m.toJson m.toJson :=
  Json.isVariant_refl fun _ _ => rfl

lemma ofJson?_toJson_nearest (hradius : m.radius.isFinite) (hspeed : m.speed.isFinite) :
    ofJson? .nearest m.toJson = some m :=
  ofJson?_of_isVariant hradius hspeed (FloatReader.nearest_readsBack hradius)
    (FloatReader.nearest_readsBack hspeed) m.isVariant_toJson

lemma spellable_toJson (m : OrbitMode) : Spellable m.toJson := by
  rw [toJson_eq]
  apply Json.spellable_membersOf
  simp only [fields, List.forall_mem_cons, Option.mem_some_iff, forall_eq']
  exact ⟨.bool _, Json.spellable_ofFloat _, Json.spellable_ofFloat _, List.forall_mem_nil _⟩

end OrbitMode

namespace RiseMode

variable {m : RiseMode}

def fields (m : RiseMode) : List (String × Option Json) :=
  [("enabled", some (.bool m.enabled)), ("speed", some (.ofFloat m.speed)),
   ("limit", some (.ofFloat m.limit))]

lemma toJson_eq (m : RiseMode) : m.toJson = .object (Json.membersOf m.fields) := rfl

lemma keys_nodup : ["enabled", "speed", "limit"].Nodup := by decide

def IsVariant : Json → Json → Prop :=
  Json.IsVariant IsReadable ["enabled", "speed", "limit"] (Json.membersOf (fields {})) fun _ => Eq

lemma ofJson?_of_isVariant (hspeed : m.speed.isFinite) (hlimit : m.limit.isFinite)
    (hreadSpeed : reader.ReadsBack m.speed) (hreadLimit : reader.ReadsBack m.limit)
    (h : IsVariant m.toJson j) : ofJson? reader j = some m := by
  obtain ⟨fields', hfields, hvaried⟩ := Json.fields?_of_isVariant m.fields keys_nodup h
  obtain _ | ⟨henabled, _ | ⟨hspeed', _ | ⟨hlimit', ⟨⟩⟩⟩⟩ := hvaried
  change j.fields? ["enabled", "speed", "limit"] = _ at hfields
  have henabled := Json.orDefault_bool? (b := false) henabled
  have hspeed := Json.orDefault_float? (y := 0.1) (by decide) hspeed hreadSpeed hspeed'
  have hlimit := Json.orDefault_float? (y := 10.0) (by decide) hlimit hreadLimit hlimit'
  rw [ofJson?, hfields]
  simp only [henabled, hspeed, hlimit, bind, Option.bind]

lemma isVariant_toJson (m : RiseMode) : IsVariant m.toJson m.toJson :=
  Json.isVariant_refl fun _ _ => rfl

lemma ofJson?_toJson_nearest (hspeed : m.speed.isFinite) (hlimit : m.limit.isFinite) :
    ofJson? .nearest m.toJson = some m :=
  ofJson?_of_isVariant hspeed hlimit (FloatReader.nearest_readsBack hspeed)
    (FloatReader.nearest_readsBack hlimit) m.isVariant_toJson

lemma spellable_toJson (m : RiseMode) : Spellable m.toJson := by
  rw [toJson_eq]
  apply Json.spellable_membersOf
  simp only [fields, List.forall_mem_cons, Option.mem_some_iff, forall_eq']
  exact ⟨.bool _, Json.spellable_ofFloat _, Json.spellable_ofFloat _, List.forall_mem_nil _⟩

end RiseMode

namespace ProximityMode

variable {m : ProximityMode}

def fields (m : ProximityMode) : List (String × Option Json) :=
  [("enabled", some (.bool m.enabled)), ("step", some (.ofInt m.step.toInt)),
   ("delay_ticks", some (.ofInt m.delayTicks.toInt))]

lemma toJson_eq (m : ProximityMode) : m.toJson = .object (Json.membersOf m.fields) := rfl

lemma keys_nodup : ["enabled", "step", "delay_ticks"].Nodup := by decide

def IsVariant : Json → Json → Prop :=
  Json.IsVariant IsReadable ["enabled", "step", "delay_ticks"] (Json.membersOf (fields {}))
    fun _ => Eq

lemma ofJson?_of_isVariant (h : IsVariant m.toJson j) : ofJson? j = some m := by
  obtain ⟨fields', hfields, hvaried⟩ := Json.fields?_of_isVariant m.fields keys_nodup h
  obtain _ | ⟨henabled, _ | ⟨hstep, _ | ⟨hdelay, ⟨⟩⟩⟩⟩ := hvaried
  change j.fields? ["enabled", "step", "delay_ticks"] = _ at hfields
  have henabled := Json.orDefault_bool? (b := false) henabled
  have hstep := Json.orDefault_int64? (m := 5) hstep
  have hdelay := Json.orDefault_int64? (m := 5) hdelay
  rw [ofJson?, hfields]
  simp only [henabled, hstep, hdelay, bind, Option.bind]

lemma isVariant_toJson (m : ProximityMode) : IsVariant m.toJson m.toJson :=
  Json.isVariant_refl fun _ _ => rfl

lemma spellable_toJson (m : ProximityMode) : Spellable m.toJson := by
  rw [toJson_eq]
  apply Json.spellable_membersOf
  simp only [fields, List.forall_mem_cons, Option.mem_some_iff, forall_eq']
  exact ⟨.bool _, Json.spellable_ofInt _, Json.spellable_ofInt _, List.forall_mem_nil _⟩

end ProximityMode

/-! ### All modes -/

namespace Modes

/-- Every float of the modes has a property. -/
structure AllFloats (p : Float → Prop) (m : Modes) : Prop where
  rotateSpeed : p m.rotate.speed
  orbitRadius : p m.orbit.radius
  orbitSpeed : p m.orbit.speed
  riseSpeed : p m.rise.speed
  riseLimit : p m.rise.limit

instance [DecidablePred p] (m : Modes) : Decidable (m.AllFloats p) :=
  decidable_of_iff (p m.rotate.speed ∧ p m.orbit.radius ∧ p m.orbit.speed ∧ p m.rise.speed ∧
      p m.rise.limit)
    ⟨fun ⟨hrotate, hradius, horbit, hrise, hlimit⟩ => ⟨hrotate, hradius, horbit, hrise, hlimit⟩,
      fun h => ⟨h.rotateSpeed, h.orbitRadius, h.orbitSpeed, h.riseSpeed, h.riseLimit⟩⟩

/-- Modes whose floats are finite. -/
abbrev IsFinite : Modes → Prop :=
  AllFloats fun x => x.isFinite

/-- Modes whose floats are read back. -/
abbrev IsReadBack (reader : FloatReader) : Modes → Prop :=
  AllFloats reader.ReadsBack

variable {m : Modes}

/-- The fields of the modes. -/
def fields (m : Modes) : List (String × Option Json) :=
  [("rotate", some m.rotate.toJson), ("local_rotate", some m.orbit.toJson),
   ("rise", some m.rise.toJson), ("proximity", some m.proximity.toJson),
   ("persistent", some (.bool m.persistent)), ("rainbow", some (.bool m.rainbow)),
   ("performance", some (.bool m.performance))]

lemma toJson_eq (m : Modes) : m.toJson = .object (Json.membersOf m.fields) := rfl

lemma keys_nodup : keys.Nodup := by decide

/-- What a field may be written as. -/
def FieldVaries : String → Json → Json → Prop
  | "rotate" => RotateMode.IsVariant
  | "local_rotate" => OrbitMode.IsVariant
  | "rise" => RiseMode.IsVariant
  | "proximity" => ProximityMode.IsVariant
  | _ => Eq

/-- The modes, written in another way: each of them may be, or may be left out. -/
def IsVariant : Json → Json → Prop :=
  Json.IsVariant IsReadable keys (Json.membersOf (fields {})) FieldVaries

lemma isVariant_toJson (m : Modes) : IsVariant m.toJson m.toJson := by
  apply Json.isVariant_refl
  simp only [List.forall_mem_cons]
  exact ⟨m.rotate.isVariant_toJson, m.orbit.isVariant_toJson, m.rise.isVariant_toJson,
    m.proximity.isVariant_toJson, rfl, rfl, rfl, List.forall_mem_nil _⟩

/-- However the modes are written, they are read. -/
lemma ofJson?_of_isVariant (hm : m.IsFinite) (hread : m.IsReadBack reader)
    (h : IsVariant m.toJson j) : ofJson? reader j = some m := by
  obtain ⟨fields', hfields, hvaried⟩ := Json.fields?_of_isVariant m.fields keys_nodup h
  obtain _ | ⟨hrotate, _ | ⟨horbit, _ | ⟨hrise, _ | ⟨hproximity, _ | ⟨hpersistent,
    _ | ⟨hrainbow, _ | ⟨hperformance, ⟨⟩⟩⟩⟩⟩⟩⟩⟩ := hvaried
  change j.fields? keys = _ at hfields
  have hrotate := Json.orDefault_record hrotate
    (fun _ => RotateMode.ofJson?_of_isVariant hm.rotateSpeed hread.rotateSpeed)
    (RotateMode.ofJson?_toJson_nearest hm.rotateSpeed)
    (RotateMode.ofJson?_toJson_nearest (m := {}) (by decide))
  have horbit := Json.orDefault_record horbit
    (fun _ => OrbitMode.ofJson?_of_isVariant hm.orbitRadius hm.orbitSpeed hread.orbitRadius
      hread.orbitSpeed)
    (OrbitMode.ofJson?_toJson_nearest hm.orbitRadius hm.orbitSpeed)
    (OrbitMode.ofJson?_toJson_nearest (m := {}) (by decide) (by decide))
  have hrise := Json.orDefault_record hrise
    (fun _ => RiseMode.ofJson?_of_isVariant hm.riseSpeed hm.riseLimit hread.riseSpeed
      hread.riseLimit)
    (RiseMode.ofJson?_toJson_nearest hm.riseSpeed hm.riseLimit)
    (RiseMode.ofJson?_toJson_nearest (m := {}) (by decide) (by decide))
  have hproximity := Json.orDefault_record hproximity
    (fun _ => ProximityMode.ofJson?_of_isVariant)
    (ProximityMode.ofJson?_of_isVariant m.proximity.isVariant_toJson)
    (ProximityMode.ofJson?_of_isVariant (ProximityMode.isVariant_toJson {}))
  have hpersistent := Json.orDefault_bool? (b := false) hpersistent
  have hrainbow := Json.orDefault_bool? (b := false) hrainbow
  have hperformance := Json.orDefault_bool? (b := false) hperformance
  rw [ofJson?, hfields]
  simp only [hrotate, horbit, hrise, hproximity, hpersistent, hrainbow, hperformance, bind,
    Option.bind]

lemma spellable_toJson (m : Modes) : Spellable m.toJson := by
  rw [toJson_eq]
  apply Json.spellable_membersOf
  simp only [fields, List.forall_mem_cons, Option.mem_some_iff, forall_eq']
  exact ⟨m.rotate.spellable_toJson, m.orbit.spellable_toJson, m.rise.spellable_toJson,
    m.proximity.spellable_toJson, .bool _, .bool _, .bool _, List.forall_mem_nil _⟩

lemma isFinite_default : IsFinite {} := by
  decide

lemma isReadBack_nearest (hm : m.IsFinite) : m.IsReadBack .nearest :=
  ⟨FloatReader.nearest_readsBack hm.rotateSpeed, FloatReader.nearest_readsBack hm.orbitRadius,
    FloatReader.nearest_readsBack hm.orbitSpeed, FloatReader.nearest_readsBack hm.riseSpeed,
    FloatReader.nearest_readsBack hm.riseLimit⟩

lemma ofJson?_toJson_nearest (hm : m.IsFinite) : ofJson? .nearest m.toJson = some m :=
  ofJson?_of_isVariant hm (isReadBack_nearest hm) m.isVariant_toJson

end Modes

/-! ### Options -/

lemma EffectKind.ofJson?_word (k : EffectKind) : ofJson? (.string k.word) = some k := by
  cases k <;> rfl

namespace Options

/-- Every float of the options has a property. -/
structure AllFloats (p : Float → Prop) (o : Options) : Prop where
  globalYOffset : p o.globalYOffset
  modes : o.modes.AllFloats p

instance [DecidablePred p] (o : Options) : Decidable (o.AllFloats p) :=
  decidable_of_iff (p o.globalYOffset ∧ o.modes.AllFloats p)
    ⟨fun ⟨hoffset, hmodes⟩ => ⟨hoffset, hmodes⟩, fun h => ⟨h.globalYOffset, h.modes⟩⟩

/-- Options whose floats are finite. -/
abbrev IsFinite : Options → Prop :=
  AllFloats fun x => x.isFinite

/-- Options whose floats are read back. -/
abbrev IsReadBack (reader : FloatReader) : Options → Prop :=
  AllFloats reader.ReadsBack

variable {o : Options} {path text : String} {t t' : FileTree}

/-- The fields of the options. -/
def fields (o : Options) : List (String × Option Json) :=
  [("skill_name", some (.string o.skillName)), ("effect_kind", some (.string o.effectKind.word)),
   ("global_y_offset", some (.ofFloat o.globalYOffset)), ("modes", some o.modes.toJson)]

lemma toJson_eq (o : Options) : o.toJson = .object (Json.membersOf o.fields) := rfl

lemma keys_nodup : keys.Nodup := by decide

/-- The tree of options, written in another way: the modes in it may be, or may be left out. -/
def IsVariant : Json → Json → Prop :=
  Json.IsVariant IsReadable keys (Json.membersOf (fields {})) fun name =>
    if name = "modes" then Modes.IsVariant else Eq

lemma isVariant_toJson (o : Options) : IsVariant o.toJson o.toJson := by
  apply Json.isVariant_refl
  simp only [List.forall_mem_cons]
  exact ⟨rfl, rfl, rfl, o.modes.isVariant_toJson, List.forall_mem_nil _⟩

/-- However options are written, they are read. -/
lemma ofJson?_of_isVariant (ho : o.IsFinite) (hread : o.IsReadBack reader)
    (h : IsVariant o.toJson j) : ofJson? reader j = some o := by
  obtain ⟨fields', hfields, hvaried⟩ := Json.fields?_of_isVariant o.fields keys_nodup h
  obtain _ | ⟨hname, _ | ⟨hkind, _ | ⟨hoffset, _ | ⟨hmodes, ⟨⟩⟩⟩⟩⟩ := hvaried
  change j.fields? keys = _ at hfields
  have hname := Json.orDefault_string? (s := "MySkill") hname
  have hkind : Json.orDefault .particles EffectKind.ofJson? _ = some o.effectKind :=
    Json.orDefault_of_varied_eq hkind (EffectKind.ofJson?_word o.effectKind) (by rintro j ⟨⟩; rfl)
  have hoffset := Json.orDefault_float? (y := 0.0) (by decide) ho.globalYOffset hread.globalYOffset
    hoffset
  have hmodes := Json.orDefault_record hmodes
    (fun _ => Modes.ofJson?_of_isVariant ho.modes hread.modes)
    (Modes.ofJson?_toJson_nearest ho.modes) (Modes.ofJson?_toJson_nearest Modes.isFinite_default)
  rw [ofJson?, hfields]
  simp only [hname, hkind, hoffset, hmodes, bind, Option.bind]

lemma spellable_toJson (o : Options) : Spellable o.toJson := by
  rw [toJson_eq]
  apply Json.spellable_membersOf
  simp only [fields, List.forall_mem_cons, Option.mem_some_iff, forall_eq']
  exact ⟨.string _, .string _, Json.spellable_ofFloat _, o.modes.spellable_toJson,
    List.forall_mem_nil _⟩

lemma ofText_of_isTextOf (ho : o.IsFinite) (hread : o.IsReadBack reader)
    (h : IsVariant o.toJson j) (htext : Json.IsTextOf text j) : ofText reader text = .ok o := by
  have hsource : Json.ofSource? (text.toList.map some) = some j := Json.ofText?_of_isTextOf htext
  rw [ofText, ofSource, hsource, Option.bind_some, ofJson?_of_isVariant ho hread h]

/-- What is loaded from a file that can be read. -/
lemma load_of_readText (h : t.readText path = .ok text) :
    load reader path t = (ofText reader text, t) := by
  have hread := FileTree.read_of_readText h
  rw [load, FileAction.bind_of_eq_ok (requireFile_of_exists (FileTree.exists?_of_read hread))]
  simp only [FileAction.ask, hread, ofText, Content.chars]

/-- Options whose floats are finite and read back are read from every text of them, in whatever way
they are written, and loaded from every file with such a text: from the one that they were saved to,
too. -/
theorem load_of_isVariant (ho : o.IsFinite) (hread : o.IsReadBack reader) :
    (∀ j text, IsVariant o.toJson j → Json.IsTextOf text j →
      ofText reader text = .ok o ∧
        ∀ path t, t.readText path = .ok text → load reader path t = (.ok o, t)) ∧
    (IsVariant o.toJson o.toJson ∧ ofText reader o.text = .ok o ∧
      ofText reader o.toJson.compact = .ok o) ∧
    ∀ path t t', o.save path t = (.ok (), t') → load reader path t' = (.ok o, t') := by
  have hsame {text : String} (htext : Json.IsTextOf text o.toJson) : ofText reader text = .ok o :=
    ofText_of_isTextOf ho hread o.isVariant_toJson htext
  have hindented : ofText reader o.text = .ok o :=
    hsame (Json.isTextOf_print Json.Layout.indented_setsApart o.spellable_toJson)
  have hcompact : ofText reader o.toJson.compact = .ok o :=
    hsame (Json.isTextOf_print Json.Layout.compact_setsApart o.spellable_toJson)
  refine ⟨?_, ⟨o.isVariant_toJson, hindented, hcompact⟩, ?_⟩
  · intro j text hvariant htext
    have hvaried := ofText_of_isTextOf ho hread hvariant htext
    refine ⟨hvaried, fun path t hfile => ?_⟩
    rw [load_of_readText hfile, hvaried]
  · intro path t t' hsave
    rw [load_of_readText (readText_of_save hsave), hindented]

/-- Options with quotes and control characters in the name of the skill, a negative zero and the
least integer; most of their modes are the default ones. -/
def unusual : Options where
  skillName := "say \"hi\" \\ \n\t\x07\x1f\x7f é 界 😀"
  effectKind := .clouds
  globalYOffset := -0.0
  modes := {
    rise := { enabled := true, speed := Float.ofBits 1 }
    proximity := { step := Int64.minValue }
    rainbow := true }

/-- The rise without its limit, and a value that nothing reads. -/
def sparseRise : Json :=
  .object [("speed", .ofFloat (Float.ofBits 1)), ("enabled", .bool true), ("step", .null)]

def sparseProximity : Json :=
  .object [("step", .ofInt Int64.minValue.toInt)]

/-- The modes without those that are the default ones. -/
def sparseModes : Json :=
  .object [("rainbow", .bool true), ("rise", sparseRise), ("proximity", sparseProximity)]

def sparseTree : Json :=
  .object [("skill_name", .string unusual.skillName), ("effect_kind", .string "clouds"),
    ("global_y_offset", .ofFloat (-0.0)), ("modes", sparseModes)]

lemma unusual_isFinite : unusual.IsFinite := by
  decide

lemma unusual_isReadBack : unusual.IsReadBack .fast := by
  decide +kernel

lemma isVariant_sparseRise : RiseMode.IsVariant unusual.modes.rise.toJson sparseRise := by
  refine Json.isVariant_object _ [("step", .null)]
    (List.filter_append_perm (fun m => m.1 ∈ ["enabled", "speed"]) _).symm ?_
    (List.forall₂_same.mpr fun m _ => ⟨rfl, rfl⟩) ?_ ?_
  · intro m hm
    fin_cases hm
    rfl
  · exact List.forall_mem_singleton.mpr ⟨rfl, by decide⟩
  · exact .swap _ _ _

lemma isVariant_sparseProximity :
    ProximityMode.IsVariant unusual.modes.proximity.toJson sparseProximity := by
  refine Json.isVariant_object _ []
    (List.filter_append_perm (fun m => m.1 ∈ ["step"]) _).symm ?_
    (List.forall₂_same.mpr fun m _ => ⟨rfl, rfl⟩) (List.forall_mem_nil _) (.refl _)
  intro m hm
  fin_cases hm <;> rfl

lemma isVariant_sparseModes : Modes.IsVariant unusual.modes.toJson sparseModes := by
  refine Json.isVariant_object
    [("rise", sparseRise), ("proximity", sparseProximity), ("rainbow", .bool true)] []
    (List.filter_append_perm (fun m => m.1 ∈ ["rise", "proximity", "rainbow"]) _).symm ?_
    (.cons ⟨rfl, isVariant_sparseRise⟩ (.cons ⟨rfl, isVariant_sparseProximity⟩
      (.cons ⟨rfl, rfl⟩ .nil))) (List.forall_mem_nil _) ?_
  · intro m hm
    fin_cases hm <;> rfl
  · exact (List.perm_append_singleton _ [_, _]).symm

lemma isVariant_sparseTree : IsVariant unusual.toJson sparseTree := by
  refine Json.isVariant_object [_, _, _, ("modes", sparseModes)] []
    (.of_eq (List.append_nil _).symm) (List.forall_mem_nil _) ?_ (List.forall_mem_nil _) (.refl _)
  exact .cons ⟨rfl, rfl⟩ (.cons ⟨rfl, rfl⟩ (.cons ⟨rfl, rfl⟩
    (.cons ⟨rfl, isVariant_sparseModes⟩ .nil)))

lemma spellable_sparseTree : Spellable sparseTree := by
  have hrise : Spellable sparseRise := by
    apply Spellable.object
    simp only [List.forall_mem_cons]
    exact ⟨Json.spellable_ofFloat _, .bool _, .null, List.forall_mem_nil _⟩
  have hproximity : Spellable sparseProximity :=
    .object (List.forall_mem_singleton.mpr (Json.spellable_ofInt _))
  have hmodes : Spellable sparseModes := by
    apply Spellable.object
    simp only [List.forall_mem_cons]
    exact ⟨.bool _, hrise, hproximity, List.forall_mem_nil _⟩
  apply Spellable.object
  simp only [List.forall_mem_cons]
  exact ⟨.string _, .string _, Json.spellable_ofFloat _, hmodes, List.forall_mem_nil _⟩

/-- The file that the options are saved to, in a directory that is made for it. -/
def savedUnusual : FileTree :=
  (FileTree.put {} ["set"] .directory).put ["set", "o.json"] (.file (.text unusual.text))

lemma save_unusual : unusual.save "set/o.json" {} = (.ok (), savedUnusual) := by
  rfl

theorem load_of_isVariant_unusual : unusual.IsFinite ∧ unusual.IsReadBack .fast ∧
    (IsVariant unusual.toJson sparseTree ∧ ofText .fast sparseTree.indented = .ok unusual) ∧
    ofText .fast unusual.text = .ok unusual ∧
    unusual.save "set/o.json" {} = (.ok (), savedUnusual) ∧
    load .fast "set/o.json" savedUnusual = (.ok unusual, savedUnusual) := by
  obtain ⟨hvaried, ⟨-, htext, -⟩, hload⟩ := load_of_isVariant unusual_isFinite unusual_isReadBack
  have hsparse := hvaried _ _ isVariant_sparseTree
    (Json.isTextOf_print Json.Layout.indented_setsApart spellable_sparseTree)
  exact ⟨unusual_isFinite, unusual_isReadBack, ⟨isVariant_sparseTree, hsparse.1⟩, htext,
    save_unusual, hload _ _ _ save_unusual⟩

end Options

end ParticleScene
