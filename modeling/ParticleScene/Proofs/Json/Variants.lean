import Mathlib.Data.List.Perm.Basic
import ParticleScene.Proofs.Json.Records

/-!
# Records written in another way

An object may leave out members that have the default of their key, hold the others in any order,
and hold members with keys that nobody asks for. Whoever reads the fields of a record from it finds
each of them, or nothing in the place of a default. Keys are read before anyone asks for them, so an
added key that spells no characters keeps the whole object from being read.
-/

namespace ParticleScene.Json

/-! ### Objects -/

/-- A key that spells characters, as it is written. -/
def IsReadable (key : Option String) : Prop :=
  key.isSome

/-- Any key that can be written. -/
def IsWritten (_key : Option String) : Prop :=
  True

/-- An object written in another way: some members that have the default of their key are dropped,
the values of the others may be written in another way themselves, members are added with keys that
are allowed and not known, and all of them stand in any order. -/
inductive IsVariant (allowed : Option String → Prop) (known : List String)
    (defaults : List (String × Json)) (vary : String → Json → Json → Prop) : Json → Json → Prop
  | intro {written kept kept' dropped : List (String × Json)}
      {others members : List (Option String × Json)}
      (hsplit : written.Perm (kept ++ dropped))
      (hdropped : ∀ m ∈ dropped, defaults.lookup m.1 = some m.2)
      (hkept : List.Forall₂ (fun m m' => m'.1 = m.1 ∧ vary m.1 m.2 m'.2) kept kept')
      (hothers : ∀ m ∈ others, allowed m.1 ∧ ∀ name ∈ m.1, name ∉ known)
      (horder : members.Perm (kept'.map asWritten ++ others)) :
      IsVariant allowed known defaults vary (.object written) (ofMembers members)

/-- Arrays of the same length with related items. -/
def ItemsVary (vary : Json → Json → Prop) (j j' : Json) : Prop :=
  ∃ items items', j = .array items ∧ j' = .array items' ∧ List.Forall₂ vary items items'

/-- What may stand in the place of a field: its value, written in another way, or nothing if that is
the default. -/
inductive Varied (default? : Option Json) (vary : Json → Json → Prop) :
    Option Json → Option Json → Prop
  | missing : Varied default? vary none none
  | kept {j j' : Json} (h : vary j j') : Varied default? vary (some j) (some j')
  | dropped {j : Json} (h : default? = some j) : Varied default? vary (some j) none

variable {allowed : Option String → Prop} {known : List String}
  {defaults written members : List (String × Json)} {vary vary' : String → Json → Json → Prop}
  {fields : List (String × Option Json)} {name : String} {field field' : Option Json} {j j' : Json}

/-- An object whose added keys spell characters. -/
lemma isVariant_object {kept dropped : List (String × Json)} (kept' others : List (String × Json))
    (hsplit : written.Perm (kept ++ dropped))
    (hdropped : ∀ m ∈ dropped, defaults.lookup m.1 = some m.2)
    (hkept : List.Forall₂ (fun m m' => m'.1 = m.1 ∧ vary m.1 m.2 m'.2) kept kept')
    (hothers : ∀ m ∈ others, allowed (some m.1) ∧ m.1 ∉ known)
    (horder : members.Perm (kept' ++ others)) :
    IsVariant allowed known defaults vary (.object written) (.object members) := by
  rw [← ofMembers_eq_object.mpr (Eq.refl (members.map asWritten))]
  refine @IsVariant.intro _ _ _ _ _ _ _ _ (others.map asWritten) _ hsplit hdropped hkept ?_ ?_
  · intro m hm
    obtain ⟨m', hm', rfl⟩ := List.mem_map.mp hm
    refine ⟨(hothers m' hm').1, ?_⟩
    rintro name ⟨⟩
    exact (hothers m' hm').2
  · rw [← List.map_append]
    exact horder.map asWritten

/-- An object as it was written. -/
lemma isVariant_refl (hvary : ∀ m ∈ members, vary m.1 m.2 m.2) :
    IsVariant allowed known defaults vary (.object members) (.object members) := by
  have hall : members.Perm (members ++ []) := .of_eq (List.append_nil members).symm
  exact isVariant_object members [] hall (List.forall_mem_nil _)
    (List.forall₂_same.mpr fun m hm => ⟨rfl, hvary m hm⟩) (List.forall_mem_nil _) hall

/-- In an object all keys spell characters, the added ones too. -/
lemma exists_of_isVariant_object
    (h : IsVariant allowed known defaults vary (.object written) (.object members)) :
    ∃ kept kept' dropped others : List (String × Json),
      written.Perm (kept ++ dropped) ∧ (∀ m ∈ dropped, defaults.lookup m.1 = some m.2) ∧
      List.Forall₂ (fun m m' => m'.1 = m.1 ∧ vary m.1 m.2 m'.2) kept kept' ∧
      (∀ m ∈ others, m.1 ∉ known) ∧ members.Perm (kept' ++ others) := by
  generalize hmembers : object members = j at h
  obtain @⟨_, kept, kept', dropped, others, _, hsplit, hdropped, hkept, hothers, horder⟩ := h
  rw [ofMembers_eq_object.mp hmembers.symm] at horder
  obtain ⟨others, rfl⟩ := exists_asWritten fun m hm =>
    isSome_of_mem_asWritten m (horder.symm.subset (List.mem_append_right _ hm))
  rw [← List.map_append, List.map_perm_map_iff asWritten_injective] at horder
  refine ⟨kept, kept', dropped, others, hsplit, hdropped, hkept, fun m hm => ?_, horder⟩
  exact (hothers _ (List.mem_map_of_mem hm)).2 m.1 rfl

/-- If the added keys are to spell characters, an object is written. -/
lemma exists_members_of_isVariant (h : IsVariant IsReadable known defaults vary j j') :
    ∃ members, j' = .object members := by
  obtain @⟨_, _, kept', _, others, members, _, _, _, hothers, horder⟩ := h
  obtain ⟨members, rfl⟩ := exists_asWritten fun m hm =>
    (List.mem_append.mp (horder.subset hm)).elim (isSome_of_mem_asWritten m)
      fun hm => (hothers m hm).1
  exact ⟨members, ofMembers_eq_object.mpr rfl⟩

/-- An object that is read has keys that spell characters, whatever keys may be added. Of the values
in it, too, more may be known once they are read. -/
lemma isVariant_isReadable_of_read {α : Type} {read : Json → Option α} {x : α}
    (hgarbled : read .garbled = none) (h : IsVariant allowed known defaults vary j j')
    (hread : read j' = some x)
    (hvary : ∀ written members, j = .object written → j' = .object members →
      ∀ m ∈ written, ∀ v, (m.1, v) ∈ members → vary m.1 m.2 v → vary' m.1 m.2 v) :
    IsVariant IsReadable known defaults vary' j j' := by
  obtain ⟨written, members, rfl, rfl⟩ :
      ∃ written members, j = .object written ∧ j' = .object members := by
    cases h
    obtain ⟨members, rfl, -⟩ := exists_asWritten_of_read read hgarbled hread
    exact ⟨_, members, rfl, ofMembers_eq_object.mpr rfl⟩
  obtain ⟨kept, kept', dropped, others, hsplit, hdropped, hkept, hothers, horder⟩ :=
    exists_of_isVariant_object h
  refine isVariant_object kept' others hsplit hdropped ?_ (fun m hm => ⟨rfl, hothers m hm⟩) horder
  refine forall₂_imp_of_mem hkept fun m hm m' hm' hvaried => ⟨hvaried.1, ?_⟩
  refine hvary _ _ rfl rfl m (hsplit.symm.subset (List.mem_append_left _ hm)) m'.2 ?_ hvaried.2
  rw [← hvaried.1]
  exact horder.symm.subset (List.mem_append_left _ hm')

/-- Under a known key stands what the field varies to, and nothing else. -/
lemma member?_of_isVariant (hnames : (fields.map Prod.fst).Nodup) (hmem : (name, field) ∈ fields)
    (hname : name ∈ known)
    (h : IsVariant allowed known defaults vary (.object (membersOf fields)) (.object members)) :
    ∃ field', member? members name = some field' ∧
      Varied (defaults.lookup name) (vary name) field field' := by
  obtain ⟨kept, kept', dropped, others, hsplit, hdropped, hkept, hothers, horder⟩ :=
    exists_of_isVariant_object h
  have hwritten := hsplit.filter (·.1 = name)
  rw [filter_membersOf hnames hmem, List.filter_append] at hwritten
  have hfound := horder.filter (·.1 = name)
  have hunknown : others.filter (·.1 = name) = [] :=
    filter_eq_nil_of_ne fun m hm heq => hothers m hm (heq ▸ hname)
  rw [List.filter_append, hunknown, List.append_nil] at hfound
  have hvaried : List.Forall₂ (fun m m' => m'.1 = m.1 ∧ vary m.1 m.2 m'.2)
      (kept.filter (·.1 = name)) (kept'.filter (·.1 = name)) :=
    List.rel_filter (fun m m' hm => by simp [hm.1]) hkept
  cases field with
  | none =>
    have hnil := List.append_eq_nil_iff.mp (List.nil_perm.mp hwritten)
    rw [hnil.1, List.forall₂_nil_left_iff] at hvaried
    rw [hvaried, List.perm_nil] at hfound
    exact ⟨none, by rw [member?, hfound], .missing⟩
  | some v =>
    obtain ⟨hnil, hone⟩ | ⟨hone, -⟩ :=
      List.singleton_eq_append_iff.mp (List.singleton_perm.mp hwritten)
    · have hmem : (name, v) ∈ dropped := List.mem_of_mem_filter (hone ▸ List.mem_singleton_self _)
      rw [hnil, List.forall₂_nil_left_iff] at hvaried
      rw [hvaried, List.perm_nil] at hfound
      exact ⟨none, by rw [member?, hfound], .dropped (hdropped _ hmem)⟩
    · rw [hone, List.forall₂_cons_left_iff] at hvaried
      obtain ⟨⟨name', v'⟩, rest, ⟨rfl, hv⟩, hrest, hkept'⟩ := hvaried
      rw [List.forall₂_nil_left_iff] at hrest
      rw [hkept', hrest, List.perm_singleton] at hfound
      exact ⟨some v', by rw [member?, hfound], .kept hv⟩

/-- The fields of a record are found in every object that it may be written as. -/
lemma fields?_of_isVariant (fields : List (String × Option Json))
    (hnames : (fields.map Prod.fst).Nodup)
    (h : IsVariant IsReadable (fields.map Prod.fst) defaults vary (.object (membersOf fields)) j) :
    ∃ fields', j.fields? (fields.map Prod.fst) = some fields' ∧
      List.Forall₂ (fun p field' => Varied (defaults.lookup p.1) (vary p.1) p.2 field') fields
        fields' := by
  obtain ⟨members, rfl⟩ := exists_members_of_isVariant h
  have hfound : ∀ p ∈ fields, ∃ field', member? members p.1 = some field' ∧
      Varied (defaults.lookup p.1) (vary p.1) p.2 field' :=
    fun p hp => member?_of_isVariant hnames hp (List.mem_map_of_mem hp) h
  rw [fields?]
  clear h hnames
  induction fields with
  | nil => exact ⟨[], rfl, .nil⟩
  | cons p fields ih =>
    obtain ⟨hfirst, hrest⟩ := List.forall_mem_cons.mp hfound
    obtain ⟨field', hfield', hvaried⟩ := hfirst
    obtain ⟨fields', hfields', hall⟩ := ih hrest
    refine ⟨field' :: fields', ?_, .cons hvaried hall⟩
    rw [List.map_cons, List.mapM_cons, hfield', hfields']
    rfl

/-! ### Fields that may be missing -/

section

variable {α : Type} {read : Json → Option α} {x default : α} {default? : Option Json}
  {related : Json → Json → Prop}

/-- A missing field means the default, which is then its value. -/
lemma orDefault_of_varied (h : Varied default? related (some j) field')
    (hread : read j = some x) (hvary : ∀ j', related j j' → read j' = some x)
    (hdefault : ∀ j, default? = some j → read j = some default) :
    orDefault default read field' = some x := by
  cases h with
  | kept h => exact hvary _ h
  | dropped h =>
    rw [orDefault, ← hdefault j h]
    exact hread

lemma orDefault_of_varied_eq (h : Varied default? Eq (some j) field') (hread : read j = some x)
    (hdefault : ∀ j, default? = some j → read j = some default) :
    orDefault default read field' = some x :=
  orDefault_of_varied h hread (fun _ hj => hj ▸ hread) hdefault

/-- A record in a field, which may be written in another way itself. Only a record that is written
has to be read back; that the default is written like no other record is known from any reader. -/
lemma orDefault_record {write : α → Json} {read' : Json → Option α}
    (h : Varied (some (write default)) related (some (write x)) field')
    (hread : ∀ j', related (write x) j' → read j' = some x)
    (hx : read' (write x) = some x) (hdefault : read' (write default) = some default) :
    orDefault default read field' = some x := by
  cases h with
  | kept h => exact hread _ h
  | dropped h =>
    rw [← Option.some.inj h, hdefault] at hx
    exact hx

lemma orDefault_string? {s t : String}
    (h : Varied (some (.string s)) Eq (some (.string t)) field') :
    orDefault s string? field' = some t :=
  orDefault_of_varied_eq h rfl (by rintro j ⟨⟩; rfl)

lemma orDefault_bool? {b c : Bool} (h : Varied (some (.bool b)) Eq (some (.bool c)) field') :
    orDefault b bool? field' = some c :=
  orDefault_of_varied_eq h rfl (by rintro j ⟨⟩; rfl)

lemma orDefault_int64? {m n : Int64}
    (h : Varied (some (.ofInt m.toInt)) Eq (some (.ofInt n.toInt)) field') :
    orDefault m int64? field' = some n :=
  orDefault_of_varied_eq h (int64?_ofInt n) (by rintro j ⟨⟩; exact int64?_ofInt m)

/-- A field without a default stands as it was written. -/
lemma eq_of_varied (hdefault : default? = none) (h : Varied default? Eq field field') :
    field' = field := by
  cases h with
  | missing => rfl
  | kept h => rw [h]
  | dropped h =>
    rw [hdefault] at h
    cases h

end

/-- The items of an array are read when each of them is, in whatever way it is written. -/
lemma listOf?_of_itemsVary {α : Type} {read : Json → Option α} {write : α → Json}
    {vary : Json → Json → Prop} {xs : List α}
    (hread : ∀ x ∈ xs, ∀ j, vary (write x) j → read j = some x)
    (h : ItemsVary vary (.array (xs.map write)) j') : listOf? read j' = some xs := by
  obtain ⟨_, items', ⟨⟩, rfl, hitems⟩ := h
  rw [List.forall₂_map_left_iff] at hitems
  apply listOf?_of_forall₂
  induction hitems with
  | nil => exact .nil
  | cons hx _ ih =>
    obtain ⟨hfirst, hrest⟩ := List.forall_mem_cons.mp hread
    exact .cons (hfirst _ hx) (ih hrest)

/-- Items that are read may be known to vary in fewer ways. -/
lemma itemsVary_of_listOf? {α : Type} {read : Json → Option α} {vary vary' : Json → Json → Prop}
    {xs : List α} (hvary : ∀ j j' x, vary j j' → read j' = some x → vary' j j')
    (h : ItemsVary vary j j') (hread : listOf? read j' = some xs) : ItemsVary vary' j j' := by
  obtain ⟨items, items', rfl, rfl, hitems⟩ := h
  refine ⟨items, items', rfl, rfl, forall₂_imp_of_mem hitems fun item _ item' hmem hitem => ?_⟩
  cases hx : read item' with
  | some x => exact hvary item item' x hitem hx
  | none =>
    rw [listOf?_of_mem hmem hx] at hread
    cases hread

end ParticleScene.Json
