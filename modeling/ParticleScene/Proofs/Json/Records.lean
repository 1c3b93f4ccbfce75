import Mathlib.Data.List.Forall2
import Mathlib.Data.List.Nodup
import Mathlib.Tactic.Lemma
import ParticleScene.Json.Reader
import ParticleScene.Json.Record

/-!
# Records read back

An object that holds the fields of a record under different names, some of them left out, is read
as these fields.
-/

namespace ParticleScene.Json

/-! ### Integers -/

lemma int?_ofInt (z : Int) : (Literal.ofInt z).int? = some z := by
  have hzero : (z < 0 && z.natAbs = 0) = false := by
    rw [Bool.and_eq_false_iff, decide_eq_false_iff_not, decide_eq_false_iff_not]
    omega
  rw [Literal.int?, Literal.ofInt, Bool.not_true, Bool.false_or, hzero,
    if_neg Bool.false_ne_true]
  by_cases hz : z < 0
  · rw [if_pos (decide_eq_true hz), Int.ofNat_natAbs_of_nonpos (Int.le_of_lt hz), Int.neg_neg]
  · rw [if_neg (by simpa using hz), Int.natAbs_of_nonneg (Int.not_lt.mp hz)]

lemma int64?_ofInt (z : Int64) : int64? (Json.ofInt z.toInt) = some z := by
  have hrange : (Int64.minValue.toInt ≤ z.toInt && z.toInt ≤ Int64.maxValue.toInt) = true := by
    rw [Bool.and_eq_true, decide_eq_true_eq, decide_eq_true_eq]
    exact ⟨Int64.minValue_le_toInt z, z.toInt_le⟩
  change ((Literal.ofInt z.toInt).int?.filter fun v =>
    Int64.minValue.toInt ≤ v && v ≤ Int64.maxValue.toInt).map Int64.ofInt = some z
  rw [int?_ofInt, Option.filter_some, if_pos hrange, Option.map_some, Int64.ofInt_toInt]

/-! ### Lists -/

lemma listOf?_of_forall₂ {α : Type} {read : Json → Option α} {xs : List α} {items : List Json}
    (h : List.Forall₂ (fun x j => read j = some x) xs items) :
    listOf? read (.array items) = some xs := by
  change items.mapM read = some xs
  induction h with
  | nil => rfl
  | cons hx _ ih =>
    rw [List.mapM_cons, hx, ih]
    rfl

lemma listOf?_array {α : Type} {read : Json → Option α} {write : α → Json} {xs : List α}
    (h : ∀ x ∈ xs, read (write x) = some x) : listOf? read (.array (xs.map write)) = some xs :=
  listOf?_of_forall₂ (List.forall₂_map_right_iff.mpr (List.forall₂_same.mpr h))

/-- An array is not read when one of its items is not. -/
lemma listOf?_of_mem {α : Type} {read : Json → Option α} {items : List Json} {j : Json}
    (hj : j ∈ items) (hnone : read j = none) : listOf? read (.array items) = none := by
  change items.mapM read = none
  induction items with
  | nil => cases hj
  | cons item items ih =>
    rw [List.mapM_cons]
    obtain rfl | hj := List.mem_cons.mp hj
    · rw [hnone]
      rfl
    · rw [ih hj]
      cases read item <;> rfl

lemma forall₂_of_mapM {α β : Type} {read : α → Option β} {xs : List α} {ys : List β}
    (h : xs.mapM read = some ys) : List.Forall₂ (fun x y => read x = some y) xs ys := by
  induction xs generalizing ys with
  | nil =>
    cases h
    exact .nil
  | cons x xs ih =>
    rw [List.mapM_cons] at h
    obtain ⟨y, hy, h⟩ := Option.bind_eq_some_iff.mp h
    obtain ⟨ys, hys, h⟩ := Option.bind_eq_some_iff.mp h
    cases h
    exact .cons hy (ih hys)

/-- A relation between items may be replaced where it relates items of the two lists. -/
lemma forall₂_imp_of_mem {α β : Type} {R S : α → β → Prop} {xs : List α} {ys : List β}
    (h : List.Forall₂ R xs ys) (himp : ∀ x ∈ xs, ∀ y ∈ ys, R x y → S x y) :
    List.Forall₂ S xs ys := by
  induction h with
  | nil => exact .nil
  | cons hxy _ ih =>
    refine .cons (himp _ List.mem_cons_self _ List.mem_cons_self hxy) (ih fun x hx y hy => ?_)
    exact himp x (List.mem_cons_of_mem _ hx) y (List.mem_cons_of_mem _ hy)

/-- What every item that is read satisfies, a list that is read satisfies throughout. -/
lemma forall_of_listOf? {α : Type} {read : Json → Option α} {p : α → Prop} {j : Json} {xs : List α}
    (hread : ∀ j x, read j = some x → p x) (h : listOf? read j = some xs) : ∀ x ∈ xs, p x := by
  obtain ⟨items, -, hmap⟩ := Option.bind_eq_some_iff.mp h
  have hitems := forall₂_of_mapM hmap
  clear h hmap
  induction hitems with
  | nil => exact List.forall_mem_nil p
  | cons hx _ ih => exact List.forall_mem_cons.mpr ⟨hread _ _ hx, ih⟩

/-- What every item satisfies that can be read once it is written, a list that can be read once it
is written satisfies throughout. -/
lemma forall_of_listOf?_array {α : Type} {read : Json → Option α} {write : α → Json}
    {p : α → Prop} {xs ys : List α} (hread : ∀ x y, read (write x) = some y → p x)
    (h : listOf? read (.array (xs.map write)) = some ys) : ∀ x ∈ xs, p x := by
  change (xs.map write).mapM read = some ys at h
  have hitems := List.forall₂_map_left_iff.mp (forall₂_of_mapM h)
  clear h
  induction hitems with
  | nil => exact List.forall_mem_nil p
  | cons hx _ ih => exact List.forall_mem_cons.mpr ⟨hread _ _ hx, ih⟩

/-! ### Written keys -/

/-- A member whose key spells characters, as it is written. -/
def asWritten (m : String × Json) : Option String × Json :=
  (some m.1, m.2)

lemma asWritten_injective : asWritten.Injective := by
  rintro ⟨name, j⟩ ⟨name', j'⟩ ⟨⟩
  rfl

/-- Members are an object if each of their keys spells characters. -/
lemma ofMembers_eq_object {written : List (Option String × Json)}
    {members : List (String × Json)} :
    ofMembers written = .object members ↔ written = members.map asWritten := by
  have hspelled : ofMembers written = .object members ↔
      (written.mapM fun m => m.1.map fun key => (key, m.2)) = some members := by
    rw [ofMembers]
    cases written.mapM fun m => m.1.map fun key => (key, m.2) with
    | none => exact iff_of_false (fun h => nomatch h) (fun h => nomatch h)
    | some members' => rw [Option.some.injEq, object.injEq]
  rw [hspelled]
  constructor
  · intro h
    have hmembers := forall₂_of_mapM h
    clear h hspelled
    induction hmembers with
    | nil => rfl
    | cons hm _ ih =>
      obtain ⟨key, hkey, rfl⟩ := Option.map_eq_some_iff.mp hm
      rw [List.map_cons, ← ih, asWritten, ← hkey]
  · rintro rfl
    clear hspelled
    induction members with
    | nil => rfl
    | cons m members ih =>
      rw [List.map_cons, List.mapM_cons, ih]
      rfl

/-- Members whose keys spell characters are written so. -/
lemma exists_asWritten {written : List (Option String × Json)} (h : ∀ m ∈ written, m.1.isSome) :
    ∃ members : List (String × Json), written = members.map asWritten := by
  induction written with
  | nil => exact ⟨[], rfl⟩
  | cons m written ih =>
    obtain ⟨hm, hrest⟩ := List.forall_mem_cons.mp h
    obtain ⟨name, hname⟩ := Option.isSome_iff_exists.mp hm
    obtain ⟨members, rfl⟩ := ih hrest
    exact ⟨(name, m.2) :: members, by rw [List.map_cons, asWritten, ← hname]⟩

lemma mem_of_asWritten {members : List (String × Json)} {name : String} {j : Json}
    (h : (some name, j) ∈ members.map asWritten) : (name, j) ∈ members :=
  (List.mem_map_of_injective (a := (name, j)) asWritten_injective).mp h

lemma isSome_of_mem_asWritten {members : List (String × Json)} :
    ∀ m ∈ members.map asWritten, m.1.isSome := by
  rintro m hm
  obtain ⟨m', -, rfl⟩ := List.mem_map.mp hm
  rfl

/-- Members that are read have keys that spell characters. -/
lemma exists_asWritten_of_read {α : Type} (read : Json → Option α)
    {written : List (Option String × Json)} {x : α} (hgarbled : read .garbled = none)
    (h : read (ofMembers written) = some x) :
    ∃ members, written = members.map asWritten ∧ read (.object members) = some x := by
  generalize hj : ofMembers written = j at h
  unfold ofMembers at hj
  split at hj
  case h_1 members hmembers =>
    subst hj
    refine ⟨members, ofMembers_eq_object.mp ?_, h⟩
    rw [ofMembers, hmembers]
  case h_2 =>
    rw [← hj, hgarbled] at h
    cases h

/-! ### Fields -/

/-- The members of an object that holds fields under their names; a missing field is left out. -/
def membersOf (fields : List (String × Option Json)) : List (String × Json) :=
  fields.filterMap fun (name, field) => field.map (name, ·)

variable {fields : List (String × Option Json)} {name : String} {field : Option Json}

lemma membersOf_cons (name : String) (field : Option Json) (fields : List (String × Option Json)) :
    membersOf ((name, field) :: fields) = (field.map (name, ·)).toList ++ membersOf fields := by
  cases field with
  | none => rfl
  | some j => rfl

lemma filter_eq_nil_of_ne {members : List (String × Json)} (h : ∀ m ∈ members, m.1 ≠ name) :
    members.filter (·.1 = name) = [] := by
  rw [List.filter_eq_nil_iff]
  exact fun m hm heq => h m hm (of_decide_eq_true heq)

lemma filter_membersOf_of_not_mem (hname : name ∉ fields.map Prod.fst) :
    (membersOf fields).filter (·.1 = name) = [] := by
  apply filter_eq_nil_of_ne
  rintro m hm rfl
  obtain ⟨⟨name', field⟩, hmem, hfield⟩ := List.mem_filterMap.mp hm
  obtain ⟨j, -, rfl⟩ := Option.map_eq_some_iff.mp hfield
  exact hname (List.mem_map.mpr ⟨(name', field), hmem, rfl⟩)

/-- Under a name stands its field, if there is one, and nothing else. -/
lemma filter_membersOf (hnames : (fields.map Prod.fst).Nodup) (hmem : (name, field) ∈ fields) :
    (membersOf fields).filter (·.1 = name) = (field.map (name, ·)).toList := by
  induction fields with
  | nil => cases hmem
  | cons head fields ih =>
    obtain ⟨name', field'⟩ := head
    rw [List.map_cons, List.nodup_cons] at hnames
    rw [membersOf_cons, List.filter_append]
    obtain heq | hmem := List.mem_cons.mp hmem
    · cases heq
      rw [filter_membersOf_of_not_mem hnames.1, List.append_nil]
      cases field with
      | none => rfl
      | some j => exact List.filter_cons_of_pos (decide_eq_true rfl)
    · have hne : name' ≠ name := by
        rintro rfl
        exact hnames.1 (List.mem_map.mpr ⟨_, hmem, rfl⟩)
      rw [ih hnames.2 hmem]
      cases field' with
      | none => rfl
      | some j => exact congrArg (· ++ _) (List.filter_cons_of_neg (by simpa using hne))

lemma member?_membersOf (hnames : (fields.map Prod.fst).Nodup) (hmem : (name, field) ∈ fields) :
    member? (membersOf fields) name = some field := by
  rw [member?, filter_membersOf hnames hmem]
  cases field with
  | none => rfl
  | some j => rfl

/-- A key that stands in an object is found with its value, if it is found. -/
lemma eq_some_of_member? {members : List (String × Json)} {v : Json} (hmem : (name, v) ∈ members)
    (h : member? members name = some field) : field = some v := by
  have hmem : (name, v) ∈ members.filter (·.1 = name) :=
    List.mem_filter.mpr ⟨hmem, decide_eq_true rfl⟩
  unfold member? at h
  split at h
  · rename_i hfilter
    rw [hfilter] at hmem
    cases hmem
  · rename_i hfilter
    rw [hfilter] at hmem
    cases List.mem_singleton.mp hmem
    cases h
    rfl
  · cases h

lemma eq_none_of_member? {members : List (String × Json)} (hmem : ∀ m ∈ members, m.1 ≠ name)
    (h : member? members name = some field) : field = none := by
  rw [member?, filter_eq_nil_of_ne hmem] at h
  cases h
  rfl

/-- Fields under different names are found. -/
lemma fields?_membersOf (fields : List (String × Option Json))
    (hnames : (fields.map Prod.fst).Nodup) :
    fields? (fields.map Prod.fst) (.object (membersOf fields)) = some (fields.map Prod.snd) := by
  have hfound : ∀ p ∈ fields, member? (membersOf fields) p.1 = some p.2 :=
    fun p hp => member?_membersOf hnames hp
  rw [fields?]
  generalize membersOf fields = members at hfound
  clear hnames
  induction fields with
  | nil => rfl
  | cons p fields ih =>
    rw [List.map_cons, List.mapM_cons, hfound p List.mem_cons_self,
      ih fun p hp => hfound p (List.mem_cons_of_mem _ hp)]
    rfl

end ParticleScene.Json
