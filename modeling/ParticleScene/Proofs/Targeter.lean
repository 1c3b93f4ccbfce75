import ParticleScene.Proofs.Text.Blank
import ParticleScene.Proofs.Text.Split
import ParticleScene.Targeter

/-!
# The text of a targeter

`IsSpelled` says how a targeter looks that was read from a text: trimmed, a name that is not
read as a block, and keys that stand once and hold no separator. The text of such a targeter is
read back as the targeter, so that reading and writing once more changes nothing.
-/

namespace ParticleScene.Targeter

open Text

/-! ### Parameters -/

/-- Key and value are trimmed, and neither is cut by the separators. -/
structure IsParam (p : String × String) : Prop where
  key_trimmed : IsTrimmed p.1.toList
  value_trimmed : IsTrimmed p.2.toList
  key_equals : '=' ∉ p.1.toList
  key_semicolon : ';' ∉ p.1.toList
  value_semicolon : ';' ∉ p.2.toList

lemma readParam_isParam {part : List Char} (hpart : ';' ∉ part) : IsParam (readParam part) := by
  unfold readParam
  split
  · rename_i key value hcut
    obtain ⟨rfl, hkey⟩ := cutAt?_eq_some_iff.mp hcut
    simp only [List.mem_append, List.mem_cons, not_or] at hpart
    constructor
    · simpa using isTrimmed_trimChars key
    · simpa using isTrimmed_trimChars value
    · simpa using fun h => hkey (trimChars_subset _ h)
    · simpa using fun h => hpart.1 (trimChars_subset _ h)
    · simpa using fun h => hpart.2.2 (trimChars_subset _ h)
  · rename_i hcut
    have hkey := cutAt?_eq_none_iff.mp hcut
    constructor
    · simpa using isTrimmed_trimChars part
    · exact isTrimmed_nil
    · simpa using fun h => hkey (trimChars_subset _ h)
    · simpa using fun h => hpart (trimChars_subset _ h)
    · exact List.not_mem_nil

lemma isParam_of_mem_readParams {body : List Char} {p : String × String}
    (h : p ∈ readParams body) : IsParam p := by
  obtain ⟨part, hpart, rfl⟩ := List.mem_map.mp h
  exact readParam_isParam (not_mem_of_mem_splitOn (List.mem_filter.mp hpart).1)

lemma paramText_toList (p : String × String) :
    (paramText p).toList = p.1.toList ++ '=' :: p.2.toList := by
  simp [paramText]

lemma readParam_paramText {p : String × String} (h : IsParam p) :
    readParam (paramText p).toList = p := by
  have hcut : cutAt? '=' (paramText p).toList = some (p.1.toList, p.2.toList) :=
    cutAt?_eq_some_iff.mpr ⟨paramText_toList p, h.key_equals⟩
  simp [readParam, hcut, h.key_trimmed.trimChars_eq, h.value_trimmed.trimChars_eq]

/-- The block of a list of parameters is read back. -/
lemma readParams_intercalate {ps : List (String × String)} (hne : ps ≠ [])
    (hps : ∀ p ∈ ps, IsParam p) :
    readParams (String.intercalate ";" (ps.map paramText)).toList = ps := by
  have hparts : splitOn ';' (String.intercalate ";" (ps.map paramText)).toList =
      ps.map fun p => (paramText p).toList := by
    rw [String.toList_intercalate, List.map_map]
    refine splitOn_intercalate (by simpa using hne) ?_
    intro part hpart
    obtain ⟨p, hp, rfl⟩ := List.mem_map.mp hpart
    simp [paramText_toList, (hps p hp).key_semicolon, (hps p hp).value_semicolon]
  have hfull : ∀ part ∈ ps.map (fun p => (paramText p).toList), !part.all isBlank := by
    intro part hpart
    obtain ⟨p, hp, rfl⟩ := List.mem_map.mp hpart
    have hequals : isBlank '=' = false := by decide
    simp [paramText_toList, hequals]
  rw [readParams, hparts, List.filter_eq_self.mpr hfull, List.map_map]
  conv_rhs => rw [← List.map_id ps]
  exact List.map_congr_left fun p hp => readParam_paramText (hps p hp)

/-! ### Setting parameters -/

lemma putParam_eq_append {key value : String} {ps : List (String × String)}
    (h : key ∉ ps.map Prod.fst) : putParam key value ps = ps ++ [(key, value)] := by
  induction ps with
  | nil => rfl
  | cons p ps ih =>
    simp only [List.map_cons, List.mem_cons, not_or] at h
    rw [putParam, if_neg (Ne.symm h.1), ih h.2, List.cons_append]

lemma keys_putParam (key value : String) (ps : List (String × String)) :
    (putParam key value ps).map Prod.fst =
      if key ∈ ps.map Prod.fst then ps.map Prod.fst else ps.map Prod.fst ++ [key] := by
  induction ps with
  | nil => rfl
  | cons p ps ih =>
    by_cases hp : p.1 = key
    · simp [putParam, hp]
    · simp only [putParam, if_neg hp, List.map_cons, ih, List.mem_cons, Ne.symm hp, false_or]
      split <;> rfl

lemma mem_of_mem_putParam {key value : String} {p : String × String} {ps : List (String × String)}
    (h : p ∈ putParam key value ps) : p = (key, value) ∨ p ∈ ps := by
  induction ps with
  | nil => exact .inl (List.mem_singleton.mp h)
  | cons q ps ih =>
    by_cases hq : q.1 = key
    · simp only [putParam, hq, ↓reduceIte, List.mem_cons] at h
      rcases h with rfl | h
      · exact .inl rfl
      · exact .inr (.tail _ h)
    · simp only [putParam, if_neg hq, List.mem_cons] at h
      rcases h with rfl | h
      · exact .inr (.head _)
      · exact (ih h).imp_right (.tail _)

/-- Parameters with new keys are set one after the other at the end. -/
lemma foldl_withParam (t : Targeter) (ps : List (String × String))
    (h : ((t.params ++ ps).map Prod.fst).Nodup) :
    ps.foldl (fun t p => t.withParam p.1 p.2) t = { t with params := t.params ++ ps } := by
  induction ps generalizing t with
  | nil => simp
  | cons p ps ih =>
    have hnew : p.1 ∉ t.params.map Prod.fst := by
      simp only [List.map_append, List.map_cons] at h
      intro hmem
      exact (List.nodup_append.mp h).2.2 _ hmem _ (.head _) rfl
    have hput : (t.withParam p.1 p.2).params = t.params ++ [p] := putParam_eq_append hnew
    rw [List.foldl_cons, ih, hput, List.append_assoc]
    · rfl
    · rwa [hput, List.append_assoc]

/-! ### Targeters that were read -/

/-- A targeter as it is read from a text. -/
structure IsSpelled (t : Targeter) : Prop where
  name_trimmed : IsTrimmed t.name.toList
  name_ne_nil : t.name.toList ≠ []
  /-- A bare name is not read as a block. -/
  bare : t.params = [] → splitBlock? t.name.toList = none
  /-- A block opens behind the name. -/
  block : t.params ≠ [] → '\x7b' ∉ t.name.toList
  params : ∀ p ∈ t.params, IsParam p
  nodup : (t.params.map Prod.fst).Nodup

lemma splitBlock?_eq_none {s : List Char} (h : '\x7b' ∉ s) : splitBlock? s = none := by
  simp [splitBlock?, cutAt?_eq_none_iff.mpr h]

lemma splitBlock?_block {name : List Char} (h : '\x7b' ∉ name) (body : List Char) :
    splitBlock? (name ++ '\x7b' :: (body ++ ['\x7d'])) = some (name, body) := by
  have hcut : cutAt? '\x7b' (name ++ '\x7b' :: (body ++ ['\x7d'])) =
      some (name, body ++ ['\x7d']) := cutAt?_eq_some_iff.mpr ⟨rfl, h⟩
  simp [splitBlock?, hcut]

lemma not_mem_of_splitBlock? {s name body : List Char} (h : splitBlock? s = some (name, body)) :
    '\x7b' ∉ name := by
  obtain ⟨⟨before, rest⟩, hcut, hrest⟩ := Option.bind_eq_some_iff.mp h
  simp only [Option.ite_none_right_eq_some, Option.some.injEq, Prod.mk.injEq] at hrest
  obtain ⟨-, rfl, -⟩ := hrest
  exact (cutAt?_eq_some_iff.mp hcut).2

/-- A trimmed text as a name, or the default one. -/
lemma named_name (text : String) :
    (named text).name.toList = defaultName.toList ∨
      trimChars text.toList ≠ [] ∧ (named text).name.toList = trimChars text.toList := by
  by_cases h : trimChars text.toList = []
  · exact .inl (by simp [named, trim, h])
  · exact .inr ⟨h, by simp [named, trim, h]⟩

lemma named_isSpelled {text : String} (h : splitBlock? (trimChars text.toList) = none) :
    (named text).IsSpelled where
  name_trimmed := by
    rcases named_name text with hname | ⟨-, hname⟩
    · rw [hname]
      exact isTrimmed_of_all (by decide)
    · rw [hname]
      exact isTrimmed_trimChars _
  name_ne_nil := by
    rcases named_name text with hname | ⟨hne, hname⟩
    · rw [hname]
      decide
    · rwa [hname]
  bare _ := by
    rcases named_name text with hname | ⟨-, hname⟩
    · rw [hname]
      decide
    · rw [hname]
      exact h
  block h := absurd rfl h
  params p hp := absurd hp List.not_mem_nil
  nodup := List.nodup_nil

lemma withParam_isSpelled {t : Targeter} {p : String × String} (ht : t.IsSpelled)
    (hname : '\x7b' ∉ t.name.toList) (hp : IsParam p) : (t.withParam p.1 p.2).IsSpelled where
  name_trimmed := ht.name_trimmed
  name_ne_nil := ht.name_ne_nil
  bare _ := splitBlock?_eq_none hname
  block _ := hname
  params q hq := by
    rcases mem_of_mem_putParam hq with rfl | hq
    · exact hp
    · exact ht.params q hq
  nodup := by
    rw [withParam, keys_putParam]
    split
    · exact ht.nodup
    · rename_i hnew
      refine List.nodup_append.mpr ⟨ht.nodup, by simp, ?_⟩
      rintro key hkey _ hp rfl
      exact hnew (List.mem_singleton.mp hp ▸ hkey)

lemma foldl_withParam_isSpelled {t : Targeter} {ps : List (String × String)} (ht : t.IsSpelled)
    (hname : '\x7b' ∉ t.name.toList) (hps : ∀ p ∈ ps, IsParam p) :
    (ps.foldl (fun t p => t.withParam p.1 p.2) t).IsSpelled := by
  induction ps generalizing t with
  | nil => exact ht
  | cons p ps ih =>
    have hset := withParam_isSpelled ht hname (hps p (.head _))
    exact ih hset hname fun q hq => hps q (.tail _ hq)

/-- What is read from a text is spelled as targeters that are read are. -/
theorem parse_isSpelled (text : String) : (parse text).IsSpelled := by
  unfold parse
  split
  · exact named_isSpelled ‹_›
  · rename_i name body hblock
    have hopen : '\x7b' ∉ name := not_mem_of_splitBlock? hblock
    have htrim : '\x7b' ∉ trimChars name := fun h => hopen (trimChars_subset _ h)
    refine foldl_withParam_isSpelled (named_isSpelled ?_) ?_ fun _ => isParam_of_mem_readParams
    · rw [String.toList_ofList]
      exact splitBlock?_eq_none htrim
    · rcases named_name (String.ofList name) with hname | ⟨-, hname⟩
      · rw [hname]
        decide
      · rwa [hname, String.toList_ofList]

/-! ### Reading the text back -/

lemma named_eq_self {name : String} (htrim : IsTrimmed name.toList) (hne : name.toList ≠ []) :
    named name = ⟨name, []⟩ := by
  have hname : name ≠ "" := by simpa using hne
  simp [named, trim, htrim.trimChars_eq, hname]

lemma text_toList {t : Targeter} (h : t.params ≠ []) :
    t.text.toList = t.name.toList ++
      '\x7b' :: ((String.intercalate ";" (t.params.map paramText)).toList ++ ['\x7d']) := by
  simp [text, h]

/-- Reading undoes writing. -/
theorem parse_text {t : Targeter} (ht : t.IsSpelled) : parse t.text = t := by
  by_cases hparams : t.params = []
  · have htext : t.text = t.name := by simp [text, hparams]
    rw [htext, parse, ht.name_trimmed.trimChars_eq, ht.bare hparams]
    simp only [named_eq_self ht.name_trimmed ht.name_ne_nil, ← hparams]
  · have htrim : IsTrimmed t.text.toList := by
      obtain ⟨c, name, hname⟩ := List.exists_cons_of_ne_nil ht.name_ne_nil
      constructor
      · have := ht.name_trimmed.head
        simpa [text_toList hparams, hname] using this
      · have hclose : isBlank '\x7d' = false := by decide
        simp [text_toList hparams, List.getLast?_cons, List.getLast?_append, hclose]
    rw [parse, htrim.trimChars_eq, text_toList hparams, splitBlock?_block (ht.block hparams)]
    simp only [String.ofList_toList, named_eq_self ht.name_trimmed ht.name_ne_nil,
      readParams_intercalate hparams ht.params]
    exact foldl_withParam ⟨t.name, []⟩ t.params ht.nodup

/-- Writing and reading once more changes nothing. -/
theorem parse_text_parse (text : String) : parse (parse text).text = parse text :=
  parse_text (parse_isSpelled text)

end ParticleScene.Targeter
