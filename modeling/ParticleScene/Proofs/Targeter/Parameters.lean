import Mathlib.Data.List.Forall2
import Mathlib.Data.List.Induction
import ParticleScene.Document
import ParticleScene.Proofs.Targeter

/-!
# What a text says about a targeter

`Spells` says without an algorithm which parameters stand in a block of text, and `Collects` what
is left of them when a key stands more than once: each key once, in the order in which the keys
first occur, with the value with which it last occurs. What is read from a text is just that, and
it is read again from the text that it is written as.
-/

namespace ParticleScene.Targeter

open Text

/-! ### The parameters in a block -/

/-- A part of a block as a parameter: key and value stand around its first equals sign; without one
all of it is the key. Blanks around either do not count. -/
inductive Spells : List Char → String × String → Prop where
  | pair {key value : List Char} (h : '=' ∉ key) :
      Spells (key ++ '=' :: value)
        (String.ofList (trimChars key), String.ofList (trimChars value))
  | key {key : List Char} (h : '=' ∉ key) : Spells key (String.ofList (trimChars key), "")

/-- A block has the parameters `ps`: its parts between semicolons spell them in a row, but for the
blank parts. -/
def HasParams (body : List Char) (ps : List (String × String)) : Prop :=
  ∃ parts : List (List Char), [';'].intercalate parts = body ∧ (∀ part ∈ parts, ';' ∉ part) ∧
    List.Forall₂ Spells (parts.filter fun part => !part.all isBlank) ps

lemma spells_readParam (part : List Char) : Spells part (readParam part) := by
  unfold readParam
  split
  · rename_i key value hcut
    obtain ⟨rfl, hkey⟩ := cutAt?_eq_some_iff.mp hcut
    exact .pair hkey
  · rename_i hcut
    exact .key (cutAt?_eq_none_iff.mp hcut)

lemma hasParams_readParams (body : List Char) : HasParams body (readParams body) := by
  refine ⟨splitOn ';' body, ?_, fun part => not_mem_of_mem_splitOn, ?_⟩
  · rw [splitOn_eq_listSplitOn]
    exact List.intercalate_splitOn ';'
  · rw [readParams, List.forall₂_map_right_iff]
    exact List.forall₂_same.mpr fun part _ => spells_readParam part

/-! ### Keys that stand more than once -/

/-- The list `params` holds the parameters `ps` with each key once. -/
structure Collects (ps params : List (String × String)) : Prop where
  keys : ∀ key, key ∈ params.map Prod.fst ↔ key ∈ ps.map Prod.fst
  /-- The keys stand in the order in which they first occur. -/
  first : (params.map Prod.fst).Pairwise fun key key' =>
    (ps.map Prod.fst).idxOf key < (ps.map Prod.fst).idxOf key'
  /-- Each has the value with which it last occurs. -/
  last : ∀ p ∈ params, ∃ before after, ps = before ++ p :: after ∧ p.1 ∉ after.map Prod.fst

lemma Collects.nodup {ps params : List (String × String)} (h : Collects ps params) :
    (params.map Prod.fst).Nodup :=
  h.first.imp fun hlt => by
    rintro rfl
    exact Nat.lt_irrefl _ hlt

/-- What was set before keeps its value unless its key is set now. -/
lemma mem_putParam_of_nodup {key value : String} {p : String × String}
    {params : List (String × String)} (hnodup : (params.map Prod.fst).Nodup)
    (h : p ∈ putParam key value params) : p = (key, value) ∨ p ∈ params ∧ p.1 ≠ key := by
  induction params with
  | nil => exact .inl (List.mem_singleton.mp h)
  | cons q rest ih =>
    obtain ⟨hq, hrest⟩ := List.nodup_cons.mp hnodup
    by_cases hkey : q.1 = key
    · simp only [putParam, hkey, ↓reduceIte, List.mem_cons] at h
      rcases h with rfl | h
      · exact .inl rfl
      · refine .inr ⟨.tail _ h, ?_⟩
        rintro rfl
        exact hq (hkey ▸ List.mem_map_of_mem h)
    · simp only [putParam, if_neg hkey, List.mem_cons] at h
      rcases h with rfl | h
      · exact .inr ⟨.head _, hkey⟩
      · exact (ih hrest h).imp_right (And.imp_left (.tail _))

/-- One more parameter sets the value of its key, which is a new last key if it did not occur. -/
lemma Collects.put {ps params : List (String × String)} (h : Collects ps params)
    (p : String × String) : Collects (ps ++ [p]) (putParam p.1 p.2 params) := by
  constructor
  case keys =>
    intro key
    simp only [keys_putParam, List.map_append, List.map_singleton, List.mem_append,
      List.mem_singleton, ← h.keys]
    split
    · rename_i hold
      exact ⟨.inl, fun hkey => hkey.elim id (· ▸ hold)⟩
    · rw [List.mem_append, List.mem_singleton]
  case first =>
    have hkept : (params.map Prod.fst).Pairwise fun key key' =>
        ((ps ++ [p]).map Prod.fst).idxOf key < ((ps ++ [p]).map Prod.fst).idxOf key' := by
      refine h.first.imp_of_mem fun hkey hkey' hlt => ?_
      rwa [List.map_append, List.idxOf_append_of_mem ((h.keys _).mp hkey),
        List.idxOf_append_of_mem ((h.keys _).mp hkey')]
    rw [keys_putParam]
    split
    · exact hkept
    · rename_i hnew
      refine List.pairwise_append.mpr ⟨hkept, List.pairwise_singleton .., ?_⟩
      intro key hkey key' hkey'
      obtain rfl := List.mem_singleton.mp hkey'
      have hmem := (h.keys _).mp hkey
      rw [List.map_append, List.idxOf_append_of_mem hmem,
        List.idxOf_append_of_notMem (mt (h.keys _).mpr hnew)]
      exact Nat.lt_add_right _ (List.idxOf_lt_length_of_mem hmem)
  case last =>
    intro q hq
    rcases mem_putParam_of_nodup h.nodup hq with rfl | ⟨hq, hne⟩
    · exact ⟨ps, [], rfl, List.not_mem_nil⟩
    · obtain ⟨before, after, rfl, hafter⟩ := h.last q hq
      refine ⟨before, after ++ [p], by simp, ?_⟩
      simpa [hne] using hafter

lemma collects_nil : Collects [] [] :=
  ⟨fun _ => Iff.rfl, .nil, fun _ h => absurd h List.not_mem_nil⟩

/-- Parameters that are set one after the other are collected. -/
lemma collects_foldl (name : String) (ps : List (String × String)) :
    Collects ps (ps.foldl (fun t p => withParam t p.1 p.2) ⟨name, []⟩).params := by
  induction ps using List.reverseRecOn with
  | nil => exact collects_nil
  | append_singleton ps p ih =>
    rw [List.foldl_append]
    exact ih.put p

/-! ### Texts -/

/-- A text that is blank is the default name; any other is a name without the blanks around it. -/
def nameOf (text : List Char) : String :=
  if trimChars text = [] then "Origin" else String.ofList (trimChars text)

lemma named_eq_nameOf (text : String) : named text = ⟨nameOf text.toList, []⟩ := by
  by_cases h : trimChars text.toList = []
  · simp [named, nameOf, trim, h, defaultName]
  · simp [named, nameOf, trim, h]

lemma splitBlock?_eq_none_of_getLast? {s : List Char} (h : s.getLast? ≠ some '\x7d') :
    splitBlock? s = none := by
  refine Option.eq_none_iff_forall_ne_some.mpr fun block hblock => ?_
  obtain ⟨⟨name, rest⟩, hcut, hrest⟩ := Option.bind_eq_some_iff.mp hblock
  obtain ⟨hclose, -⟩ := Option.ite_none_right_eq_some.mp hrest
  obtain ⟨rfl, -⟩ := cutAt?_eq_some_iff.mp hcut
  refine h ?_
  rw [List.getLast?_append, List.getLast?_cons, hclose]
  rfl

lemma name_foldl_withParam (t : Targeter) (ps : List (String × String)) :
    (ps.foldl (fun t p => withParam t p.1 p.2) t).name = t.name := by
  induction ps generalizing t with
  | nil => rfl
  | cons p rest ih => exact ih _

/-- What a text says about a targeter is read, and read again from the text of the targeter, so that
storing a layer and taking it back does not change its targeter either. -/
theorem parse_stable (text : String) :
    parse (parse text).text = parse text ∧
      (∀ l : Layer, l.targeter = parse text →
        (LayerRecord.ofLayer l).toLayer.targeter = l.targeter) ∧
      (parse text).name ≠ "" ∧ IsTrimmed (parse text).name.toList ∧
      ((parse text).params.map Prod.fst).Nodup ∧
      (∀ p ∈ (parse text).params, IsTrimmed p.1.toList) ∧
      ('\x7b' ∉ text.toList ∨ (trimChars text.toList).getLast? ≠ some '\x7d' →
        parse text = ⟨nameOf text.toList, []⟩) ∧
      ∀ name body, trimChars text.toList = name ++ '\x7b' :: (body ++ ['\x7d']) → '\x7b' ∉ name →
        (parse text).name = nameOf name ∧
          ∃ ps, HasParams body ps ∧ Collects ps (parse text).params := by
  have hspelled := parse_isSpelled text
  have hstable := parse_text_parse text
  refine ⟨hstable, fun l hl => ?_, by simpa using hspelled.name_ne_nil, hspelled.name_trimmed,
    hspelled.nodup, fun p hp => (hspelled.params p hp).key_trimmed, fun hbare => ?_,
    fun name body htext hname => ?_⟩
  · rw [hl, ← hstable]
    exact congrArg (fun t => parse (Targeter.text t)) hl
  · have hblock : splitBlock? (trimChars text.toList) = none := by
      rcases hbare with hopen | hclose
      · exact splitBlock?_eq_none fun h => hopen (trimChars_subset _ h)
      · exact splitBlock?_eq_none_of_getLast? hclose
    rw [parse, hblock]
    exact named_eq_nameOf text
  · have hparse : parse text =
        (readParams body).foldl (fun t p => withParam t p.1 p.2) ⟨nameOf name, []⟩ := by
      rw [parse, htext, splitBlock?_block hname]
      simp only [named_eq_nameOf, String.toList_ofList]
    rw [hparse]
    exact ⟨name_foldl_withParam .., readParams body, hasParams_readParams body, collects_foldl ..⟩

end ParticleScene.Targeter
