import ParticleScene.Files.Stored
import ParticleScene.Proofs.Document.Finite
import ParticleScene.Proofs.Files.Tree

/-!
# Stored documents

A document that was saved is loaded again if its floats are finite and the reader gets them back,
and is refused if one of them is not finite. A document that was loaded has finite floats.
-/

namespace ParticleScene

/-! ### Actions in steps -/

namespace FileAction

variable {α β : Type} {x : FileAction α} {f : α → FileAction β} {t t' : FileTree} {a : α} {b : β}

/-- Two actions in a row succeed when both do. -/
lemma bind_eq_ok : (x >>= f) t = (.ok b, t') ↔
    ∃ a between, x t = (.ok a, between) ∧ f a between = (.ok b, t') := by
  change ExceptT.bindCont f (x t).1 (x t).2 = _ ↔ _
  obtain ⟨a | a, between⟩ := x t
  · constructor
    · intro h
      cases h
    · rintro ⟨_, _, ⟨⟩, -⟩
  · constructor
    · exact fun h => ⟨a, between, rfl, h⟩
    · rintro ⟨_, _, ⟨⟩, h⟩
      exact h

/-- Two actions in a row fail when the first one does, or when the second one does after it. -/
lemma bind_eq_error {why : Failure} : (x >>= f) t = (.error why, t') ↔ x t = (.error why, t') ∨
    ∃ a between, x t = (.ok a, between) ∧ f a between = (.error why, t') := by
  change ExceptT.bindCont f (x t).1 (x t).2 = _ ↔ _
  obtain ⟨a | a, between⟩ := x t
  · constructor
    · rintro ⟨⟩
      exact .inl rfl
    · rintro (⟨⟨⟩⟩ | ⟨_, _, ⟨⟩, -⟩)
      rfl
  · constructor
    · exact fun h => .inr ⟨a, between, rfl, h⟩
    · rintro (⟨⟨⟩⟩ | ⟨_, _, ⟨⟩, h⟩)
      exact h

lemma bind_of_eq_ok {between : FileTree} (h : x t = (.ok a, between)) :
    (x >>= f) t = f a between := by
  change ExceptT.bindCont f (x t).1 (x t).2 = _
  rw [h]
  rfl

lemma ask_eq_ok {g : FileTree → Except Failure α} :
    ask g t = (.ok a, t') ↔ g t = .ok a ∧ t' = t := by
  rw [ask, Prod.mk.injEq, eq_comm (a := t)]

lemma change_eq_ok {g : FileTree → Except Failure FileTree} :
    change g t = (.ok (), t') ↔ g t = .ok t' := by
  rw [change]
  cases g t with
  | error why => exact iff_of_false (fun h => nomatch h) (fun h => nomatch h)
  | ok changed =>
    constructor
    · exact fun h => congrArg Except.ok (congrArg Prod.snd h)
    · rintro ⟨⟩
      rfl

end FileAction

open FileAction

variable {t t' : FileTree} {path text : String} {d : Document} {α : Type} {x : Except Refusal α}
variable {a : α} {failure : String → Failure} {reader : Json.FloatReader}

lemma refuse_eq_ok : refuse failure x = .ok a ↔ x = .ok a := by
  cases x with
  | error why => exact iff_of_false (fun h => nomatch h) (fun h => nomatch h)
  | ok a' => rw [refuse, Except.ok.injEq, Except.ok.injEq]

lemma requireFile_of_exists (h : t.exists? path = true) : requireFile path t = (.ok (), t) := by
  rw [requireFile, ask, if_pos h]

lemma readText_eq_ok : readText path t = (.ok text, t') ↔ t.readText path = .ok text ∧ t' = t := by
  rw [readText, ask_eq_ok, refuse_eq_ok]

lemma writeText_eq_ok :
    writeText path text t = (.ok (), t') ↔ t.write path (.text text) = .ok t' := by
  rw [writeText, change_eq_ok, refuse_eq_ok]

/-- After a text was saved, in a new directory if need be, it stands in the file. -/
lemma readText_of_save
    (h : (do ensureParent path; writeText path text : FileAction Unit) t = (.ok (), t')) :
    t'.readText path = .ok text := by
  obtain ⟨_, between, -, h⟩ := bind_eq_ok.mp h
  exact FileTree.readText_of_write (writeText_eq_ok.mp h)

/-! ### Documents -/

namespace Document

/-- What is loaded from a file that can be read. -/
lemma load_of_readText (hread : t.readText path = .ok text) :
    load reader path t =
      match ofText reader text with
      | .ok d => (.ok d, t)
      | .error why => (.error (.invalidScene (path ++ ": " ++ why.message)), t) := by
  have hexists := FileTree.exists?_of_read (FileTree.read_of_readText hread)
  rw [load, bind_of_eq_ok (requireFile_of_exists hexists),
    bind_of_eq_ok (readText_eq_ok.mpr ⟨hread, rfl⟩)]
  cases ofText reader text <;> rfl

/-- A document that was loaded stands in the file. Loading changes no file. -/
lemma load_eq_ok (h : load reader path t = (.ok d, t')) :
    ∃ text, t.readText path = .ok text ∧ ofText reader text = .ok d ∧ t' = t := by
  obtain ⟨_, _, hrequired, hrest⟩ := bind_eq_ok.mp h
  obtain ⟨-, rfl⟩ := ask_eq_ok.mp hrequired
  obtain ⟨text, _, hread, hparsed⟩ := bind_eq_ok.mp hrest
  obtain ⟨hread, rfl⟩ := readText_eq_ok.mp hread
  refine ⟨text, hread, ?_⟩
  cases htext : ofText reader text <;> rw [htext] at hparsed <;> cases hparsed
  exact ⟨rfl, rfl⟩

lemma isFinite_of_load (h : load reader path t = (.ok d, t')) : d.IsFinite := by
  obtain ⟨text, -, htext, -⟩ := load_eq_ok h
  exact isFinite_of_ofText htext

lemma load_of_save (h : save d path t = (.ok (), t')) :
    load reader path t' =
      match ofText reader d.text with
      | .ok d => (.ok d, t')
      | .error why => (.error (.invalidScene (path ++ ": " ++ why.message)), t') :=
  load_of_readText (readText_of_save h)

/-- A document that was saved is loaded again if its floats are finite and read back. -/
lemma load_save (hd : d.IsFinite) (hread : d.IsReadBack reader)
    (h : save d path t = (.ok (), t')) : load reader path t' = (.ok d, t') := by
  rw [load_of_save h, (ofText_text hd hread).1]

lemma load_save_of_not_isFinite (hd : ¬ d.IsFinite) (h : save d path t = (.ok (), t')) :
    load reader path t' =
      (.error (.invalidScene (path ++ ": " ++ Failure.malformedJson.message)), t') := by
  rw [load_of_save h, ofText_text_of_not_isFinite hd]

end Document

end ParticleScene
