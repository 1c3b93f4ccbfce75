import ParticleScene.Proofs.Files.Stored

/-!
# What actions change in a tree

An action that reads leaves the files alone. One that saves writes one file and makes directories
on the way to it, where nothing was. So an action that writes last, after all that it reads, has
changed nothing when it fails, unless it was the writing that failed.
-/

namespace ParticleScene

/-- Whether a file could not be written or a directory could not be made. -/
def Failure.isWriteFailure : Failure → Bool
  | fileUnwritable .. | directoryNotMade .. => true
  | _ => false

/-! ### Directories that are made -/

namespace FileTree

variable {t t' : FileTree} {here next place : Location} {names : List String} {path : String}

/-- Every node of a tree stays as it is, and what is new are directories at which walks come by that
take the first ones of given steps. -/
def OnlyMakes (t t' : FileTree) (here : Location) (names : List String) : Prop :=
  ∀ place, t'.node? place = t.node? place ∨
    t.node? place = none ∧ t'.node? place = some .directory ∧
      ∃ front, front <+: names ∧ front.foldlM t'.step here = .ok place

lemma OnlyMakes.refl (t : FileTree) (here : Location) (names : List String) :
    t.OnlyMakes t here names :=
  fun _ => .inl rfl

lemma OnlyMakes.keepsDirectories (h : t.OnlyMakes t' here names) : t.KeepsDirectories t' := by
  intro place hplace
  rcases h place with hsame | ⟨hnone, -⟩
  · rw [hsame, hplace]
  · rw [hplace] at hnone
    cases hnone

lemma OnlyMakes.cons {name : String} (hstep : t.step here name = .ok next)
    (h : t.OnlyMakes t' next names) : t.OnlyMakes t' here (name :: names) := by
  intro place
  rcases h place with hsame | ⟨hnone, hmade, front, hfront, hwalk⟩
  · exact .inl hsame
  · refine .inr ⟨hnone, hmade, name :: front, List.prefix_cons_inj name |>.mpr hfront, ?_⟩
    rw [List.foldlM_cons, step_of_keepsDirectories h.keepsDirectories hstep]
    exact hwalk

lemma OnlyMakes.trans {t₂ : FileTree} (h : t.OnlyMakes t' here names)
    (h₂ : t'.OnlyMakes t₂ here names) : t.OnlyMakes t₂ here names := by
  intro place
  rcases h place with hsame | ⟨hnone, hmade, front, hfront, hwalk⟩
  · rw [← hsame]
    exact h₂ place
  · refine .inr ⟨hnone, h₂.keepsDirectories place hmade, front, hfront, ?_⟩
    exact foldlM_step_of_keepsDirectories h₂.keepsDirectories hwalk

/-- A directory is made where a walk ends. -/
lemma onlyMakes_put {front : List String} (hfront : front <+: names)
    (hwalk : front.foldlM t.step here = .ok next) (hnext : t.node? next = none) :
    t.OnlyMakes (t.put next .directory) here names := by
  have hfree : t.node? next ≠ some .directory := by simp [hnext]
  intro place
  by_cases hplace : place = next
  · subst hplace
    refine .inr ⟨hnext, node?_put_self hfree, front, hfront, ?_⟩
    exact foldlM_step_of_keepsDirectories (keepsDirectories_put hfree _) hwalk
  · exact .inl (node?_put_of_ne hplace)

lemma makeMissing_onlyMakes (t : FileTree) (here : Location) (names : List String) :
    t.OnlyMakes (t.makeMissing here names).2 here names := by
  induction names generalizing t here with
  | nil => exact .refl t here []
  | cons name rest ih =>
    rw [makeMissing]
    cases hstep : t.step here name with
    | error why => exact .refl t here _
    | ok next =>
      dsimp only
      cases hnode : t.node? next with
      | none =>
        have hwalk : [name].foldlM t.step here = .ok next := by simp [hstep]
        have hmade : t.OnlyMakes (t.put next .directory) here (name :: rest) :=
          onlyMakes_put ⟨rest, rfl⟩ hwalk hnode
        exact hmade.trans ((ih _ next).cons (step_of_keepsDirectories hmade.keepsDirectories hstep))
      | some n =>
        cases n with
        | directory => exact (ih t next).cons hstep
        | file content => exact .refl t here _

lemma makeDirectory_eq_ok (h : t.makeDirectory path = .ok t') :
    ∃ place, (Path.components path).foldlM t.step [] = .ok place ∧ t.node? place = none ∧
      t' = t.put place .directory := by
  obtain ⟨place, hwalk, h⟩ := bind_eq_ok_iff.mp h
  rw [walk] at hwalk
  split at hwalk
  · cases hwalk
  · split at h
    · cases h
    · cases h
      exact ⟨place, hwalk, ‹_›, rfl⟩

/-- To make a directory and those it lies in is to make only directories. -/
lemma ensureDirectory_onlyMakes (t : FileTree) (path : String) :
    t.OnlyMakes (t.ensureDirectory path).2 [] (Path.components path) := by
  rw [ensureDirectory]
  split
  · rename_i hmade
    obtain ⟨place, hwalk, hnone, rfl⟩ := makeDirectory_eq_ok hmade
    exact onlyMakes_put (List.prefix_refl _) hwalk hnone
  · exact makeMissing_onlyMakes t [] _
  · exact .refl t [] _

end FileTree

/-! ### Actions that read, and what is written last -/

namespace FileAction

variable {α β : Type} {x : FileAction α} {f : α → FileAction β} {t t' : FileTree}
variable {R : FileTree → FileTree → Prop}

/-- An action that changes no files. -/
def ReadsOnly (x : FileAction α) : Prop :=
  ∀ t, (x t).2 = t

/-- An action that changes files as a relation allows when it succeeds, and that changes none when
it fails, unless a file could not be written or a directory could not be made. -/
structure WritesLast (R : FileTree → FileTree → Prop) (x : FileAction α) : Prop where
  ok : ∀ {t a t'}, x t = (.ok a, t') → R t t'
  error : ∀ {t why t'}, x t = (.error why, t') → why.isWriteFailure = false → t' = t

lemma readsOnly_pure (a : α) : ReadsOnly (pure a) := fun _ => rfl

lemma readsOnly_throw (why : Failure) : ReadsOnly (throw why : FileAction α) := fun _ => rfl

lemma readsOnly_ask (g : FileTree → Except Failure α) : ReadsOnly (ask g) := fun _ => rfl

lemma ReadsOnly.tree_eq (hx : ReadsOnly x) {r : Except Failure α} (h : x t = (r, t')) : t' = t := by
  rw [← hx t, h]

lemma ReadsOnly.bind (hx : ReadsOnly x) (hf : ∀ a, ReadsOnly (f a)) : ReadsOnly (x >>= f) := by
  intro t
  rcases hout : (x >>= f) t with ⟨why | b, t'⟩
  · rcases bind_eq_error.mp hout with hfailed | ⟨a, between, ha, hb⟩
    · exact hx.tree_eq hfailed
    · rw [← hx.tree_eq ha]
      exact (hf a).tree_eq hb
  · obtain ⟨a, between, ha, hb⟩ := bind_eq_ok.mp hout
    rw [← hx.tree_eq ha]
    exact (hf a).tree_eq hb

lemma ReadsOnly.writesLast (hx : ReadsOnly x) : WritesLast (fun t t' => t' = t) x :=
  ⟨fun h => hx.tree_eq h, fun h _ => hx.tree_eq h⟩

/-- What is read first does not matter for what is written last. -/
lemma ReadsOnly.bind_writesLast (hx : ReadsOnly x) (hf : ∀ a, WritesLast R (f a)) :
    WritesLast R (x >>= f) := by
  constructor
  · intro t b t' h
    obtain ⟨a, between, ha, hb⟩ := bind_eq_ok.mp h
    obtain rfl := hx.tree_eq ha
    exact (hf a).ok hb
  · intro t why t' h hwhy
    rcases bind_eq_error.mp h with hfailed | ⟨a, between, ha, hb⟩
    · exact hx.tree_eq hfailed
    · obtain rfl := hx.tree_eq ha
      exact (hf a).error hb hwhy

/-- An answer that is put together after all was written changes nothing. -/
lemma WritesLast.bind_pure (hx : WritesLast R x) (g : α → β) :
    WritesLast R (x >>= fun a => pure (g a)) := by
  constructor
  · intro t b t' h
    obtain ⟨a, between, ha, hb⟩ := bind_eq_ok.mp h
    cases hb
    exact hx.ok ha
  · intro t why t' h hwhy
    rcases bind_eq_error.mp h with hfailed | ⟨a, between, ha, hb⟩
    · exact hx.error hfailed hwhy
    · cases hb

end FileAction

open FileAction

/-! ### Loading -/

variable {path text : String} {t t' between : FileTree}

lemma Document.load_readsOnly (reader : Json.FloatReader) (path : String) :
    ReadsOnly (Document.load reader path) := by
  apply (readsOnly_ask _).bind
  intro
  apply (readsOnly_ask _).bind
  intro text
  split
  · exact readsOnly_pure _
  · exact readsOnly_throw _

lemma Options.load_readsOnly (reader : Json.FloatReader) (path : String) :
    ReadsOnly (Options.load reader path) := by
  apply (readsOnly_ask _).bind
  intro
  exact readsOnly_ask _

lemma Mesh.load_readsOnly (path : String) : ReadsOnly (Mesh.load path) := by
  apply (readsOnly_ask _).bind
  intro
  apply (readsOnly_ask _).bind
  intro text
  apply (readsOnly_ask _).bind
  intro m
  split
  · exact readsOnly_pure _
  · exact readsOnly_pure _

lemma Picture.load_readsOnly (decoder : PictureDecoder) (path : String) :
    ReadsOnly (Picture.load decoder path) := by
  apply (readsOnly_ask _).bind
  intro
  exact readsOnly_ask _

/-! ### Saving -/

/-- A file was written where a path leads, in place of a file or where nothing was. All other nodes
stay, and what is new beside the file are directories, if any may be made: they stand where nothing
was, on the way to the directory that the file lies in. -/
def FileTree.Written (path : String) (makes : Bool) (t t' : FileTree) : Prop :=
  ∃ place text, t'.locate path = .ok place ∧ t.node? place ≠ some .directory ∧
    t'.node? place = some (.file (.text text)) ∧
    ∀ other, other ≠ place → t'.node? other = t.node? other ∨
      makes = true ∧ t.node? other = none ∧ t'.node? other = some .directory ∧
        ∃ parent front, Path.parent? path = some parent ∧ front <+: Path.components parent ∧
          front.foldlM t'.step [] = .ok other

namespace FileTree

lemma written_of_write (h : t.write path (.text text) = .ok t') : t.Written path false t' := by
  obtain ⟨place, hlocate, hplace, rfl⟩ := write_eq_ok h
  refine ⟨place, text, locate_put hplace _ hlocate, hplace, node?_put_self hplace, ?_⟩
  intro other hother
  exact .inl (node?_put_of_ne hother)

lemma Written.of_false (h : t.Written path false t') (makes : Bool) : t.Written path makes t' := by
  obtain ⟨place, text, hlocate, hplace, hfile, hothers⟩ := h
  refine ⟨place, text, hlocate, hplace, hfile, ?_⟩
  intro other hother
  rcases hothers other hother with hsame | ⟨⟨⟩, -⟩
  exact .inl hsame

/-- A file is written after the directories on the way to it were made. -/
lemma Written.of_onlyMakes {parent : String} (h : between.Written path false t')
    (hparent : Path.parent? path = some parent)
    (hmade : t.OnlyMakes between [] (Path.components parent)) : t.Written path true t' := by
  obtain ⟨place, text, hlocate, hplace, hfile, hothers⟩ := h
  have hsame : ∀ other, other ≠ place → t'.node? other = between.node? other := by
    intro other hother
    rcases hothers other hother with hsame | ⟨⟨⟩, -⟩
    exact hsame
  have hkeeps : between.KeepsDirectories t' := by
    intro other hdirectory
    rw [hsame other, hdirectory]
    rintro rfl
    exact hplace hdirectory
  refine ⟨place, text, hlocate, fun hbefore => hplace (hmade.keepsDirectories _ hbefore), hfile, ?_⟩
  intro other hother
  rw [hsame other hother]
  rcases hmade other with hbefore | ⟨hnone, hnew, front, hfront, hwalk⟩
  · exact .inl hbefore
  · exact .inr ⟨rfl, hnone, hnew, parent, front, hparent, hfront,
      foldlM_step_of_keepsDirectories hkeeps hwalk⟩

end FileTree

/-- What the file system refuses comes back as the failure that was named. -/
lemma refuse_eq_error {α : Type} {x : Except Refusal α} {failure : String → Failure}
    {why : Failure} (h : refuse failure x = .error why) : ∃ cause, why = failure cause := by
  cases x with
  | error refusal =>
    cases h
    exact ⟨_, rfl⟩
  | ok a => cases h

lemma isWriteFailure_of_writeText {why : Failure} (h : writeText path text t = (.error why, t')) :
    why.isWriteFailure = true := by
  rw [writeText, change] at h
  split at h
  · cases h
  · rename_i hrefused
    cases h
    obtain ⟨cause, rfl⟩ := refuse_eq_error hrefused
    rfl

lemma onlyMakes_of_ensureDirectory {r : Except Failure Unit}
    (h : ensureDirectory path t = (r, t')) : t.OnlyMakes t' [] (Path.components path) := by
  rw [ensureDirectory] at h
  split at h
  · cases h
    exact .refl t [] _
  · cases h
    exact t.ensureDirectory_onlyMakes path

lemma isWriteFailure_of_ensureDirectory {why : Failure}
    (h : ensureDirectory path t = (.error why, t')) : why.isWriteFailure = true := by
  rw [ensureDirectory] at h
  split at h
  · cases h
  · obtain ⟨cause, rfl⟩ := refuse_eq_error (congrArg Prod.fst h)
    rfl

lemma ensureParent_of_none (h : Path.parent? path = none) : ensureParent path = pure () := by
  rw [ensureParent, h]

lemma ensureParent_of_some {parent : String} (h : Path.parent? path = some parent) :
    ensureParent path = ensureDirectory parent := by
  rw [ensureParent, h]

lemma isWriteFailure_of_ensureParent {why : Failure} (h : ensureParent path t = (.error why, t')) :
    why.isWriteFailure = true := by
  cases hparent : Path.parent? path with
  | none =>
    rw [ensureParent_of_none hparent] at h
    cases h
  | some parent =>
    rw [ensureParent_of_some hparent] at h
    exact isWriteFailure_of_ensureDirectory h

lemma FileTree.Written.of_ensureParent (h : between.Written path false t')
    (hensured : ensureParent path t = (.ok (), between)) : t.Written path true t' := by
  cases hparent : Path.parent? path with
  | none =>
    rw [ensureParent_of_none hparent] at hensured
    cases hensured
    exact h.of_false true
  | some parent =>
    rw [ensureParent_of_some hparent] at hensured
    exact h.of_onlyMakes hparent (onlyMakes_of_ensureDirectory hensured)

lemma writeText_writesLast (path text : String) :
    WritesLast (FileTree.Written path false) (writeText path text) := by
  constructor
  · intro t a t' h
    exact FileTree.written_of_write (writeText_eq_ok.mp h)
  · intro t why t' h hwhy
    rw [isWriteFailure_of_writeText h] at hwhy
    cases hwhy

/-- Saving fails only where it writes, and it makes no directories but those that the file lies
in. -/
lemma Document.save_writesLast (d : Document) (path : String) :
    WritesLast (FileTree.Written path true) (d.save path) := by
  constructor
  · intro t a t' h
    obtain ⟨_, between, hensured, hwrite⟩ := bind_eq_ok.mp h
    have hwritten := FileTree.written_of_write (writeText_eq_ok.mp hwrite)
    exact hwritten.of_ensureParent hensured
  · intro t why t' h hwhy
    have hwrite : why.isWriteFailure = true := by
      rcases bind_eq_error.mp h with hensured | ⟨_, between, -, hwrite⟩
      · exact isWriteFailure_of_ensureParent hensured
      · exact isWriteFailure_of_writeText hwrite
    rw [hwrite] at hwhy
    cases hwhy

end ParticleScene
