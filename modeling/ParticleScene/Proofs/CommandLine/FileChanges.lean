import ParticleScene.CommandLine.Run
import ParticleScene.Proofs.Files.Changes
import ParticleScene.Proofs.Source

/-!
# What a request changes

Every request reads all that it needs, and refuses what it cannot use, before it writes. So a
request that fails for another cause than that it could not write has changed nothing. One that
succeeds has changed one file, or none if what it asks for is only shown. This does not depend on
the libraries: it is so for every decoder of pictures, and for every source of elements.
-/

namespace ParticleScene.CommandLine

open FileAction

/-- The file that a request writes. -/
def Request.target? : Request → Option String
  | create scene | importMesh scene .. | importPicture scene .. => some scene
  | compile _ _ output _ | preview _ output => output
  | info _ => none

/-- Whether a request makes the directories that its file lies in. -/
def Request.makesDirectories : Request → Bool
  | create .. | importMesh .. | importPicture .. => true
  | info _ | compile .. | preview .. => false

/-- What a request that succeeds has changed. -/
def Request.Changes (r : Request) (t t' : FileTree) : Prop :=
  match r.target? with
  | none => t' = t
  | some path => t.Written path r.makesDirectories t'

variable {given : Libraries}

lemma loadScene_readsOnly (reader : Json.FloatReader) (path : String) :
    ReadsOnly (loadScene reader path) :=
  (Document.load_readsOnly reader path).bind fun _ => readsOnly_pure _

lemma Overrides.resolve_readsOnly (reader : Json.FloatReader) (v : Overrides) :
    ReadsOnly (v.resolve reader) := by
  unfold Overrides.resolve
  split
  · exact (Options.load_readsOnly reader _).bind fun _ => readsOnly_pure _
  · exact (readsOnly_pure _).bind fun _ => readsOnly_pure _

/-- The end of a request that shows a text, or writes it and tells so. -/
lemma showOrWrite_writesLast (output : Option String) (text answer : String)
    (message : String → String) :
    WritesLast
      (fun t t' => match output with
        | none => t' = t
        | some path => t.Written path false t')
      (match output with
        | none => pure answer
        | some path => do
          writeText path text
          pure (message path)) := by
  cases output with
  | none => exact (readsOnly_pure answer).writesLast
  | some path => exact (writeText_writesLast path text).bind_pure _

/-- An import writes after its job has ended well, whatever became of the source. -/
lemma importInto_writesLast (reader : Json.FloatReader) (path : String) (layer : Nat)
    (source : Source) :
    WritesLast (FileTree.Written path true) (importInto reader path layer source) := by
  apply (loadScene_readsOnly reader path).bind_writesLast
  intro scene
  apply (readsOnly_ask _).bind_writesLast
  intro summary
  apply (readsOnly_ask _).bind_writesLast
  intro scene'
  exact (Document.save_writesLast _ path).bind_pure _

lemma compile_writesLast (scene : String) (overrides : Overrides) (output : Option String)
    (strict : Bool) :
    WritesLast (Request.compile scene overrides output strict).Changes
      ((Request.compile scene overrides output strict).perform given) := by
  apply (Overrides.resolve_readsOnly given.reader overrides).bind_writesLast
  intro options
  apply (loadScene_readsOnly given.reader scene).bind_writesLast
  intro loaded
  apply (readsOnly_ask _).bind_writesLast
  intro script
  cases strict with
  | false => exact showOrWrite_writesLast output ..
  | true =>
    apply (readsOnly_ask _).bind_writesLast
    intro
    exact showOrWrite_writesLast output ..

lemma perform_writesLast (r : Request) : WritesLast r.Changes (r.perform given) := by
  cases r with
  | create scene => exact (Document.save_writesLast _ scene).bind_pure _
  | info scene =>
    exact ((loadScene_readsOnly given.reader scene).bind fun _ => readsOnly_pure _).writesLast
  | compile scene overrides output strict => exact compile_writesLast ..
  | importMesh scene mesh layer scale sparse =>
    apply (Mesh.load_readsOnly mesh).bind_writesLast
    intro m
    exact importInto_writesLast given.reader scene layer _
  | importPicture scene picture layer size realColor sparse =>
    apply (Picture.load_readsOnly given.decoder picture).bind_writesLast
    intro p
    exact importInto_writesLast given.reader scene layer _
  | preview scene output =>
    apply (Document.load_readsOnly given.reader scene).bind_writesLast
    intro d
    exact showOrWrite_writesLast output ..

/-- Only requests get to the files. -/
lemma tree_of_run (given : Libraries) (tokens : List String) (t : FileTree) :
    (∀ verbose r, Call.ofArguments tokens = .request verbose r →
      (run given tokens t).2 = (r.perform given t).2) ∧
    ((∀ verbose r, Call.ofArguments tokens ≠ .request verbose r) →
      (run given tokens t).2 = t) := by
  constructor
  · intro verbose r hcall
    rw [run, hcall]
    dsimp only
    rw [Request.run]
    rcases r.perform given t with ⟨why | answer, t'⟩
    · rfl
    · rfl
  · intro hcall
    rw [run]
    split
    · rfl
    · rfl
    · rfl
    · exact absurd ‹_› (hcall _ _)

/-- With any libraries, a request that fails, for another cause than that a file could not be
written or a directory could not be made, has changed nothing. One that succeeds has changed nothing
but the file that it is there to write, and directories that this file lies in are the only ones
that it has made. Command lines that are no request leave the files alone. Imports from any source
are no different: they fail without a change also when the source stops without an answer, or
refuses. -/
theorem changes_only_the_target (given : Libraries) (t t' : FileTree) :
    (∀ r : Request, ∀ why, r.perform given t = (.error why, t') → why.isWriteFailure = false →
      t' = t) ∧
    (∀ r : Request, ∀ answer, r.perform given t = (.ok answer, t') →
      (r.target? = none → t' = t) ∧
      ∀ path, r.target? = some path → t.Written path r.makesDirectories t') ∧
    (∀ tokens,
      (∀ verbose r, Call.ofArguments tokens = .request verbose r →
        (run given tokens t).2 = (r.perform given t).2) ∧
      ((∀ verbose r, Call.ofArguments tokens ≠ .request verbose r) →
        (run given tokens t).2 = t)) ∧
    (∀ path layer source why, importInto given.reader path layer source t = (.error why, t') →
      why.isWriteFailure = false → t' = t) ∧
    ∀ path layer source answer, importInto given.reader path layer source t = (.ok answer, t') →
      t.Written path true t' := by
  refine ⟨fun r why => (perform_writesLast r).error, ?_, fun tokens => tree_of_run given tokens t,
    fun path layer source why => (importInto_writesLast given.reader path layer source).error,
    fun path layer source answer => (importInto_writesLast given.reader path layer source).ok⟩
  intro r answer h
  have hchanges := (perform_writesLast r).ok h
  unfold Request.Changes at hchanges
  constructor
  · intro htarget
    rwa [htarget] at hchanges
  · intro path htarget
    rwa [htarget] at hchanges

/-- A scene, a mesh of which a line breaks off, and a picture. -/
def brokenMesh : FileTree :=
  ((({} : FileTree).put ["s.fxgen"] (.file (.text "\x7b\x7d"))).put ["m.obj"]
    (.file (.text "v 1 2"))).put ["p.bmp"] (.file (.binary Picture.redPixel))

/-- Libraries that decode the picture of the red pixel. -/
def decodingPixel : Libraries where
  reader := .fast
  decoder := Picture.redPixelDecoder
  resampler := .nearest

/-- A source that stops without an answer. -/
def stopping : Source where
  produce _ := .crashed

set_option maxRecDepth 20000 in
/-- The broken mesh is refused and a source that stops is noticed before the scene is written. The
picture is imported into the scene. A new scene gets a directory of its own. -/
theorem changes_only_the_target_brokenMesh :
    let refused := (Request.importMesh "s.fxgen" "m.obj" 0 1.0 false).perform decodingPixel
      brokenMesh
    let stopped := importInto .fast "s.fxgen" 0 stopping brokenMesh
    let imported := (Request.importPicture "s.fxgen" "p.bmp" 0 1 true false).perform decodingPixel
      brokenMesh
    let created := (Request.create "new/s.fxgen").perform decodingPixel brokenMesh
    refused.1 = .error (.malformedMesh 1 "vertex needs 3 coordinates") ∧ refused.2 = brokenMesh ∧
      stopped.1 = .error .workerStopped ∧ stopped.2 = brokenMesh ∧
      imported.1 = .ok "Imported 1 of 1 elements into layer 0\n" ∧
      brokenMesh.Written "s.fxgen" true imported.2 ∧
      created.1 = .ok "Scene created: new/s.fxgen\n" ∧
      brokenMesh.Written "new/s.fxgen" true created.2 ∧
      created.2.isDirectory "new" = true := by
  intro refused stopped imported created
  have hrefused : refused.1 = .error (.malformedMesh 1 "vertex needs 3 coordinates") := by rfl
  have hstopped : stopped.1 = .error .workerStopped := by rfl
  have himported : imported.1 = .ok "Imported 1 of 1 elements into layer 0\n" := by rfl
  have hcreated : created.1 = .ok "Scene created: new/s.fxgen\n" := by rfl
  refine ⟨hrefused, ?_, hstopped, ?_, himported, ?_, hcreated, ?_, by rfl⟩
  · exact (changes_only_the_target decodingPixel brokenMesh _).1 _ _ (Prod.ext hrefused rfl) rfl
  · exact (changes_only_the_target decodingPixel brokenMesh _).2.2.2.1 _ _ _ _
      (Prod.ext hstopped rfl) rfl
  · exact ((changes_only_the_target decodingPixel brokenMesh _).2.1 _ _
      (Prod.ext himported rfl)).2 _ rfl
  · exact ((changes_only_the_target decodingPixel brokenMesh _).2.1 _ _
      (Prod.ext hcreated rfl)).2 _ rfl

end ParticleScene.CommandLine
