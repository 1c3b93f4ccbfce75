import ParticleScene.Proofs.CommandLine.FileChanges
import ParticleScene.Proofs.Document.Storable
import ParticleScene.Proofs.ImportJob
import ParticleScene.Proofs.Scene.Effects

/-!
# Imports into stored scenes

An import that succeeds has written the scene of a direct import. That scene is loaded again, with
the same layers, if the imported elements have finite floats and the reader gets back each float
that was saved. It is refused if an imported float is not finite.
-/

namespace ParticleScene.CommandLine

open FileAction

variable {t t' : FileTree} {path message : String} {index : ℕ} {source : Source} {d : Document}
variable {l : Layer} {es : List Element} {reader : Json.FloatReader}

/-! ### The scene before an import -/

/-- The scene that an import of a loaded document starts from. -/
def openScene (d : Document) : Scene :=
  let scene := Scene.ofDocument d
  if scene.layers.isEmpty then (scene.addLayer firstLayerName 0).2 else scene

/-- The layer that a scene without layers gets. -/
def firstLayer : Layer := { name := firstLayerName, tickStart := 0 }

lemma layers_openScene (d : Document) :
    (openScene d).layers = if d.toLayers.isEmpty then [firstLayer] else d.toLayers := by
  rw [openScene]
  by_cases hempty : d.toLayers = []
  · have hnone : (Scene.ofDocument d).layers = [] := hempty
    rw [hnone, hempty]
    change (Scene.ofDocument d).layers ++ [firstLayer] = [firstLayer]
    rw [hnone, List.nil_append]
  · have hsome : d.toLayers.isEmpty = false := by simpa using hempty
    have hsome' : (Scene.ofDocument d).layers.isEmpty = false := hsome
    rw [hsome, hsome']
    rfl

lemma forall_mem_openScene {p : Layer → Prop} (hd : ∀ l ∈ d.toLayers, p l) (hfirst : p firstLayer) :
    ∀ l ∈ (openScene d).layers, p l := by
  rw [layers_openScene]
  split
  · exact List.forall_mem_singleton.mpr hfirst
  · exact hd

lemma isStorable_of_mem_openScene : ∀ l ∈ (openScene d).layers, l.IsStorable :=
  forall_mem_openScene (fun _ => Document.isStorable_of_mem_toLayers)
    ⟨⟨by decide, by decide, by decide, by decide, by decide⟩, Targeter.parse_isSpelled "Origin",
      List.forall_mem_nil _⟩

lemma isFinite_of_mem_openScene (h : d.IsFinite) : ∀ l ∈ (openScene d).layers, l.IsFinite :=
  forall_mem_openScene (fun _ => Document.isFinite_of_mem_toLayers h)
    (Layer.isFinite_iff.mpr ⟨by decide, by decide, by decide, List.forall_mem_nil _⟩)

/-! ### The scene after an import -/

/-- An import loads a document, runs a job on its scene, and saves what the job leaves. -/
lemma exists_of_importInto (h : importInto reader path index source t = (.ok message, t')) :
    ∃ d summary, Document.load reader path t = (.ok d, t) ∧
      let run := (ImportJob.start index source ImportJob.defaultChunk).run Compile.uncancelled
        (openScene d)
      run.1.outcome = .ok summary ∧ run.2.document.save path t = (.ok (), t') := by
  obtain ⟨scene, _, hscene, hrest⟩ := bind_eq_ok.mp h
  obtain ⟨d, _, hd, hofDocument⟩ := bind_eq_ok.mp hscene
  cases hofDocument
  obtain ⟨-, -, -, rfl⟩ := Document.load_eq_ok hd
  obtain ⟨summary, _, hsummary, hsave⟩ := bind_eq_ok.mp hrest
  obtain ⟨houtcome, rfl⟩ := ask_eq_ok.mp hsummary
  obtain ⟨_, _, hread, hsave⟩ := bind_eq_ok.mp hsave
  obtain ⟨hread, rfl⟩ := ask_eq_ok.mp hread
  cases hread
  obtain ⟨_, _, hsave, hmessage⟩ := bind_eq_ok.mp hsave
  cases hmessage
  exact ⟨d, summary, hd, houtcome, hsave⟩

/-- A job that nobody cancels and that succeeds leaves the scene of a direct import. -/
lemma importElements_of_outcome {s : Scene} {size : ℕ} {summary : ImportSummary}
    (h : ((ImportJob.start index source size).run Compile.uncancelled s).1.outcome = .ok summary) :
    ∃ l es, s.layers[index]? = some l ∧ source.produce l = .elements es ∧
      s.importElements index source =
        .ok (es.length, ((ImportJob.start index source size).run Compile.uncancelled s).2) ∧
      ((ImportJob.start index source size).run Compile.uncancelled s).2.layers =
        s.layers.set index (l.merge source.mode es) := by
  cases hread : s.layerAt index >>= fun l => (source.produce l).outcome with
  | error why =>
    rw [ImportJob.run_of_error hread] at h
    cases h
  | ok es =>
    obtain ⟨l, hl, hes⟩ := bind_eq_ok_iff.mp hread
    have hget := Scene.layerAt_eq_ok.mp hl
    have hproduce := Scene.outcome_eq_ok.mp hes
    have hunset : ∀ i, i * max size 1 < es.length → Compile.uncancelled i = false := fun _ _ => rfl
    rw [ImportJob.run_uncancelled hget hproduce hunset]
    exact ⟨l, es, hget, hproduce, ImportJob.importElements_of_elements hget hproduce, rfl⟩

/-- After an import that succeeds, the scene is loaded with the layers that were saved if they are
finite and read back, and refused if an element with a float that is not finite was imported. -/
lemma load_of_importInto (hwhole : ∀ l es, source.produce l = .elements es →
      ∀ e ∈ es, e.fillTicks = e)
    (h : importInto reader path index source t = (.ok message, t')) :
    ∃ d l es s, Document.load reader path t = (.ok d, t) ∧
      (openScene d).layers[index]? = some l ∧ source.produce l = .elements es ∧
      (openScene d).importElements index source = .ok (es.length, s) ∧
      ((∀ e ∈ es, e.IsFinite) → s.document.IsReadBack reader →
        Document.load reader path t' = (.ok s.document, t') ∧ s.document.toLayers = s.layers) ∧
      ((∃ e ∈ es, ¬ e.IsFinite) → ∃ reason,
        Document.load reader path t' = (.error (.invalidScene reason), t')) := by
  obtain ⟨d, summary, hd, houtcome, hsave⟩ := exists_of_importInto h
  obtain ⟨l, es, hl, hes, himport, hlayers⟩ := importElements_of_outcome houtcome
  generalize ((ImportJob.start index source ImportJob.defaultChunk).run Compile.uncancelled
    (openScene d)).2 = s at hsave himport hlayers
  have hfinite : s.document.IsFinite ↔ ∀ e ∈ es, e.IsFinite := by
    rw [Scene.document, hlayers]
    exact Document.isFinite_ofLayers_set_iff
      (isFinite_of_mem_openScene (Document.isFinite_of_load hd)) hl
  have hkept : s.document.toLayers = s.layers := by
    rw [Scene.document, hlayers]
    exact Document.toLayers_ofLayers_set isStorable_of_mem_openScene hl (hwhole l es hes)
  refine ⟨d, l, es, s, hd, hl, hes, himport, fun hall hread => ?_, fun ⟨e, he, hne⟩ => ?_⟩
  · exact ⟨Document.load_save (hfinite.mpr hall) hread hsave, hkept⟩
  · exact ⟨_, Document.load_save_of_not_isFinite (fun h => hne (hfinite.mp h e he)) hsave⟩

/-! ### Requests -/

/-- With any libraries, after an import that succeeds, the scene is loaded with the layers that were
in memory when it was saved, if the reader gets back each float that was saved. For a picture that
is all; for a mesh the scaled coordinates have to be finite, too, and the scene is refused if one of
them is not. -/
theorem load_after_import (given : Libraries) (t t' : FileTree) (scene : String) (layer : ℕ)
    (sparse : Bool) (message : String) :
    (∀ mesh scale,
      (Request.importMesh scene mesh layer scale sparse).perform given t = (.ok message, t') →
      ∃ m d l s, Mesh.load mesh t = (.ok m, t) ∧
        Document.load given.reader scene t = (.ok d, t) ∧
        (openScene d).layers[layer]? = some l ∧
        (openScene d).importElements layer { m with scale, sparse }.source =
          .ok (({ m with scale, sparse }.elements l).length, s) ∧
        ((∀ e ∈ { m with scale, sparse }.elements l, e.IsFinite) →
          s.document.IsReadBack given.reader →
          Document.load given.reader scene t' = (.ok s.document, t') ∧
            s.document.toLayers = s.layers) ∧
        ((∃ e ∈ { m with scale, sparse }.elements l, ¬ e.IsFinite) → ∃ reason,
          Document.load given.reader scene t' = (.error (.invalidScene reason), t'))) ∧
    ∀ picture size realColor, size < UInt32.size →
      (Request.importPicture scene picture layer size realColor sparse).perform given t =
        (.ok message, t') →
      ∃ p d count s, Picture.load given.decoder picture t = (.ok p, t) ∧
        Document.load given.reader scene t = (.ok d, t) ∧
        (openScene d).importElements layer
          ({ p.withSize size with realColor, sparse }.source given.resampler) = .ok (count, s) ∧
        (s.document.IsReadBack given.reader →
          Document.load given.reader scene t' = (.ok s.document, t') ∧
            s.document.toLayers = s.layers) := by
  constructor
  · intro mesh scale h
    obtain ⟨m, between, hm, himport⟩ := bind_eq_ok.mp h
    obtain rfl := (Mesh.load_readsOnly mesh).tree_eq hm
    obtain ⟨d, l, es, s, hd, hl, hes, hs, hfinite, hinfinite⟩ := load_of_importInto
      (fun l es hes e he => by cases hes; exact Mesh.fillTicks_of_mem_elements he) himport
    cases hes
    exact ⟨m, d, l, s, hm, hd, hl, hs, hfinite, hinfinite⟩
  · intro picture size realColor hsize h
    obtain ⟨p, between, hp, himport⟩ := bind_eq_ok.mp h
    obtain rfl := (Picture.load_readsOnly given.decoder picture).tree_eq hp
    obtain ⟨d, l, es, s, hd, hl, hes, hs, hfinite, -⟩ := load_of_importInto
      (fun l es hes e he => by
        obtain ⟨square, rfl⟩ := Picture.exists_square_of_produce hes
        obtain ⟨_, _, _, _, -, -, hwhole⟩ := Picture.exists_of_mem_elements he
        exact hwhole) himport
    obtain ⟨square, rfl⟩ := Picture.exists_square_of_produce hes
    exact ⟨p, d, _, s, hp, hd, hs, hfinite fun e he =>
      Picture.isFinite_of_mem_elements (Picture.side_lt (max_lt hsize (by decide))) he⟩

/-- A scene without layers, a mesh with a distant vertex, and a picture of one pixel. -/
def distantMesh : FileTree :=
  (((({} : FileTree).put ["s.fxgen"] (.file (.text "\x7b\x7d"))).put ["m.obj"]
    (.file (.text "v 1e200 0 0"))).put ["p.bmp"] (.file (.binary Picture.redPixel)))

set_option maxRecDepth 20000 in
lemma load_distantMesh : (Mesh.load "m.obj" distantMesh).1 =
    .ok { vertices := [⟨1e200, 0.0, 0.0⟩], description := "Import m.obj" } := by
  rfl

/-- The answer to the import of one element. -/
def importedOne : String := "Imported 1 of 1 elements into layer 0\n"

set_option maxRecDepth 20000 in
lemma perform_distantMesh :
    ((Request.importMesh "s.fxgen" "m.obj" 0 1e200 false).perform decodingPixel distantMesh).1 =
      .ok importedOne := by
  rfl

set_option maxRecDepth 20000 in
lemma perform_onePixel :
    ((Request.importPicture "s.fxgen" "p.bmp" 0 1 true false).perform decodingPixel distantMesh).1 =
      .ok importedOne := by
  rfl

/-- The scene with the pixel. -/
def onePixel : Document where
  layers :=
    [{ name := "Layer 1"
       tickDelay := 20
       tickEnd := 40
       color := "#000000"
       shapeSize := 20.0
       elements := [{
         kind := .image
         position := ⟨0.0, 0.0⟩
         tickEnd := 40
         color := some "#ff0000" }] }]

set_option maxRecDepth 20000 in
lemma importElements_onePixel :
    ((openScene {}).importElements 0
      (Picture.source { raster := .uniform 1 1 ⟨⟨255, 0, 0⟩, 255⟩, size := 1, realColor := true }
        .nearest)).map (fun answer => answer.2.document) = .ok onePixel := by
  rfl

set_option maxRecDepth 20000 in
lemma load_onePixel : (Picture.load decodingPixel.decoder "p.bmp" distantMesh).1 =
    .ok { raster := .uniform 1 1 ⟨⟨255, 0, 0⟩, 255⟩ } := by
  rfl

set_option maxRecDepth 20000 in
lemma load_distantScene :
    (Document.load decodingPixel.reader "s.fxgen" distantMesh).1 = .ok {} := by
  rfl

lemma onePixel_isReadBack : onePixel.IsReadBack .fast := by
  decide

lemma eq_mk_snd {α β : Type} {x : α × β} {a : α} (h : x.1 = a) : x = (a, x.2) := by
  rw [← h]

/-- A mesh whose scaled coordinates overflow spoils the scene; a picture does not. -/
theorem load_after_import_distantMesh :
    let mesh := (Request.importMesh "s.fxgen" "m.obj" 0 1e200 false).perform decodingPixel
      distantMesh
    let picture := (Request.importPicture "s.fxgen" "p.bmp" 0 1 true false).perform decodingPixel
      distantMesh
    (mesh.1 = .ok importedOne ∧
      ∃ reason, Document.load .fast "s.fxgen" mesh.2 = (.error (.invalidScene reason), mesh.2)) ∧
    1 < UInt32.size ∧ picture.1 = .ok importedOne ∧ onePixel.IsReadBack .fast ∧
      Document.load .fast "s.fxgen" picture.2 = (.ok onePixel, picture.2) := by
  refine ⟨⟨perform_distantMesh, ?_⟩, by decide, perform_onePixel, onePixel_isReadBack, ?_⟩
  · obtain ⟨m, d, l, s, hm, -, -, -, -, hrefused⟩ := (load_after_import decodingPixel distantMesh _
      "s.fxgen" 0 false importedOne).1 "m.obj" 1e200 (eq_mk_snd perform_distantMesh)
    have hmesh := load_distantMesh
    rw [hm] at hmesh
    obtain rfl := Except.ok.inj hmesh
    have hproduct : ¬ (1e200 * 1e200 : Float).isFinite := by decide +kernel
    exact hrefused ⟨_, List.mem_singleton_self _, fun hfinite => hproduct hfinite.x⟩
  · obtain ⟨p, d, count, s, hp, hd, hs, hloaded⟩ := (load_after_import decodingPixel distantMesh _
      "s.fxgen" 0 false importedOne).2 "p.bmp" 1 true (by decide) (eq_mk_snd perform_onePixel)
    have hpicture := load_onePixel
    rw [hp] at hpicture
    obtain rfl := Except.ok.inj hpicture
    have hscene := load_distantScene
    rw [hd] at hscene
    obtain rfl := Except.ok.inj hscene
    have hdocument := congrArg (Except.map fun answer => answer.2.document) hs
    have hsaved : s.document = onePixel :=
      Except.ok.inj (hdocument.symm.trans importElements_onePixel)
    rw [hsaved] at hloaded
    exact (hloaded onePixel_isReadBack).1

end ParticleScene.CommandLine
