import ParticleScene.CommandLine.Request
import ParticleScene.Files.Stored
import ParticleScene.ImportJob
import ParticleScene.Preview

/-!
# Runs

What the program does for a command line: the files after it, what it prints, and its exit
code.
-/

namespace ParticleScene.CommandLine

/-- What a run shows. -/
structure Report where
  exitCode : Nat
  output : String
  errors : String
  deriving Repr, DecidableEq

def versionText : String := "0.1.0"

/-- What the program leaves to libraries. -/
structure Libraries where
  reader : Json.FloatReader
  decoder : PictureDecoder
  resampler : Resampler

/-! ### Texts -/

/-- The text of a cause with its further lines indented like the first one. -/
def indentCause (first rest : String) (cause : String) : String :=
  first ++ String.intercalate ("\n" ++ rest) ((Text.splitOn '\n' cause.toList).map String.ofList)
    ++ "\n"

/-- The causes of a failure. They are numbered if there are two. -/
def causes (why : Failure) : String :=
  match why.innerCause? with
  | none => indentCause "    " "    " why.message
  | some inner =>
    indentCause "    0: " "       " why.message ++ indentCause "    1: " "       " inner

def failureText (context : String) (why : Failure) : String :=
  "Error: " ++ context ++ "\n\nCaused by:\n" ++ causes why

/-- A line across the list of layers. -/
def rule : String := "".pushn '-' 60 ++ "\n"

/-- The row of a layer; hidden ones are marked. -/
def layerRow (l : Layer) (index : Nat) : String :=
  let marker := if l.visible then "    " else "  x "
  let window := s!"ticks {l.tickStart.toInt}..{l.tickEnd.toInt}"
  s!"{marker}{index}: {l.name} ({l.elements.length} elements, {window}, {l.particle} {l.color})\n"

def layerList (s : Scene) : String :=
  if s.layers.isEmpty then "No layers in scene.\n"
  else
    "Layers:\n" ++ rule ++ String.join (s.layers.zipIdx.map fun (l, i) => layerRow l i) ++ rule ++
      s!"Layers: {s.layers.length} | Elements: {s.elementCount}\n"

/-! ### Requests -/

/-- The options of a compilation: those of the settings file, or the default ones, with all that
is given set over them. -/
def Overrides.resolve (reader : Json.FloatReader) (v : Overrides) : FileAction Options := do
  let o ← match v.config with
    | some path => Options.load reader path
    | none => pure {}
  return v.apply o

/-- The name of the layer that every new scene starts with. -/
def firstLayerName : String := "Layer 1"

def loadScene (reader : Json.FloatReader) (path : String) : FileAction Scene :=
  return .ofDocument (← Document.load reader path)

/-- Run a source on a layer of a stored scene, and store the scene. A scene without layers gets
one first. -/
def importInto (reader : Json.FloatReader) (path : String) (layer : Nat) (source : Source) :
    FileAction String := do
  let scene ← loadScene reader path
  let scene := if scene.layers.isEmpty then (scene.addLayer firstLayerName 0).2 else scene
  let (job, shared) := SharedScene.runImport { scene } Compile.uncancelled
    (.start layer source ImportJob.defaultChunk)
  let summary ← liftExcept job.outcome
  let scene ← liftExcept shared.read
  scene.document.save path
  return s!"Imported {summary.appended} of {summary.total} elements into layer {layer}\n"
where
  /-- A result as an action that leaves the files alone. -/
  liftExcept {α : Type} (r : Except Failure α) : FileAction α := FileAction.ask fun _ => r

namespace Request

def perform (given : Libraries) : Request → FileAction String
  | create scene => do
    (Scene.empty.addLayer firstLayerName 0).2.document.save scene
    return s!"Scene created: {scene}\n"
  | info scene => return layerList (← loadScene given.reader scene)
  | compile scene overrides output strict => do
    let options ← overrides.resolve given.reader
    let loaded ← loadScene given.reader scene
    let script ← FileAction.ask fun _ =>
      (ParticleScene.compile options Compile.uncancelled loaded.layers).result
    if strict then FileAction.ask fun _ => script.checkFaults
    match output with
    | none => return script.text
    | some path =>
      writeText path script.text
      return s!"Script written: {path} ({script.lineCount} lines, {script.commandCount} commands)\n"
  | importMesh scene mesh layer scale sparse => do
    let loaded ← Mesh.load mesh
    importInto given.reader scene layer { loaded with scale, sparse }.source
  | importPicture scene picture layer size realColor sparse => do
    let loaded ← Picture.load given.decoder picture
    let loaded := { loaded.withSize size with realColor, sparse }
    importInto given.reader scene layer (loaded.source given.resampler)
  | preview scene output => do
    let layers := (← Document.load given.reader scene).toLayers
    let text := (previewJson layers).indented
    match output with
    | none => return text ++ "\n"
    | some path =>
      writeText path text
      return s!"Preview written: {path} ({(previewPoints layers).length} points)\n"

/-- What the program was doing when a request failed. -/
def context : Request → String
  | create scene => "creating " ++ scene
  | info scene => "reading " ++ scene
  | compile scene .. => "compiling " ++ scene
  | importMesh _ mesh .. => "importing " ++ mesh
  | importPicture _ picture .. => "importing " ++ picture
  | preview scene _ => "previewing " ++ scene

def run (given : Libraries) (r : Request) (t : FileTree) : Report × FileTree :=
  match r.perform given t with
  | (.ok output, t) => (⟨0, output, ""⟩, t)
  | (.error why, t) => (⟨1, "", failureText r.context why⟩, t)

end Request

def run (given : Libraries) (tokens : List String) (t : FileTree) : Report × FileTree :=
  match Call.ofArguments tokens with
  | .banner => (⟨0, s!"AuraFX v{versionText}\nUse --help for available commands\n", ""⟩, t)
  | .version => (⟨0, s!"aurafx {versionText}\n", ""⟩, t)
  | .usage => (⟨2, "", "error: the arguments are not understood\n"⟩, t)
  | .request _ r => r.run given t

end ParticleScene.CommandLine
