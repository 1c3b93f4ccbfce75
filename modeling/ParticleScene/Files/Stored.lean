import ParticleScene.Document
import ParticleScene.Files.Tree
import ParticleScene.Script.Options
import ParticleScene.Source.Mesh
import ParticleScene.Source.Picture

/-!
# Stored data

Documents, settings, meshes and pictures in files. An action takes the file tree to its answer or
failure and to the tree after it; what it has written before it fails stays written.
-/

namespace ParticleScene

/-- An action on files. -/
abbrev FileAction := ExceptT Failure (StateM FileTree)

namespace FileAction

/-- Ask the tree. -/
def ask {α : Type} (f : FileTree → Except Failure α) : FileAction α := fun t => (f t, t)

/-- Change the tree, or fail and leave it. -/
def change (f : FileTree → Except Failure FileTree) : FileAction Unit := fun t =>
  match f t with
  | .ok t => (.ok (), t)
  | .error why => (.error why, t)

end FileAction

open FileAction

/-- A refusal as a failure. -/
def refuse {α : Type} (failure : String → Failure) : Except Refusal α → Except Failure α
  | .ok a => .ok a
  | .error why => .error (failure why.message)

/-- Fail unless a path leads to a node. -/
def requireFile (path : String) : FileAction Unit :=
  ask fun t => if t.exists? path then .ok () else .error (.fileNotFound path)

def readText (path : String) : FileAction String :=
  ask fun t => refuse (.fileUnreadable path) (t.readText path)

def writeText (path text : String) : FileAction Unit :=
  change fun t => refuse (.fileUnwritable path) (t.write path (.text text))

/-- Make a directory and those it lies in, unless something is there already. -/
def ensureDirectory (path : String) : FileAction Unit := fun t =>
  if t.exists? path then (.ok (), t)
  else
    let (made, t) := t.ensureDirectory path
    (refuse (.directoryNotMade path) made, t)

/-- Make the directory that a file lies in. -/
def ensureParent (path : String) : FileAction Unit :=
  match Path.parent? path with
  | none => pure ()
  | some parent => ensureDirectory parent

/-! ### Documents and settings -/

open Json (FloatReader)

/-- Load a document. A file that does not hold one is an invalid scene. -/
def Document.load (reader : FloatReader) (path : String) : FileAction Document := do
  requireFile path
  let text ← readText path
  match Document.ofText reader text with
  | .ok d => pure d
  | .error why => throw (.invalidScene (path ++ ": " ++ why.message))

/-- Save a document, in a new directory if need be. -/
def Document.save (d : Document) (path : String) : FileAction Unit := do
  ensureParent path
  writeText path d.text

def Options.load (reader : FloatReader) (path : String) : FileAction Options := do
  requireFile path
  ask fun t =>
    match t.read path with
    | .ok content => Options.ofSource reader content.chars
    | .error _ => .error .malformedJson

/-- Save options, in a new directory if need be. -/
def Options.save (o : Options) (path : String) : FileAction Unit := do
  ensureParent path
  writeText path o.text

/-! ### Meshes and pictures -/

/-- Load a mesh; its imports are named for the file. -/
def Mesh.load (path : String) : FileAction Mesh := do
  requireFile path
  let text ← readText path
  let mesh ← ask fun _ => Mesh.ofText text
  match Path.fileName? path with
  | some name => pure { mesh with description := "Import " ++ name }
  | none => pure mesh

/-- The pixels of a picture file. Its extension has to name its format. -/
def Picture.decode? (decoder : PictureDecoder) (path : String) (content : Content) :
    Option Raster := do
  let extension ← Path.extension? path
  let format ← PictureFormat.ofExtension? extension
  decoder format content.bytes

def Picture.load (decoder : PictureDecoder) (path : String) : FileAction Picture := do
  requireFile path
  ask fun t =>
    match t.read path with
    | .ok content =>
      match Picture.decode? decoder path content with
      | some raster => .ok { raster }
      | none => .error .undecodableImage
    | .error _ => .error .undecodableImage

end ParticleScene
