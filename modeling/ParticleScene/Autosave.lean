import ParticleScene.Clock
import ParticleScene.Digest
import ParticleScene.Files.Stored
import ParticleScene.Scene

/-!
# Autosaves

The scene is saved now and then to a directory of backups, under names that tell the time, and
only when its document has changed. The newest few are kept.
-/

namespace ParticleScene

/-- What the user sets about autosaves. -/
structure AutosaveSettings where
  enabled : Bool := true
  intervalSeconds : UInt64 := 30
  maxAutosaves : UInt64 := 10
  deriving Repr, DecidableEq

/-- Read settings; missing fields have their defaults. -/
def AutosaveSettings.ofJson? (j : Json) : Option AutosaveSettings :=
  match j.fields? ["enabled", "interval_seconds", "max_autosaves"] with
  | some [enabled, intervalSeconds, maxAutosaves] => do
    let enabled ← Json.orDefault true Json.bool? enabled
    let intervalSeconds ← Json.orDefault 30 Json.uint64? intervalSeconds
    let maxAutosaves ← Json.orDefault 10 Json.uint64? maxAutosaves
    some { enabled, intervalSeconds, maxAutosaves }
  | _ => none

def AutosaveSettings.ofText (text : String) : Except Failure AutosaveSettings :=
  match (Json.ofText? text).bind ofJson? with
  | some s => .ok s
  | none => .error .malformedJson

/-- The state of autosaving to one directory. -/
structure Autosaver where
  settings : AutosaveSettings := {}
  directory : String
  /-- When the scene was last written, or found unchanged, or failed to be written. -/
  lastSave : Option Moment := none
  /-- The fingerprint of the document that was written last. -/
  lastFingerprint : Option String := none

namespace Autosaver

/-- The interval in seconds as a signed 64-bit number. -/
def interval (a : Autosaver) : Int :=
  a.settings.intervalSeconds.toInt64.toInt

/-- Whether autosaving is switched on and the interval has passed. -/
def isDue (a : Autosaver) (now : Moment) : Bool :=
  a.settings.enabled &&
    match a.lastSave with
    | none => true
    | some last => a.interval ≤ now.secondsSince last

/-! ### Names -/

def nameStart : String := "autosave_"

def nameEnd : String := ".fxgen"

def isAutosaveName (name : String) : Bool :=
  nameStart.toList.isPrefixOf name.toList && nameEnd.toList.isSuffixOf name.toList

/-- The name of the autosave of a stamp; the second and later ones of a stamp are numbered. -/
def autosaveName (stamp : String) : Nat → String
  | 0 => nameStart ++ stamp ++ nameEnd
  | n + 1 => nameStart ++ stamp ++ "_" ++ Moment.padded 3 (n + 1) ++ nameEnd

/-- The first of the paths numbered from `n` on that leads to nothing. -/
def freePath (t : FileTree) (directory stamp : String) : Nat → Nat → String
  | 0, n => Path.join directory (autosaveName stamp n)
  | tries + 1, n =>
    let path := Path.join directory (autosaveName stamp n)
    if t.exists? path then freePath t directory stamp tries (n + 1) else path

/-- The path of the next autosave. One of the first names is free, because there are fewer nodes
than names. -/
def nextPath (t : FileTree) (directory : String) (now : Moment) : String :=
  freePath t directory now.stamp (t.nodes.size + 1) 0

/-! ### Listing and rotating -/

/-- The names of the autosaves in a directory, greatest first. -/
def autosaveNames (t : FileTree) (directory : String) : List String :=
  match t.locate directory with
  | .ok place =>
    ((t.fileNames place).filter isAutosaveName).mergeSort fun a b => !(a < b)
  | .error _ => []

/-- The paths of the autosaves in a directory, newest first. -/
def list (t : FileTree) (directory : String) : List String :=
  (autosaveNames t directory).map (Path.join directory)

def latest? (t : FileTree) (directory : String) : Option String :=
  (list t directory).head?

/-- Take a file away. -/
def removeFile (path : String) : FileAction Unit :=
  FileAction.change fun t => refuse (.fileUnwritable path) ((t.locate path).map t.erase)

/-- Take the autosaves beyond the greatest number away, oldest first. -/
def rotate (a : Autosaver) : FileAction Unit := fun t =>
  let old := (list t a.directory).drop a.settings.maxAutosaves.toNat
  (old.reverse.forM removeFile) t

/-! ### Saving -/

/-- An action on files that also changes the state of autosaving. -/
structure Saved where
  /-- The path that was written, or nothing when nothing had changed. -/
  result : Except Failure (Option String)
  state : Autosaver
  files : FileTree

/-- Save a scene if its document is not the one that was written last. -/
def save (a : Autosaver) (now : Moment) (s : Scene) (t : FileTree) : Saved :=
  let document := s.document
  let fingerprint := document.fingerprint
  if a.lastFingerprint = some fingerprint then ⟨.ok none, { a with lastSave := some now }, t⟩
  else
    match (ensureDirectory a.directory).run t with
    | (.error why, t) => ⟨.error why, a, t⟩
    | (.ok (), t) =>
      let path := nextPath t a.directory now
      match (writeText path document.text).run t with
      | (.error why, t) => ⟨.error why, a, t⟩
      | (.ok (), t) =>
        let a := { a with lastSave := some now, lastFingerprint := some fingerprint }
        let (result, t) := a.rotate.run t
        ⟨result.map fun _ => some path, a, t⟩

def saveShared (a : Autosaver) (now : Moment) (s : SharedScene) (t : FileTree) : Saved :=
  match s.read with
  | .error why => ⟨.error why, a, t⟩
  | .ok scene => a.save now scene t

/-- One round of the timer: save if it is due. A failure is stamped, so that the next attempt
waits for the interval too. -/
def tick (a : Autosaver) (now : Moment) (s : SharedScene) (t : FileTree) : Saved :=
  if a.isDue now then
    let saved := a.saveShared now s t
    match saved.result with
    | .ok _ => saved
    | .error _ => { saved with state := { saved.state with lastSave := some now } }
  else ⟨.ok none, a, t⟩

end Autosaver

end ParticleScene
