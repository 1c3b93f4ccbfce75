import ParticleScene.Failure
import ParticleScene.Files.Path
import ParticleScene.Text.Utf8
import Std.Data.TreeMap

/-!
# File trees

The files that the program sees: a tree of directories and regular files below a working
directory. Reading and writing refuse for the same causes as a file system does.
-/

namespace ParticleScene

/-- What a regular file holds. -/
inductive Content where
  | text (value : String)
  /-- Bytes that do not encode a text. -/
  | binary (bytes : List UInt8)

def Content.ofBytes (bytes : List UInt8) : Content :=
  match Text.ofBytes? bytes with
  | some value => text value
  | none => binary bytes

def Content.text? : Content → Option String
  | text value => some value
  | _ => none

/-- The characters of a content, with nothing for each byte that belongs to none. -/
def Content.chars : Content → List (Option Char)
  | text value => value.toList.map some
  | binary bytes => Text.chars bytes

def Content.bytes : Content → List UInt8
  | text value => value.toUTF8.toList
  | binary bytes => bytes

/-- A node of a tree. -/
inductive Node where
  | directory
  | file (content : Content)

/-- Why the file system refuses. -/
inductive Refusal where
  | notFound
  | exists
  | notADirectory
  | isADirectory
  | nameTooLong
  | nulInName
  | notText
  deriving Repr, DecidableEq

def Refusal.message : Refusal → String
  | notFound => "No such file or directory (os error 2)"
  | .exists => "File exists (os error 17)"
  | notADirectory => "Not a directory (os error 20)"
  | isADirectory => "Is a directory (os error 21)"
  | nameTooLong => "File name too long (os error 36)"
  | nulInName => "file name contained an unexpected NUL byte"
  | notText => "stream did not contain valid UTF-8"

/-- Where a node lies: the names on the way to it from the working directory. Outside of that
directory a location starts with steps up, or with the root. -/
abbrev Location := List String

/-- Whether a location is the working directory or a directory around it. -/
def Location.isAround (place : Location) : Bool :=
  place.all (· = "..")

/-- Whether a location is the working directory or lies below it. -/
def Location.isBelow (place : Location) : Bool :=
  !(place.head? = some ".." || place.head? = some Path.root)

/-- The location one step up. Above the root there is nothing. -/
def Location.up (place : Location) : Location :=
  if place.isAround then place ++ [".."]
  else if place = [Path.root] then place
  else place.dropLast

/-- The nodes that are known, by their locations. -/
structure FileTree where
  nodes : Std.TreeMap Location Node := ∅

namespace FileTree

/-- The node at a location. The working directory, those around it and the root are always
there. -/
def node? (t : FileTree) (place : Location) : Option Node :=
  if place.isAround || place = [Path.root] then some .directory
  else t.nodes[place]?

/-- Put a node at a location, in place of the one that is there. -/
def put (t : FileTree) (place : Location) (n : Node) : FileTree :=
  ⟨t.nodes.insert place n⟩

/-- Take the node at a location away. -/
def erase (t : FileTree) (place : Location) : FileTree :=
  ⟨t.nodes.erase place⟩

/-- The greatest number of bytes in a name. -/
def maxName : Nat := 255

/-- The greatest number of bytes in a path. -/
def maxPath : Nat := 4095

/-- Why a path is refused before any walk along it. -/
def pathFault? (path : String) : Option Refusal :=
  if Path.hasNul path then some .nulInName
  else if maxPath < path.utf8ByteSize then some .nameTooLong
  else if path.isEmpty then some .notFound
  else none

/-- One step of a walk that stands at `here`, which must be a directory. -/
def step (t : FileTree) (here : Location) (name : String) : Except Refusal Location :=
  match t.node? here with
  | none => .error .notFound
  | some (.file _) => .error .notADirectory
  | some .directory =>
    if name = "." then .ok here
    else if name = ".." then .ok here.up
    else if name = Path.root then .ok [Path.root]
    else if maxName < name.utf8ByteSize then .error .nameTooLong
    else .ok (here ++ [name])

/-- Walk along a path, taking given steps. What the last one leads to need not be there;
everything before must be. -/
def walk (t : FileTree) (path : String) (steps : List String) : Except Refusal Location :=
  match pathFault? path with
  | some why => .error why
  | none => steps.foldlM t.step []

/-- The place that a path leads to. -/
def locate (t : FileTree) (path : String) : Except Refusal Location :=
  t.walk path (Path.steps path)

/-- The node that a path leads to. -/
def lookup (t : FileTree) (path : String) : Except Refusal Node := do
  let place ← t.locate path
  match t.node? place with
  | some n => .ok n
  | none => .error .notFound

def exists? (t : FileTree) (path : String) : Bool :=
  (t.lookup path).isOk

/-- The content of the file that a path leads to. -/
def read (t : FileTree) (path : String) : Except Refusal Content := do
  match ← t.lookup path with
  | .file content => .ok content
  | .directory => .error .isADirectory

def readText (t : FileTree) (path : String) : Except Refusal String := do
  match (← t.read path).text? with
  | some text => .ok text
  | none => .error .notText

/-- The directory in which the last component of a path is looked up. -/
def parentOf (t : FileTree) (path : String) : Except Refusal Location := do
  let place ← t.walk path (Path.components path).dropLast
  match t.node? place with
  | some .directory => .ok place
  | some (.file _) => .error .notADirectory
  | none => .error .notFound

/-- Write a file: a new one, or in place of the old content. A slash at the end names a
directory, whatever is there. -/
def write (t : FileTree) (path : String) (content : Content) : Except Refusal FileTree := do
  if Path.endsWithSlash path then
    let _ ← t.parentOf path
    .error .isADirectory
  else
    let place ← t.locate path
    match t.node? place with
    | some .directory => .error .isADirectory
    | _ => .ok (t.put place (.file content))

def isDirectory (t : FileTree) (path : String) : Bool :=
  match t.lookup path with
  | .ok .directory => true
  | _ => false

/-- Make one directory where nothing is yet. -/
def makeDirectory (t : FileTree) (path : String) : Except Refusal FileTree := do
  let place ← t.walk path (Path.components path)
  match t.node? place with
  | some _ => .error .exists
  | none => .ok (t.put place .directory)

/-- Walk on from `here`, making the directories that are not there yet. Those that were made
before a refusal stay. -/
def makeMissing (t : FileTree) (here : Location) : List String → Except Refusal Unit × FileTree
  | [] => (.ok (), t)
  | name :: rest =>
    match t.step here name with
    | .error why => (.error why, t)
    | .ok next =>
      match t.node? next with
      | some .directory => makeMissing t next rest
      | some (.file _) => (.error .exists, t)
      | none => makeMissing (t.put next .directory) next rest

/-- Make a directory unless it is there already, and if it lies in missing ones, those too. -/
def ensureDirectory (t : FileTree) (path : String) : Except Refusal Unit × FileTree :=
  match t.makeDirectory path with
  | .ok t => (.ok (), t)
  | .error .notFound => t.makeMissing [] (Path.components path)
  | .error why => (if t.isDirectory path then .ok () else .error why, t)

/-- The regular files below the working directory with their paths. -/
def files (t : FileTree) : List (String × Content) :=
  t.nodes.toList.filterMap fun
    | (l, .file content) => if l.isBelow then some (Path.ofSteps l, content) else none
    | (_, .directory) => none

/-- The nodes of a tree that are not in an older one, or hold another text there. A directory
comes before what lies in it. -/
def changes (old t : FileTree) : List (String × Node) :=
  let changed := t.nodes.toList.filter fun (l, n) =>
    match n, old.node? l with
    | .directory, some .directory => false
    | .file new, some (.file before) => new.text? != before.text?
    | _, _ => true
  changed.map fun (l, n) => (Path.ofSteps l, n)

/-- The names of the regular files directly in the directory at a location. -/
def fileNames (t : FileTree) (directory : Location) : List String :=
  t.nodes.toList.filterMap fun
    | (l, .file _) => if l.dropLast = directory then l.getLast? else none
    | (_, .directory) => none

end FileTree

end ParticleScene
