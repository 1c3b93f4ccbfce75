import ParticleScene.Text.Split

/-!
# Paths

A path is a text of components between slashes. A lone dot names the directory it stands in.
-/

namespace ParticleScene.Path

open Text

def parts (path : String) : List String :=
  (splitOn '/' path.toList).map String.ofList

/-- The parts that name something, with their places: all but empty parts, and dots behind the
first part. -/
def named (path : String) : List (String × Nat) :=
  (parts path).zipIdx.filter fun (part, i) => !part.isEmpty && !(part = "." && 0 < i)

/-- The path of the directory that a path lies in, as it is written. There is none for a lone
name. -/
def parent? (path : String) : Option String :=
  (named path).dropLast.getLast?.map fun (_, i) =>
    String.intercalate "/" ((parts path).take (i + 1))

/-- The last component, unless it is a dot or two dots. -/
def fileName? (path : String) : Option String :=
  match (named path).getLast? with
  | some (part, _) => if part = "." ∨ part = ".." then none else some part
  | none => none

/-- What stands behind the last dot of the last component, if something stands before it. -/
def extension? (path : String) : Option String := do
  let name ← fileName? path
  let (before, after) ← cutAtLast? '.' name.toList
  if before.isEmpty then none else some (String.ofList after)

/-- The step from anywhere to the root of all files. -/
def root : String := "/"

def endsWithSlash (path : String) : Bool :=
  path.toList.getLast? = some '/'

/-- The components of a path. A slash at the front starts at the root. -/
def components (path : String) : List String :=
  let names := (parts path).filter fun part => !part.isEmpty
  if path.toList.head? = some '/' then root :: names else names

/-- The steps that a walk along the path takes. A slash at the end asks for a directory. -/
def steps (path : String) : List String :=
  if endsWithSlash path then components path ++ ["."] else components path

def ofSteps : List String → String
  | first :: rest =>
    if first = root then root ++ String.intercalate "/" rest
    else String.intercalate "/" (first :: rest)
  | [] => "."

/-- Whether a path holds a NUL character, which no path may hold. -/
def hasNul (path : String) : Bool :=
  path.toList.contains '\x00'

/-- The path of a name in a directory, with a slash between them unless there is one. -/
def join (directory name : String) : String :=
  if directory.isEmpty || endsWithSlash directory then directory ++ name
  else directory ++ "/" ++ name

end ParticleScene.Path
