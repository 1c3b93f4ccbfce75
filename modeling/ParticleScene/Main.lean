import ParticleScene.CommandLine.Run

/-!
# The program

Brings the files that a command line names into a file tree, runs the program on it, and writes
back what has changed. Floats are read fast. No library is at hand that decodes pictures, so they
are all refused.
-/

namespace ParticleScene.CommandLine

def Request.paths : Request → List String
  | create scene => [scene]
  | info scene => [scene]
  | compile scene overrides output _ => [scene] ++ overrides.config.toList ++ output.toList
  | importMesh scene mesh .. => [scene, mesh]
  | importPicture scene picture .. => [scene, picture]
  | preview scene output => [scene] ++ output.toList

def paths (tokens : List String) : List String :=
  match Call.ofArguments tokens with
  | .request _ r => r.paths
  | _ => []

/-- The number by which the system says that a path leads to a directory. -/
def isDirectoryCode : UInt32 := 21

/-- The node that a path leads to. -/
def probe (path : String) : IO (Option Node) := do
  try
    let bytes ← IO.FS.readBinFile path
    return some (.file (.ofBytes bytes.toList))
  catch
    | .inappropriateType _ code _ =>
      return if code = isDirectoryCode then some .directory else none
    | .noFileOrDirectory .. => return none
    | .invalidArgument .. => return none
    | why => throw why

/-- Bring the nodes on the way along a path into a tree. -/
def gather (t : FileTree) (path : String) : IO FileTree := do
  let mut t := t
  let mut here : Location := []
  for name in Path.steps path do
    match t.step here name with
    | .error _ => break
    | .ok next =>
      if (t.node? next).isNone then
        match ← probe (Path.ofSteps next) with
        | some n => t := t.put next n
        | none => pure ()
      here := next
  return t

/-- Write one node. -/
def store (path : String) : Node → IO Unit
  | .directory => IO.FS.createDir path
  | .file (.text text) => IO.FS.writeFile path text
  | .file (.binary bytes) => IO.FS.writeBinFile path ⟨bytes.toArray⟩

/-- The libraries that the program is built with. -/
def builtWith : Libraries where
  reader := .fast
  decoder _ _ := none
  resampler := .nearest

end ParticleScene.CommandLine

open ParticleScene ParticleScene.CommandLine in
/-- Run the program on the files that its arguments name. -/
def main (args : List String) : IO UInt32 := do
  try
    let before ← (paths args).foldlM gather {}
    let (report, after) := run builtWith args before
    for (path, node) in FileTree.changes before after do
      store path node
    IO.print report.output
    IO.eprint report.errors
    return UInt32.ofNat report.exitCode
  catch why =>
    IO.eprintln ("Error: " ++ toString why)
    return 1
