import ParticleScene.Number.Reader
import ParticleScene.Source
import ParticleScene.Text.Split

/-!
# Meshes

The vertices of a mesh text become elements. A vertex line starts with the word `v` and three
finite numbers; all other lines are passed over.
-/

namespace ParticleScene

/-- A vertex of a mesh. -/
structure Vertex where
  x : Float
  y : Float
  z : Float
  deriving Repr

/-- Vertices, ready to be turned into elements. -/
structure Mesh where
  vertices : List Vertex
  /-- Applied to every coordinate. -/
  scale : Float := 1.0
  /-- Only every fourth vertex is kept. -/
  sparse : Bool := false
  description : String := "Import OBJ"

namespace Mesh

def coordinate (word : List Char) : Except String Float :=
  match (Number.float? (String.ofList word)).filter Float.isFinite with
  | some x => .ok x
  | none => .error s!"invalid coordinate '{String.ofList word}'"

/-- The vertex of a line; nothing for a line of another kind. -/
def lineVertex (line : List Char) : Except String (Option Vertex) :=
  match Text.words line with
  | ['v'] :: x :: y :: z :: _ => do
    let x ← coordinate x
    let y ← coordinate y
    let z ← coordinate z
    return some { x, y, z }
  | ['v'] :: _ => .error "vertex needs 3 coordinates"
  | _ => .ok none

/-- The vertices of lines that are counted from `line` on. -/
def readLines (line : Nat) : List (List Char) → Except Failure (List Vertex)
  | [] => .ok []
  | chars :: rest =>
    match lineVertex chars with
    | .error reason => .error (.malformedMesh line reason)
    | .ok vertex => do
      let vertices ← readLines (line + 1) rest
      return vertex.toList ++ vertices

def ofText (text : String) : Except Failure Mesh := do
  let vertices ← readLines 1 (Text.lineChars text.toList)
  return { vertices }

/-- Every `step`-th item of a list, from the first on. -/
def every {α : Type} (step : Nat) (xs : List α) : List α :=
  (xs.zipIdx.filter fun (_, i) => i % step = 0).map (·.1)

/-- The number of vertices of which one is kept in a sparse import. -/
def sparseStep : Nat := 4

/-- The element of a vertex: the mesh lies with its first and third axis in the plane of the
scene, the third one turned round, and its second axis points up. -/
def element (m : Mesh) (l : Layer) (v : Vertex) : Element where
  kind := .obj
  position := ⟨v.x * m.scale, -v.z * m.scale⟩
  yOffset := v.y * m.scale
  tickStart := some l.tickStart
  tickEnd := some l.tickEnd

def elements (m : Mesh) (l : Layer) : List Element :=
  (every (if m.sparse then sparseStep else 1) m.vertices).map (m.element l)

def source (m : Mesh) : Source where
  produce l := .elements (m.elements l)
  description := m.description

end Mesh

end ParticleScene
