import ParticleScene.Document
import ParticleScene.History
import ParticleScene.LayerEdit
import ParticleScene.Color
import ParticleScene.Script.Compile
import ParticleScene.Source

/-!
# Scenes

A scene is a list of layers with the history of its changes. Each operation that succeeds
records one snapshot; one that fails leaves the scene as it is. `Operation` names every
operation, and `perform` runs one and gives its answer together with the scene after it.
-/

namespace ParticleScene

/-- Layers and the history of their changes. -/
structure Scene where
  layers : List Layer
  history : History (List Layer)

namespace Scene

def ofLayers (ls : List Layer) : Scene :=
  ⟨ls, .start History.defaultLimit ls⟩

def empty : Scene := ofLayers []

def ofDocument (d : Document) : Scene :=
  ofLayers d.toLayers

def document (s : Scene) : Document :=
  .ofLayers s.layers

def elementCount (s : Scene) : Nat :=
  (s.layers.flatMap fun l => l.elements).length

def layerAt (s : Scene) (index : Nat) : Except Failure Layer :=
  match s.layers[index]? with
  | some l => .ok l
  | none => .error (.layerNotFound index s.layers.length)

/-- Record the layers in the history. -/
def commit (s : Scene) (action : Action) (description : String) : Scene :=
  { s with history := s.history.push action description s.layers }

/-- Replace the layers and record them. -/
def record (s : Scene) (action : Action) (description : String) (ls : List Layer) : Scene :=
  { s with layers := ls }.commit action description

/-- Replace the layer at an index and record the change. -/
def put (s : Scene) (index : Nat) (action : Action) (description : String) (l : Layer) : Scene :=
  s.record action description (s.layers.set index l)

/-! ### Layers -/

def pushLayer (s : Scene) (l : Layer) : Nat × Scene :=
  (s.layers.length, s.record .layerChange s!"Add layer '{l.name}'" (s.layers ++ [l]))

/-- Add a new layer of a name at the end, and its index. -/
def addLayer (s : Scene) (name : String) (tickStart : Int64) : Nat × Scene :=
  s.pushLayer { name, tickStart }

def removeLayer (s : Scene) (index : Nat) : Except Failure (Layer × Scene) := do
  let l ← s.layerAt index
  return (l, s.record .layerChange s!"Remove layer '{l.name}'" (s.layers.eraseIdx index))

def editLayer (s : Scene) (index : Nat) (e : LayerEdit) : Except Failure Scene := do
  let l ← s.layerAt index
  return s.put index .layerEdit s!"Set {e.field}" (e.apply l)

/-- Set a named field of a layer from raw text. The flag says whether the field is known; for
an unknown one nothing happens. -/
def inputField (s : Scene) (index : Nat) (field raw : String) : Except Failure (Bool × Scene) := do
  let l ← s.layerAt index
  match LayerEdit.ofInput? field raw l with
  | some e => return (true, ← s.editLayer index e)
  | none => return (false, s)

def renameLayer (s : Scene) (index : Nat) (name : String) : Except Failure Scene :=
  s.editLayer index (.name name)

/-- A list with the items at an index and behind it exchanged. -/
def swapWithNext {α : Type} : List α → Nat → List α
  | a :: b :: rest, 0 => b :: a :: rest
  | a :: rest, index + 1 => a :: swapWithNext rest index
  | rest, _ => rest

/-- Move a layer one place to the front, and its index then. The first layer stays. -/
def moveLayerUp (s : Scene) (index : Nat) : Except Failure (Nat × Scene) := do
  let _ ← s.layerAt index
  match index with
  | 0 => return (0, s)
  | before + 1 =>
    return (before, s.record .layerChange "Move layer up" (swapWithNext s.layers before))

/-- Move a layer one place to the back, and its index then. The last layer stays. -/
def moveLayerDown (s : Scene) (index : Nat) : Except Failure (Nat × Scene) := do
  let _ ← s.layerAt index
  if index + 1 < s.layers.length then
    return (index + 1, s.record .layerChange "Move layer down" (swapWithNext s.layers index))
  else return (index, s)

def setLayerColor (s : Scene) (index : Nat) (color : String) : Except Failure Scene := do
  let l ← s.layerAt index
  let color ← Color.normalize color
  return s.put index .layerEdit "Set color" (l.recolor color)

def showAllLayers (s : Scene) : Scene :=
  s.record .layerEdit "Show all layers" (s.layers.map fun l => { l with visible := true })

/-! ### Elements -/

/-- Add elements at the end of a layer, and their number. -/
def appendElements (s : Scene) (index : Nat) (es : List Element) :
    Except Failure (Nat × Scene) := do
  let l ← s.layerAt index
  let n := es.length
  let l := { l with elements := l.elements ++ es }
  return (n, s.put index .elementChange s!"Add {n} elements" l)

/-- Run a source on a layer and put its elements there, and their number. -/
def importElements (s : Scene) (index : Nat) (source : Source) : Except Failure (Nat × Scene) := do
  let l ← s.layerAt index
  let es ← (source.produce l).outcome
  return (es.length, s.put index .imported source.description (l.merge source.mode es))

def removeElement (s : Scene) (index element : Nat) : Except Failure (Element × Scene) := do
  let l ← s.layerAt index
  let (e, l) ← l.removeElement element
  return (e, s.put index .elementChange "Remove element" l)

/-- Take all elements out of a layer. -/
def clearLayer (s : Scene) (index : Nat) : Except Failure Scene := do
  let l ← s.layerAt index
  return s.put index .elementChange "Clear layer" { l with elements := [] }

/-! ### Whole scenes -/

/-- Start again from a document. -/
def load (s : Scene) (d : Document) : Scene where
  layers := d.toLayers
  history := s.history.reset .load "Load scene" d.toLayers

def undo (s : Scene) : Except Failure Scene := do
  let (e, history) ← s.history.undo
  return { layers := e.snapshot, history }

def redo (s : Scene) : Except Failure Scene := do
  let (e, history) ← s.history.redo
  return { layers := e.snapshot, history }

def setLimit (s : Scene) (limit : Nat) : Scene :=
  { s with history := s.history.setLimit limit }

end Scene

/-! ### Operations by name -/

/-- An operation on a scene with its arguments. -/
inductive Operation where
  | addLayer (name : String) (tickStart : Int64)
  | pushLayer (layer : Layer)
  | removeLayer (index : Nat)
  | renameLayer (index : Nat) (name : String)
  | moveLayerUp (index : Nat)
  | moveLayerDown (index : Nat)
  | editLayer (index : Nat) (edit : LayerEdit)
  | inputField (index : Nat) (field raw : String)
  | setLayerColor (index : Nat) (color : String)
  | showAllLayers
  | appendElements (index : Nat) (elements : List Element)
  | importElements (index : Nat) (source : Source)
  | removeElement (index element : Nat)
  | clearLayer (index : Nat)
  | load (document : Document)
  | undo
  | redo
  | setLimit (limit : Nat)

/-- What an operation answers. -/
inductive Answer where
  | done
  | index (value : Nat)
  | count (value : Nat)
  | known (value : Bool)
  | layer (value : Layer)
  | element (value : Element)

namespace Scene

/-- Run an operation that may fail. -/
def attempt (s : Scene) : Operation → Except Failure (Answer × Scene)
  | .addLayer name tickStart => .ok ((s.addLayer name tickStart).map .index id)
  | .pushLayer layer => .ok ((s.pushLayer layer).map .index id)
  | .removeLayer index => (s.removeLayer index).map (·.map .layer id)
  | .renameLayer index name => (s.renameLayer index name).map (.done, ·)
  | .moveLayerUp index => (s.moveLayerUp index).map (·.map .index id)
  | .moveLayerDown index => (s.moveLayerDown index).map (·.map .index id)
  | .editLayer index edit => (s.editLayer index edit).map (.done, ·)
  | .inputField index field raw => (s.inputField index field raw).map (·.map .known id)
  | .setLayerColor index color => (s.setLayerColor index color).map (.done, ·)
  | .showAllLayers => .ok (.done, s.showAllLayers)
  | .appendElements index elements => (s.appendElements index elements).map (·.map .count id)
  | .importElements index source => (s.importElements index source).map (·.map .count id)
  | .removeElement index element => (s.removeElement index element).map (·.map .element id)
  | .clearLayer index => (s.clearLayer index).map (.done, ·)
  | .load document => .ok (.done, s.load document)
  | .undo => s.undo.map (.done, ·)
  | .redo => s.redo.map (.done, ·)
  | .setLimit limit => .ok (.done, s.setLimit limit)

/-- Run an operation: its answer or failure, and the scene after it. -/
def perform (s : Scene) (op : Operation) : Except Failure Answer × Scene :=
  match s.attempt op with
  | .ok (answer, s) => (.ok answer, s)
  | .error why => (.error why, s)

/-- The scene after a list of operations, whether they succeed or not. -/
def performAll (s : Scene) (ops : List Operation) : Scene :=
  ops.foldl (fun s op => (s.perform op).2) s

end Scene

/-! ### Shared scenes -/

/-- A scene behind a lock. A worker that dies while it writes poisons the lock, and after that
nobody can read the scene any more. -/
structure SharedScene where
  scene : Scene
  poisoned : Bool := false

namespace SharedScene

/-- The scene, unless the lock is poisoned. -/
def read (s : SharedScene) : Except Failure Scene :=
  if s.poisoned then .error .lockPoisoned else .ok s.scene

/-- Compile a snapshot of the scene. -/
def compile (s : SharedScene) (o : Options) (signal : Compile.Signal) :
    Except Failure Compile.Outcome :=
  s.read.map fun scene => ParticleScene.compile o signal scene.layers

end SharedScene

end ParticleScene
