import ParticleScene.Color
import ParticleScene.Json.Printer
import ParticleScene.Layer

/-!
# Previews

All elements of all layers as plain points with colors, for a viewer. Nothing is animated.
-/

namespace ParticleScene

/-- A point of a preview. -/
structure PreviewPoint where
  x : Float
  y : Float
  z : Float
  color : String

namespace PreviewPoint

def ofElement (l : Layer) (e : Element) : PreviewPoint where
  x := e.position.x
  y := e.yOffset
  z := e.position.z
  color := e.effectiveColor l.color

def rgb (p : PreviewPoint) : Except Failure Rgb :=
  Color.decode p.color

def toJson (p : PreviewPoint) : Json :=
  .object
    [("x", .ofFloat p.x), ("y", .ofFloat p.y), ("z", .ofFloat p.z), ("color", .string p.color)]

end PreviewPoint

/-- The points of all layers, hidden ones included. -/
def previewPoints (ls : List Layer) : List PreviewPoint :=
  ls.flatMap fun l => l.elements.map (PreviewPoint.ofElement l)

def previewJson (ls : List Layer) : Json :=
  .array ((previewPoints ls).map PreviewPoint.toJson)

end ParticleScene
