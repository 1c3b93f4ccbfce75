import ParticleScene.Geometry.Motion
import ParticleScene.Text.Blank

/-!
# Elements

An element is one positioned emission point of a layer.
-/

namespace ParticleScene

/-- What made an element. Documents keep it; scripts do not depend on it. -/
inductive ElementKind where
  | free
  | circle
  | square
  | line
  | image
  | obj
  /-- Of unknown origin. -/
  | point
  deriving Repr, DecidableEq

namespace ElementKind

/-- The tag written to documents. -/
def tag : ElementKind → String
  | free => "free"
  | circle => "circle"
  | square => "square"
  | line => "line"
  | image => "image"
  | obj => "obj"
  | point => "point"

/-- The kind of a tag, in any case and with blanks around it; an unknown tag is a point. -/
def ofTag (tag : String) : ElementKind :=
  match Text.lowerAscii (Text.trim tag) with
  | "free" => free
  | "circle" => circle
  | "square" => square
  | "line" => line
  | "image" => image
  | "obj" => obj
  | _ => point

end ElementKind

/-- One emission point. -/
structure Element where
  kind : ElementKind
  position : Position
  /-- Added to the vertical offset of the layer. -/
  yOffset : Float := 0.0
  /-- The color of the layer counts when there is none. -/
  color : Option String := none
  tickStart : Option Int64 := none
  tickEnd : Option Int64 := none
  deriving Repr

namespace Element

/-- The color that the element is drawn with in a layer of the given color. -/
def effectiveColor (e : Element) (layerColor : String) : String :=
  e.color.getD layerColor

end Element

end ParticleScene
