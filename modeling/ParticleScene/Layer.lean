import ParticleScene.Element
import ParticleScene.Failure
import ParticleScene.Number.Binary
import ParticleScene.Targeter

/-!
# Layers

A layer is a named list of elements that share their emission parameters.
-/

namespace ParticleScene

/-- A layer. The defaults are those of a layer made in the editor. -/
structure Layer where
  name : String := "Layer"
  /-- Hidden layers are not compiled. -/
  visible : Bool := true
  tickStart : Int64 := 0
  tickEnd : Int64 := 40
  tickDelay : Int64 := 20
  particle : String := "reddust"
  color : String := "#000000"
  alpha : Float := 1.0
  shapeSize : Float := 20.0
  /-- Emissions per command. -/
  repeatCount : UInt32 := 1
  /-- Ticks between them. -/
  repeatInterval : UInt32 := 1
  /-- Added to the vertical offset of every element. -/
  yOffset : Float := 0.0
  targeter : Targeter := .origin
  elements : List Element := []
  deriving Repr

namespace Layer

/-- Bring the fields that scripts rely on into range: alpha between zero and one, one emission
at least and one tick between emissions at least. -/
def normalize (l : Layer) : Layer :=
  { l with
    alpha := if l.alpha.isFinite then Number.cut 0.0 1.0 l.alpha else 1.0
    repeatCount := max l.repeatCount 1
    repeatInterval := max l.repeatInterval 1 }

def addElement (l : Layer) (e : Element) : Layer :=
  { l with elements := l.elements ++ [e] }

def removeElement (l : Layer) (index : Nat) : Except Failure (Element × Layer) :=
  match l.elements[index]? with
  | some e => .ok (e, { l with elements := l.elements.eraseIdx index })
  | none => .error (.elementNotFound l.name index)

/-- Give the layer and all its elements one color. -/
def recolor (l : Layer) (color : String) : Layer :=
  { l with
    color
    elements := l.elements.map fun e => { e with color := some color } }

/-- Whether the layer takes part in a compilation. -/
def isShown (l : Layer) : Bool :=
  l.visible && !l.elements.isEmpty

end Layer

end ParticleScene
