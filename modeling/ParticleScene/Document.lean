import ParticleScene.Json.Printer
import ParticleScene.Json.Reader
import ParticleScene.Json.Record
import ParticleScene.Layer

/-!
# Scene documents

The stored form of a list of layers. Records hold exactly what is written, with the defaults of
the file format; layers made from them are in range, and an element made from one always has a
window of ticks. The reader of floats is a parameter of whatever reads a document.
-/

namespace ParticleScene

/-- An element as it is stored. -/
structure ElementRecord where
  kind : ElementKind := .point
  position : Position
  tickStart : Int64 := 0
  tickEnd : Int64 := 20
  yOffset : Float := 0.0
  color : Option String := none
  deriving DecidableEq

/-- A layer as it is stored. -/
structure LayerRecord where
  name : String := "Layer"
  visible : Bool := true
  particle : String := "reddust"
  tickDelay : Int64 := 0
  tickStart : Int64 := 0
  tickEnd : Int64 := 20
  color : String := "#ffffff"
  alpha : Float := 1.0
  shapeSize : Float := 1.0
  repeatCount : Int64 := 1
  repeatInterval : Int64 := 1
  yOffset : Float := 0.0
  targeter : String := Targeter.defaultName
  elements : List ElementRecord := []
  deriving DecidableEq

/-- A stored scene. -/
structure Document where
  layers : List LayerRecord := []
  deriving DecidableEq

/-! ### Layers and records -/

namespace ElementRecord

def ofElement (e : Element) : ElementRecord where
  kind := e.kind
  position := e.position
  tickStart := e.tickStart.getD 0
  tickEnd := e.tickEnd.getD 20
  yOffset := e.yOffset
  color := e.color

def toElement (r : ElementRecord) : Element where
  kind := r.kind
  position := r.position
  yOffset := r.yOffset
  color := r.color
  tickStart := some r.tickStart
  tickEnd := some r.tickEnd

end ElementRecord

/-- A stored count as a count from one to the greatest 32-bit number. -/
def countOfInt (n : Int64) : UInt32 :=
  UInt32.ofNat (min (max n.toInt 1).toNat (UInt32.size - 1))

/-- A count as it is stored. -/
def countToInt (n : UInt32) : Int64 :=
  Int64.ofInt n.toNat

namespace LayerRecord

def ofLayer (l : Layer) : LayerRecord where
  name := l.name
  visible := l.visible
  particle := l.particle
  tickDelay := l.tickDelay
  tickStart := l.tickStart
  tickEnd := l.tickEnd
  color := l.color
  alpha := l.alpha
  shapeSize := l.shapeSize
  repeatCount := countToInt l.repeatCount
  repeatInterval := countToInt l.repeatInterval
  yOffset := l.yOffset
  targeter := l.targeter.text
  elements := l.elements.map ElementRecord.ofElement

/-- The layer of a record, in range. -/
def toLayer (r : LayerRecord) : Layer :=
  Layer.normalize
    { name := r.name
      visible := r.visible
      tickStart := r.tickStart
      tickEnd := r.tickEnd
      tickDelay := r.tickDelay
      particle := r.particle
      color := r.color
      alpha := r.alpha
      shapeSize := r.shapeSize
      repeatCount := countOfInt r.repeatCount
      repeatInterval := countOfInt r.repeatInterval
      yOffset := r.yOffset
      targeter := .parse r.targeter
      elements := r.elements.map ElementRecord.toElement }

end LayerRecord

/-! ### Records and JSON -/

open Json (FloatReader)

namespace ElementRecord

def keys : List String :=
  ["typ", "position", "tick_start", "tick_end", "y_offset", "color"]

/-- A position: an array of two numbers. -/
def position? (reader : FloatReader) (j : Json) : Option Position :=
  match j with
  | .array [x, z] => do
    let x ← x.float? reader
    let z ← z.float? reader
    some { x, z }
  | _ => none

def ofJson? (reader : FloatReader) (j : Json) : Option ElementRecord :=
  match j.fields? keys with
  | some [typ, position, tickStart, tickEnd, yOffset, color] => do
    let kind ← Json.orDefault .point (fun j => j.string?.map ElementKind.ofTag) typ
    let position ← Json.required (position? reader) position
    let tickStart ← Json.orDefault 0 Json.int64? tickStart
    let tickEnd ← Json.orDefault 20 Json.int64? tickEnd
    let yOffset ← Json.orDefault 0.0 (Json.float? reader) yOffset
    let color ← Json.nullable Json.string? color
    some { kind, position, tickStart, tickEnd, yOffset, color }
  | _ => none

/-- Write a stored element; a missing color is left out. -/
def toJson (r : ElementRecord) : Json :=
  .object
    ([("typ", .string r.kind.tag),
      ("position", .array [.ofFloat r.position.x, .ofFloat r.position.z]),
      ("tick_start", .ofInt r.tickStart.toInt),
      ("tick_end", .ofInt r.tickEnd.toInt),
      ("y_offset", .ofFloat r.yOffset)] ++
      match r.color with
      | some color => [("color", .string color)]
      | none => [])

end ElementRecord

namespace LayerRecord

def keys : List String :=
  ["name", "visible", "particle", "tick_delay", "tick_start", "tick_end", "color", "alpha",
   "shape_size", "repeat", "repeat_interval", "y_offset", "targeter", "elements"]

def ofJson? (reader : FloatReader) (j : Json) : Option LayerRecord :=
  match j.fields? keys with
  | some [name, visible, particle, tickDelay, tickStart, tickEnd, color, alpha, shapeSize,
      repeatCount, repeatInterval, yOffset, targeter, elements] => do
    let name ← Json.orDefault "Layer" Json.string? name
    let visible ← Json.orDefault true Json.bool? visible
    let particle ← Json.orDefault "reddust" Json.string? particle
    let tickDelay ← Json.orDefault 0 Json.int64? tickDelay
    let tickStart ← Json.orDefault 0 Json.int64? tickStart
    let tickEnd ← Json.orDefault 20 Json.int64? tickEnd
    let color ← Json.orDefault "#ffffff" Json.string? color
    let alpha ← Json.orDefault 1.0 (Json.float? reader) alpha
    let shapeSize ← Json.orDefault 1.0 (Json.float? reader) shapeSize
    let repeatCount ← Json.orDefault 1 Json.int64? repeatCount
    let repeatInterval ← Json.orDefault 1 Json.int64? repeatInterval
    let yOffset ← Json.orDefault 0.0 (Json.float? reader) yOffset
    let targeter ← Json.orDefault Targeter.defaultName Json.string? targeter
    let elements ← Json.orDefault [] (Json.listOf? (ElementRecord.ofJson? reader)) elements
    some
      { name, visible, particle, tickDelay, tickStart, tickEnd, color, alpha, shapeSize,
        repeatCount, repeatInterval, yOffset, targeter, elements }
  | _ => none

def toJson (r : LayerRecord) : Json :=
  .object
    [("name", .string r.name),
     ("visible", .bool r.visible),
     ("particle", .string r.particle),
     ("tick_delay", .ofInt r.tickDelay.toInt),
     ("tick_start", .ofInt r.tickStart.toInt),
     ("tick_end", .ofInt r.tickEnd.toInt),
     ("color", .string r.color),
     ("alpha", .ofFloat r.alpha),
     ("shape_size", .ofFloat r.shapeSize),
     ("repeat", .ofInt r.repeatCount.toInt),
     ("repeat_interval", .ofInt r.repeatInterval.toInt),
     ("y_offset", .ofFloat r.yOffset),
     ("targeter", .string r.targeter),
     ("elements", .array (r.elements.map ElementRecord.toJson))]

end LayerRecord

namespace Document

def ofLayers (ls : List Layer) : Document :=
  ⟨ls.map LayerRecord.ofLayer⟩

/-- The layers of a document, in range. -/
def toLayers (d : Document) : List Layer :=
  d.layers.map LayerRecord.toLayer

def ofJson? (reader : FloatReader) (j : Json) : Option Document :=
  match j.fields? ["layers"] with
  | some [layers] =>
    (Json.orDefault [] (Json.listOf? (LayerRecord.ofJson? reader)) layers).map Document.mk
  | _ => none

def toJson (d : Document) : Json :=
  .object [("layers", .array (d.layers.map LayerRecord.toJson))]

def ofText (reader : FloatReader) (text : String) : Except Failure Document :=
  match (Json.ofText? text).bind (ofJson? reader) with
  | some d => .ok d
  | none => .error .malformedJson

def text (d : Document) : String :=
  d.toJson.indented

/-- The text on one line, from which fingerprints are taken. -/
def compactText (d : Document) : String :=
  d.toJson.compact

end Document

end ParticleScene
