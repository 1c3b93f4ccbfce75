import ParticleScene.Geometry.Motion
import ParticleScene.Source

/-!
# Strokes

The drawing tools work in canvas pixels. A stroke is a list of pixels; a mirror adds the
reflection of each pixel right behind it, and the canvas turns pixels into positions of the
scene.
-/

namespace ParticleScene

/-- A drawing canvas by its size in pixels. -/
structure Canvas where
  width : UInt32 := 800
  height : UInt32 := 600
  deriving Repr, DecidableEq

/-- A point on the canvas. -/
structure Pixel where
  x : Float
  y : Float
  deriving Repr

namespace Canvas

/-- Pixels that make up one unit of the scene. -/
def pixelsPerUnit : Float := 10.0

/-- Half a side, cut to a whole number of pixels. -/
def middle (side : UInt32) : Float :=
  Float.ofNat (side.toNat / 2)

/-- The position of a pixel, measured from the centre of the canvas. -/
def toScene (c : Canvas) (p : Pixel) : Position :=
  ⟨(p.x - middle c.width) / pixelsPerUnit, (p.y - middle c.height) / pixelsPerUnit⟩

end Canvas

/-- Which reflections a drawing tool adds. -/
inductive Mirror where
  | off
  /-- Left and right. -/
  | x
  /-- Top and bottom. -/
  | z
  /-- Through the centre. -/
  | double
  deriving Repr, DecidableEq

/-- The reflection of a pixel, if the mirror adds one. -/
def Mirror.reflect? (m : Mirror) (c : Canvas) (p : Pixel) : Option Pixel :=
  let across := Float.ofNat c.width.toNat - p.x
  let down := Float.ofNat c.height.toNat - p.y
  match m with
  | off => none
  | x => some ⟨across, p.y⟩
  | z => some ⟨p.x, down⟩
  | double => some ⟨across, down⟩

/-- One stroke of a drawing tool. -/
inductive Stroke where
  /-- A single point. -/
  | point (place : Pixel)
  /-- Points spread evenly on a ring. -/
  | circle (centre : Pixel) (radius : Float) (count : Nat)
  /-- Points along the outline of a square. -/
  | square (centre : Pixel) (size : Float) (count : Nat)
  /-- Points from a start toward an end that is left out. -/
  | line (start finish : Pixel) (count : Nat)

namespace Stroke

/-- The kind of the elements that the stroke makes. -/
def kind : Stroke → ElementKind
  | point .. => .free
  | circle .. => .circle
  | square .. => .square
  | line .. => .line

def ringPixel (centre : Pixel) (radius : Float) (count i : Nat) : Pixel :=
  let angle := radians (Float.ofNat i * (360.0 / Float.ofNat count))
  ⟨centre.x + radius * angle.cos, centre.y + radius * angle.sin⟩

/-- Half the side of a square, cut to whole pixels. -/
def halfSide (size : Float) : Int64 :=
  .ofInt (Number.truncInt64 (Number.floor (size / 2.0)))

/-- The distance between points on a side of a square; at least one pixel. -/
def sideStep (size : Float) (count : Nat) : Nat :=
  max (Number.truncNat64 (Number.floor (size / Float.ofNat (max count 1)))) 1

/-- The numbers from the opposite of `half` up to `half`, a step apart. The least number is its
own opposite. -/
def sidePlaces (half : Int64) (step : Nat) : List Int :=
  let first := (-half).toInt
  if half.toInt < first then []
  else (List.range ((half.toInt - first).toNat / step + 1)).map fun i => first + (i * step : Nat)

/-- The outline of a square around the origin: points of the top and bottom sides, then of the
left and right sides. -/
def outline (half : Int64) (step : Nat) : List (Int × Int) :=
  let near := (-half).toInt
  let far := half.toInt
  ((sidePlaces half step).flatMap fun d => [(d, near), (d, far)]) ++
    ((sidePlaces half step).flatMap fun d => [(near, d), (far, d)])

def shift (centre : Pixel) (d : Int × Int) : Pixel :=
  ⟨centre.x + Float.ofInt d.1, centre.y + Float.ofInt d.2⟩

def linePixel (start finish : Pixel) (count i : Nat) : Pixel :=
  let t := Float.ofNat i / Float.ofNat count
  ⟨start.x + (finish.x - start.x) * t, start.y + (finish.y - start.y) * t⟩

/-- The pixels of a stroke. The scale enlarges rings and squares. -/
def pixels (scale : Float) : Stroke → List Pixel
  | point place => [place]
  | circle centre radius count =>
    (List.range count).map (ringPixel centre (radius * scale) count)
  | square centre size count =>
    let size := size * scale
    (outline (halfSide size) (sideStep size count)).map (shift centre)
  | line start finish count => (List.range count).map (linePixel start finish count)

/-- The number of points of a tool that is given none. -/
def defaultCount : Nat := 10

/-- The stroke of a click with a tool of some size in pixels; not every kind of element has a
tool. -/
def click? (tool : ElementKind) (place : Pixel) (size : Float) (count : Nat) : Option Stroke :=
  let count := if count = 0 then defaultCount else count
  match tool with
  | .free => some (.point place)
  | .circle => some (.circle place (Number.floor (size / 2.0)) count)
  | .square => some (.square place size count)
  | .line => some (.line place ⟨place.x + size, place.y⟩ count)
  | _ => none

end Stroke

/-- A stroke with the canvas and the mirror it is drawn with. -/
structure Drawing where
  stroke : Stroke
  canvas : Canvas := {}
  mirror : Mirror := .off
  scale : Float := 1.0

namespace Drawing

/-- The element of a pixel, with the window of the layer. -/
def element (d : Drawing) (l : Layer) (p : Pixel) : Element where
  kind := d.stroke.kind
  position := d.canvas.toScene p
  tickStart := some l.tickStart
  tickEnd := some l.tickEnd

/-- A pixel and its reflection, if there is one. -/
def withReflection (d : Drawing) (p : Pixel) : List Pixel :=
  p :: (d.mirror.reflect? d.canvas p).toList

/-- The elements of a drawing, each reflection right behind its point. -/
def elements (d : Drawing) (l : Layer) : List Element :=
  ((d.stroke.pixels d.scale).flatMap d.withReflection).map (d.element l)

def source (d : Drawing) : Source where
  produce l := .elements (d.elements l)
  description := s!"Draw {d.stroke.kind.tag}"

end Drawing

end ParticleScene
