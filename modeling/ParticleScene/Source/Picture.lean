import ParticleScene.Color
import ParticleScene.Source

/-!
# Pictures

A picture is decoded, brought to a square, every second pixel of every second row is sampled, and
each sample that is opaque enough becomes an element. Its elements take the place of the old ones.

Decoding and resampling are left to a library, and each is a parameter. Nothing is assumed of the
decoder. Of a resampler it is assumed that it leaves a raster alone that has the size already, and
that it keeps the color of a raster of a single color; between different pixels it is free.
-/

namespace ParticleScene

/-- A pixel with its opacity. -/
structure Rgba where
  rgb : Rgb
  alpha : UInt8
  deriving Repr, DecidableEq

/-- Pixels by rows. -/
structure Raster where
  width : Nat
  height : Nat
  pixel : Nat → Nat → Rgba

namespace Raster

def uniform (width height : Nat) (color : Rgba) : Raster where
  width := width
  height := height
  pixel _ _ := color

def ofRows (width : Nat) (rows : List (List Rgba)) : Raster :=
  let rows := (rows.map List.toArray).toArray
  { width
    height := rows.size
    pixel x y := (rows.getD y #[]).getD x ⟨⟨0, 0, 0⟩, 0⟩ }

/-- The raster of a square in which each pixel is the nearest one of the old raster. -/
def nearest (r : Raster) (side : Nat) : Raster where
  width := side
  height := side
  pixel x y := r.pixel (x * r.width / side) (y * r.height / side)

end Raster

/-! ### What a library does -/

/-- The formats of picture files. -/
inductive PictureFormat where
  | png
  | jpeg
  | bmp
  deriving Repr, DecidableEq

/-- The format that the extension of a file names, in any case. -/
def PictureFormat.ofExtension? (extension : String) : Option PictureFormat :=
  match Text.lowerAscii extension with
  | "png" | "apng" => some png
  | "jpg" | "jpeg" | "jfif" => some jpeg
  | "bmp" => some bmp
  | _ => none

/-- The pixels of a picture file in a format, unless its bytes cannot be decoded. -/
abbrev PictureDecoder := PictureFormat → List UInt8 → Option Raster

/-- A way to bring rasters to squares. -/
structure Resampler where
  /-- The square of a side; nothing when the library stops. -/
  square? : Raster → Nat → Option Raster
  /-- A raster of the size keeps its pixels. -/
  of_fits (r : Raster) (side : Nat) : r.width = side → r.height = side →
    ∃ square, square? r side = some square ∧
      ∀ x < side, ∀ y < side, square.pixel x y = r.pixel x y
  /-- A raster of a single color, if it has any pixels, keeps the color. -/
  of_uniform (width height : Nat) (color : Rgba) (side : Nat) (square : Raster) :
    0 < width → 0 < height → square? (.uniform width height color) side = some square →
    ∀ x < side, ∀ y < side, square.pixel x y = color

/-- The resampler that takes the nearest pixels. -/
def Resampler.nearest : Resampler where
  square? r side := some (r.nearest side)
  of_fits r side hwidth hheight := by
    subst hwidth
    refine ⟨_, rfl, fun x hx y hy => ?_⟩
    have hside : 0 < r.width := Nat.zero_lt_of_lt hx
    simp only [Raster.nearest, hheight, Nat.mul_div_cancel _ hside]
  of_uniform width height color side square _ _ h := by
    cases h
    exact fun _ _ _ _ => rfl

/-! ### Pictures -/

/-- A picture to import. -/
structure Picture where
  raster : Raster
  size : Nat := 20
  /-- Halve the size and drop faint pixels. -/
  sparse : Bool := false
  /-- Give elements the colors of their pixels. -/
  realColor : Bool := false

namespace Picture

/-- Set the size; it is at least one. -/
def withSize (p : Picture) (size : Nat) : Picture :=
  { p with size := max size 1 }

/-- The side of the sampled square. -/
def side (p : Picture) : Nat :=
  if p.sparse then max (p.size / 2) 4 else p.size

def keeps (p : Picture) (alpha : UInt8) : Bool :=
  if p.sparse then 100 ≤ alpha else 0 < alpha

/-- The places that are sampled along a side. -/
def places (p : Picture) : List Nat :=
  (List.range ((p.side + 1) / 2)).map (2 * ·)

/-- The offset of a place from the middle of a side, ten pixels a unit. -/
def offset (p : Picture) (place : Nat) : Float :=
  (Float.ofNat place - Float.ofNat (p.side / 2)) / 10.0

/-- The color of elements that do not take their pixel's. -/
def flatColor : String := "#000000"

/-- The element of a sample, if it is opaque enough. -/
def element? (p : Picture) (l : Layer) (square : Raster) (x y : Nat) : Option Element :=
  let sample := square.pixel x y
  if p.keeps sample.alpha then
    some
      { kind := .image
        position := ⟨p.offset x, p.offset y⟩
        color := some (if p.realColor then Color.encode sample.rgb else flatColor)
        tickStart := some l.tickStart
        tickEnd := some l.tickEnd }
  else none

/-- The elements of the samples of a square. -/
def elements (p : Picture) (l : Layer) (square : Raster) : List Element :=
  p.places.flatMap fun y => p.places.filterMap fun x => p.element? l square x y

def source (p : Picture) (resampler : Resampler) : Source where
  produce l :=
    match resampler.square? p.raster p.side with
    | some square => .elements (p.elements l square)
    | none => .crashed
  mode := .replace
  description := "Import image"

end Picture

end ParticleScene
