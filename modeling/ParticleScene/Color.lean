import ParticleScene.Failure
import ParticleScene.Number.Binary
import ParticleScene.Text.Blank
import ParticleScene.Text.Digits

/-!
# Colors

Colors are texts of the form `#rrggbb`. The module validates and decodes them, and holds the
running hue of rainbow scripts.
-/

namespace ParticleScene

open Text

/-- A color by its channels. -/
structure Rgb where
  red : UInt8
  green : UInt8
  blue : UInt8
  deriving Repr, DecidableEq

namespace Color

/-- Whether characters are a `#` and six hexadecimal digits. -/
def isHexChars : List Char → Bool
  | '#' :: ds => ds.length == 6 && ds.all isHexDigit
  | _ => false

/-- Whether a text is a `#` and six hexadecimal digits. -/
def isHex (value : String) : Bool :=
  isHexChars value.toList

/-- A color in lower case and without blanks around it. -/
def normalize (value : String) : Except Failure String :=
  if isHex (trim value) then .ok (lowerAscii (trim value))
  else .error (.invalidColor value)

/-- The channel that two characters spell: two digits, or a plus sign and one digit. -/
def channel? (a b : Char) : Option UInt8 :=
  if a = '+' then (hexValue? b).map UInt8.ofNat
  else do
    let hi ← hexValue? a
    let lo ← hexValue? b
    some (UInt8.ofNat (16 * hi + lo))

/-- Three channels of two characters each. -/
def channels? : List Char → Option Rgb
  | [a, b, c, d, e, f] => do
    let red ← channel? a b
    let green ← channel? c d
    let blue ← channel? e f
    some { red, green, blue }
  | _ => none

/-- Decode a color. Blanks around it and any number of `#` before it are passed over. -/
def decode (value : String) : Except Failure Rgb :=
  match channels? ((trimChars value.toList).dropWhile (· = '#')) with
  | some rgb => .ok rgb
  | none => .error (.invalidColor value)

/-- The text of a color, in lower case. -/
def encode (rgb : Rgb) : String :=
  String.ofList ('#' :: hexByte rgb.red ++ hexByte rgb.green ++ hexByte rgb.blue)

/-- Red, green and blue of a hue at full saturation and value, each from zero to one. -/
def ofHueUnit (hue : Float) : Float × Float × Float :=
  let sixth := hue * 6.0
  let sector := Number.floor sixth
  let f := sixth - sector
  let v : Float := 1.0
  let s : Float := 1.0
  let p := v * (1.0 - s)
  let q := v * (1.0 - s * f)
  let t := v * (1.0 - s * (1.0 - f))
  match (Number.truncInt64 sector) % 6 with
  | 0 => (v, t, p)
  | 1 => (q, v, p)
  | 2 => (p, v, t)
  | 3 => (p, q, v)
  | 4 => (t, p, v)
  | _ => (v, p, q)

/-- The fully saturated color of a hue, where zero and one are both red. Channels are cut, not
rounded, to whole numbers. -/
def ofHue (hue : Float) : String :=
  let (r, g, b) := ofHueUnit hue
  let channel (c : Float) : UInt8 := Number.truncByte (c * 255.0)
  encode ⟨channel r, channel g, channel b⟩

end Color

/-- The running hue of a script whose commands cycle through the rainbow. -/
structure Rainbow where
  hue : Float := 0.0
  deriving Repr

namespace Rainbow

/-- How far the hue moves from one command to the next. -/
def hueStep : Float := 0.02

/-- The hue one step further; it starts again when it reaches one. -/
def advance (r : Rainbow) : Rainbow :=
  let hue := r.hue + hueStep
  ⟨if hue < 1.0 then hue else hue - 1.0⟩

/-- The color of the current hue, and the rainbow one step further. -/
def next (r : Rainbow) : String × Rainbow :=
  (Color.ofHue r.hue, r.advance)

/-- The next `n` colors, and the rainbow after them. -/
def take (r : Rainbow) : Nat → List String × Rainbow
  | 0 => ([], r)
  | n + 1 =>
    let (color, r) := r.next
    let (colors, r) := r.take n
    (color :: colors, r)

end Rainbow

end ParticleScene
