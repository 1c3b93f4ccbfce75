/-!
# Binary64 values as exact numbers

A finite float is a sign and `mantissa * 2 ^ exponent`. Rounding to whole numbers and cutting
into an integer range are computed on that form.
-/

namespace ParticleScene.Number

def twoTo (n : Nat) : Nat := Nat.pow 2 n

def tenTo (n : Nat) : Nat := Nat.pow 10 n

/-- The magnitude `mantissa * 2 ^ exponent` of a finite float. -/
structure Binary where
  mantissa : Nat
  exponent : Int
  deriving Repr, DecidableEq

/-- Whether the sign bit is set. -/
def isNegative (x : Float) : Bool :=
  twoTo 63 ≤ x.toBits.toNat

/-- The magnitude of a finite float. -/
def Binary.ofFloat (x : Float) : Binary :=
  let bits : Nat := x.toBits.toNat
  let scale : Nat := bits / twoTo 52 % twoTo 11
  let fraction : Nat := bits % twoTo 52
  if scale = 0 then ⟨fraction, -1074⟩ else ⟨twoTo 52 + fraction, (scale : Int) - 1075⟩

namespace Binary

/-- The numerator of the magnitude over `denominator`. -/
def numerator (b : Binary) : Nat :=
  b.mantissa * twoTo b.exponent.toNat

/-- The power of two that the numerator is divided by. -/
def denominator (b : Binary) : Nat :=
  twoTo (-b.exponent).toNat

/-- The greatest whole number that is at most the magnitude. -/
def floor (b : Binary) : Nat :=
  b.numerator / b.denominator

def isWhole (b : Binary) : Bool :=
  b.numerator % b.denominator = 0

end Binary

/-- The greatest integer that is at most a finite float. -/
def floorInt (x : Float) : Int :=
  let b := Binary.ofFloat x
  if isNegative x then
    if b.isWhole then -(b.floor : Int) else -(b.floor : Int) - 1
  else b.floor

/-- The integer part of a finite float, cut toward zero. -/
def truncInt (x : Float) : Int :=
  let b := Binary.ofFloat x
  if isNegative x then -(b.floor : Int) else b.floor

/-- The greatest whole float that is at most `x`; a float that is whole or not finite stands
for itself. -/
def floor (x : Float) : Float :=
  if !x.isFinite || (Binary.ofFloat x).isWhole then x else Float.ofInt (floorInt x)

/-- The integer part of a float, cut to the range from `lo` to `hi`; NaN counts as zero. -/
def clampInt (lo hi : Int) (x : Float) : Int :=
  if x.isNaN then 0
  else if x.isInf then (if isNegative x then lo else hi)
  else max lo (min hi (truncInt x))

/-- The integer part of a float as a 64-bit integer, cut to its range. -/
def truncInt64 (x : Float) : Int :=
  clampInt Int64.minValue.toInt Int64.maxValue.toInt x

/-- The integer part of a float as an unsigned 64-bit integer, cut to its range. -/
def truncNat64 (x : Float) : Nat :=
  (clampInt 0 (UInt64.size - 1 : Nat) x).toNat

/-- A float as a byte: the integer part, cut to the range of a byte. -/
def truncByte (x : Float) : UInt8 :=
  UInt8.ofNat (clampInt 0 255 x).toNat

/-- The lesser of two floats; NaN gives way to the other. -/
def lesser (x y : Float) : Float :=
  if x.isNaN then y else if y < x then y else x

/-- A float cut to the range from `lo` to `hi`; NaN stays. -/
def cut (lo hi x : Float) : Float :=
  if x < lo then lo else if x > hi then hi else x

end ParticleScene.Number
