import ParticleScene.Json.Basic
import ParticleScene.Number.Reader

/-!
# Floats from numbers

Which float a library makes of a number is its own choice, and whoever reads documents takes that
choice as a parameter. Two of them are given here: the float nearest to the number, and the float
that a fast reader gets by rounding the digits first and scaling them afterwards, so that it may
miss the nearest one.
-/

namespace ParticleScene.Json

open Number

/-- The float that is made of a number. The number is refused if that float is not finite. -/
abbrev FloatReader := Literal → Float

namespace FloatReader

/-- The float nearest to a number. -/
def nearest : FloatReader := fun n =>
  signed n.negative (ofDecimal n.digits n.exponent)

/-- The first digits of a number, as many as make up an integer of 64 bits, and the power of ten
that they are scaled by when the other ones are dropped. -/
def leading (n : Literal) : Nat × Int :=
  let count := (toString n.digits).length
  let dropped :=
    if n.digits / tenTo (count - 20) < UInt64.size then count - 20 else count - 19
  (n.digits / tenTo dropped, n.exponent + dropped)

/-- The greatest power of ten that is a float. -/
def greatestPower : Nat := 308

/-- A power of ten, rounded to a float. -/
def powerOfTen (power : Nat) : Float :=
  ofDecimal 1 power

/-- An integer of 64 bits divided by a power of ten, of which no more is taken at once than a float
can hold. Two divisions by the greatest such power leave nothing. -/
def overPower (x : Float) (power : Nat) : Float :=
  if power ≤ greatestPower then x / powerOfTen power
  else if power ≤ 2 * greatestPower then
    x / powerOfTen greatestPower / powerOfTen (power - greatestPower)
  else 0.0

/-- The leading digits as a float, multiplied or divided by a power of ten: two roundings, where the
nearest float takes one. -/
def fast : FloatReader := fun n =>
  let (digits, exponent) := leading n
  let x := Float.ofNat digits
  signed n.negative <|
    if digits = 0 then 0.0
    else if 0 ≤ exponent then x * powerOfTen exponent.toNat
    else overPower x exponent.natAbs

/-- A float is read back from the number that it is written as. -/
def ReadsBack (reader : FloatReader) (x : Float) : Prop :=
  reader (.ofFloat x) = x

instance (reader : FloatReader) (x : Float) : Decidable (reader.ReadsBack x) :=
  inferInstanceAs (Decidable (_ = _))

/-- The product of 0.1 and 1.1 is greater than 0.11 by one bit, and its seventeen digits do not fit
into the digits of a float. -/
example : fast (.ofFloat (0.1 * 1.1)) = 0.11 ∧ ¬ fast.ReadsBack (0.1 * 1.1) := by decide +kernel

end FloatReader

end ParticleScene.Json
