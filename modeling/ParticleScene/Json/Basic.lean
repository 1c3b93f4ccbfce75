import ParticleScene.Number.Notation

/-!
# JSON trees

The tree of a JSON text, with its members in the order in which they are written and repeated
keys kept apart. A number is kept as its digits and its power of ten, so that a reader of the
tree decides what range it must fit.
-/

namespace ParticleScene

namespace Json

open Number

/-- A number as written: all digits read as one number, and the power of ten they are scaled
by. -/
structure Literal where
  negative : Bool
  digits : Nat
  exponent : Int
  /-- Neither a fraction nor a power of ten is written. -/
  integral : Bool
  deriving Repr, DecidableEq

def Literal.ofInt (n : Int) : Literal :=
  ⟨n < 0, n.natAbs, 0, true⟩

/-- The place of the point, counted from the first digit, up to which and above which a float
is written without a power of ten. -/
def plainPlaces (k : Int) : Bool :=
  -5 < k && k ≤ 16

/-- A finite float in the fewest digits that read back, with a digit after the point when no
power of ten is written. -/
def Literal.ofFloat (x : Float) : Literal :=
  let d := (Binary.ofFloat x).shortest .even
  let k := (toString d.digits).length + d.exponent
  if plainPlaces k ∧ 0 ≤ d.exponent then
    ⟨isNegative x, d.digits * tenTo (d.exponent.toNat + 1), -1, false⟩
  else ⟨isNegative x, d.digits, d.exponent, false⟩

def Literal.text (n : Literal) : String :=
  let ds := toString n.digits
  let k : Int := ds.length + n.exponent
  sign n.negative ++
    if n.integral then ds
    else if plainPlaces k then positional ds k
    else scientific ds k

/-- A float as documents and answers show it. -/
def floatText (x : Float) : String :=
  (special? x).getD (Literal.ofFloat x).text

end Json

/-- A JSON value. -/
inductive Json where
  | null
  | bool (value : Bool)
  | number (value : Json.Literal)
  | string (value : String)
  /-- A string whose escapes or bytes do not spell characters, or an object with such a string
  as a key: it may stand where nothing reads it. -/
  | garbled
  | array (items : List Json)
  | object (members : List (String × Json))

namespace Json

def ofInt (n : Int) : Json :=
  .number (.ofInt n)

def ofNat (n : Nat) : Json :=
  .ofInt n

/-- A float; one that is not finite has no number and is written as null. -/
def ofFloat (x : Float) : Json :=
  if x.isFinite then .number (.ofFloat x) else .null

end Json

end ParticleScene
