import ParticleScene.Text.Digits

/-!
# Numbers read from text

The spellings of integers and floats that input fields and command lines accept. No blanks
are allowed inside a number, nor around it.
-/

namespace ParticleScene.Number

open Text

/-- The float nearest to `digits * 10 ^ exponent`; a half goes to the even neighbour, and what
is too great becomes infinite. -/
def ofDecimal (digits : Nat) (exponent : Int) : Float :=
  let size : Int := (toString digits).length + exponent
  if digits = 0 ∨ size < -400 then 0.0
  else if 400 < size then 1.0 / 0.0
  else Float.ofScientific digits (exponent < 0) exponent.natAbs

/-- A float with a sign in front. -/
def signed (negative : Bool) (x : Float) : Float :=
  if negative then -x else x

/-- Split an optional sign off; the flag says whether it is a minus. -/
def splitSign : List Char → Bool × List Char
  | '-' :: rest => (true, rest)
  | '+' :: rest => (false, rest)
  | s => (false, s)

/-- A signed decimal integer between `lo` and `hi`. -/
def integer? (lo hi : Int) (s : List Char) : Option Int := do
  let (negative, rest) := splitSign s
  let n ← natural? rest
  let v : Int := if negative then -(n : Int) else n
  if lo ≤ v ∧ v ≤ hi then some v else none

def int64? (s : String) : Option Int64 :=
  (integer? Int64.minValue.toInt Int64.maxValue.toInt s.toList).map Int64.ofInt

/-- An unsigned integer of at most `hi`; a plus sign may stand before it. -/
def unsigned? (hi : Nat) : List Char → Option Nat
  | '+' :: rest => (natural? rest).filter (· ≤ hi)
  | s => (natural? s).filter (· ≤ hi)

def uint32? (s : String) : Option UInt32 :=
  (unsigned? (UInt32.size - 1) s.toList).map UInt32.ofNat

def count? (s : String) : Option Nat :=
  unsigned? (UInt64.size - 1) s.toList

def bool? : String → Option Bool
  | "true" => some true
  | "false" => some false
  | _ => none

/-- The power of ten after the digits of a float: nothing, or a mark and a signed integer. -/
def power? : List Char → Option Int
  | [] => some 0
  | c :: rest =>
    if c = 'e' ∨ c = 'E' then
      let (negative, ds) := splitSign rest
      (natural? ds).map fun n => if negative then -(n : Int) else n
    else none

/-- An unsigned decimal with an optional point and an optional power of ten. At least one
digit stands before or after the point. -/
def decimal? (s : List Char) : Option (Nat × Int) := do
  let whole := s.takeWhile isAsciiDigit
  let rest := s.dropWhile isAsciiDigit
  let (fraction, rest) := match rest with
    | '.' :: rest => (rest.takeWhile isAsciiDigit, rest.dropWhile isAsciiDigit)
    | rest => ([], rest)
  if whole.isEmpty && fraction.isEmpty then none
  else
    let power ← power? rest
    some (digitsValue (whole ++ fraction), power - fraction.length)

/-- A float: a signed decimal, or one of the words for infinity and NaN in any case. -/
def float? (s : String) : Option Float :=
  let (negative, rest) := splitSign s.toList
  let word := String.ofList (rest.map Char.toLower)
  if word = "inf" ∨ word = "infinity" then some (signed negative (1.0 / 0.0))
  else if word = "nan" then some (signed negative (0.0 / 0.0))
  else (decimal? rest).map fun (ds, e) => signed negative (ofDecimal ds e)

end ParticleScene.Number
