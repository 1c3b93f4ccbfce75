import ParticleScene.Number.Shortest

/-!
# Written decimals

How a decimal is laid out as text, and the forms in which the program writes floats: the form of
document files, the form of commands and messages, and a set number of decimal places.
-/

namespace ParticleScene.Number

/-- A digit text of `n` characters stands with its point after the first `k` of them; zeros
fill the gap on either side. -/
def positional (ds : String) (k : Int) : String :=
  let n : Int := ds.length
  if k ≤ 0 then "0." ++ "".pushn '0' (-k).toNat ++ ds
  else if n ≤ k then ds.pushn '0' (k - n).toNat
  else String.ofList (ds.toList.take k.toNat) ++ "." ++ String.ofList (ds.toList.drop k.toNat)

/-- One digit, a point if more follow, and a signed power of ten. -/
def scientific (ds : String) (k : Int) : String :=
  let lead := String.ofList (ds.toList.take 1)
  let rest := String.ofList (ds.toList.drop 1)
  let power := k - 1
  lead ++ (if rest.isEmpty then "" else "." ++ rest) ++ "e" ++
    (if power < 0 then "-" else "+") ++ toString power.natAbs

def sign (negative : Bool) : String :=
  if negative then "-" else ""

/-- The text of a float that is not finite. -/
def special? (x : Float) : Option String :=
  if x.isNaN then some "NaN"
  else if x.isInf then some (sign (isNegative x) ++ "inf")
  else none

/-- A float as commands and messages show it: the shortest digits, never an exponent, no point
in a whole number. Of two equally near decimals the greater one is taken. -/
def plain (x : Float) : String :=
  match special? x with
  | some text => text
  | none =>
    let d := (Binary.ofFloat x).shortest .up
    let ds := toString d.digits
    sign (isNegative x) ++ positional ds (ds.length + d.exponent)

/-! ### Fixed places -/

/-- The whole number nearest to `num / den`; a half goes to the even neighbour. -/
def roundHalfEven (num den : Nat) : Nat :=
  let q := num / den
  match compare (2 * (num % den)) den with
  | .lt => q
  | .gt => q + 1
  | .eq => if q % 2 = 0 then q else q + 1

/-- A number of `10 ^ -places` units written with that many places. -/
def places (places : Nat) (units : Nat) : String :=
  let ds := toString units
  let ds := "".pushn '0' (places + 1 - ds.length) ++ ds
  positional ds (ds.length - places)

/-- A float with a set number of decimal places. A negative sign stays on a value that rounds
to zero. -/
def fixed (n : Nat) (x : Float) : String :=
  match special? x with
  | some text => text
  | none =>
    let b := Binary.ofFloat x
    sign (isNegative x) ++ places n (roundHalfEven (b.numerator * tenTo n) b.denominator)

end ParticleScene.Number
