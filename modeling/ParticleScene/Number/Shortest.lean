import ParticleScene.Number.Binary

/-!
# Shortest decimals

The decimal with the fewest digits that rounds to a given float, and among those the one
nearest to it. All arithmetic is exact: a decimal `c * 10 ^ g` is compared with the ends of
the interval of reals that round to the float by cross-multiplying natural numbers.
-/

namespace ParticleScene.Number

/-- A decimal `digits * 10 ^ exponent`. -/
structure Decimal where
  digits : Nat
  exponent : Int
  deriving Repr, DecidableEq

/-- Which of two equally near decimals is taken. -/
inductive Tie where
  /-- The one whose last digit is even. -/
  | even
  /-- The greater one. -/
  | up
  deriving Repr, DecidableEq

namespace Binary

/-- Whether the next float toward zero is only half as far away as the next one outward. -/
def isNarrowBelow (b : Binary) : Bool :=
  b.mantissa = twoTo 52 && -1074 < b.exponent

/-- Numerator and denominator of the magnitude measured in units of `10 ^ g`, together with
the numerator that a mantissa of one would have. -/
def inUnits (b : Binary) (g : Int) : Nat × Nat × Nat :=
  let one := twoTo b.exponent.toNat * tenTo (-g).toNat
  (b.mantissa * one, b.denominator * tenTo g.toNat, one)

/-- Whether `c * 10 ^ g` lies among the reals that round to the float. The ends of that
interval lie halfway to the neighbours and belong to it when the mantissa is even. -/
def readsBack (b : Binary) (c : Nat) (g : Int) : Bool :=
  let (_, den, one) := b.inUnits g
  let lo := (4 * b.mantissa - (if b.isNarrowBelow then 1 else 2)) * one
  let hi := (4 * b.mantissa + 2) * one
  let c4 := 4 * c * den
  if b.mantissa % 2 = 0 then lo ≤ c4 && c4 ≤ hi else lo < c4 && c4 < hi

/-- The neighbour of the magnitude on the grid of multiples of `10 ^ g` that reads back; of
two, the nearer. -/
def onGrid? (b : Binary) (tie : Tie) (g : Int) : Option Decimal :=
  let (num, den, _) := b.inUnits g
  let below := num / den
  let above := below + 1
  match b.readsBack below g, b.readsBack above g with
  | true, false => some ⟨below, g⟩
  | false, true => some ⟨above, g⟩
  | false, false => none
  | true, true =>
    match compare (2 * (num % den)) den with
    | .lt => some ⟨below, g⟩
    | .gt => some ⟨above, g⟩
    | .eq => some ⟨if tie = .even ∧ below % 2 = 0 then below else above, g⟩

/-- Whether the magnitude is below `10 ^ k`. -/
def isBelowPow (b : Binary) (k : Int) : Bool :=
  let (num, den, _) := b.inUnits k
  num < den

/-- The least `k` such that a positive magnitude is below `10 ^ k`. The estimate from the
binary logarithm is at most two too low. -/
def scale (b : Binary) : Int :=
  let estimate := ((b.mantissa.log2 : Int) + b.exponent) * 30103 / 100000
  if b.isBelowPow estimate then estimate
  else if b.isBelowPow (estimate + 1) then estimate + 1
  else estimate + 2

/-- The first decimal that reads back, among those with `n`, `n + 1`, … digits. -/
def search (b : Binary) (tie : Tie) (scale : Int) : Nat → Nat → Option Decimal
  | 0, _ => none
  | tries + 1, n =>
    (b.onGrid? tie (scale - n)).orElse fun _ => search b tie scale tries (n + 1)

end Binary

/-- Move trailing zeros of the digits into the exponent. -/
def Decimal.strip (d : Decimal) : Nat → Decimal
  | 0 => d
  | tries + 1 =>
    if d.digits ≠ 0 ∧ d.digits % 10 = 0 then
      Decimal.strip ⟨d.digits / 10, d.exponent + 1⟩ tries
    else d

/-- The exact decimal value of a magnitude. -/
def Binary.exact (b : Binary) : Decimal :=
  ⟨b.numerator * Nat.pow 5 (-b.exponent).toNat, -((-b.exponent).toNat : Int)⟩

/-- The shortest decimal that reads back to a magnitude. Seventeen digits suffice for every
float. -/
def Binary.shortest (b : Binary) (tie : Tie) : Decimal :=
  if b.mantissa = 0 then ⟨0, 0⟩
  else ((b.search tie b.scale 17 1).getD b.exact).strip 20

end ParticleScene.Number
