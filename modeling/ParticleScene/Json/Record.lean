import ParticleScene.Json.FloatReader

/-!
# Records in JSON

A record is written as an object with known keys. It is read from an object in which each known
key stands at most once and other keys are passed over, or from an array that holds its fields
in order and may stop early. What a missing field means is for the record to say.
-/

namespace ParticleScene.Json

def bool? : Json → Option Bool
  | .bool b => some b
  | _ => none

def string? : Json → Option String
  | .string s => some s
  | _ => none

/-- The integer that a literal without fraction and power of ten spells; minus zero is no
integer. -/
def Literal.int? (n : Literal) : Option Int :=
  if !n.integral || (n.negative && n.digits = 0) then none
  else some (if n.negative then -(n.digits : Int) else n.digits)

def intIn? (lo hi : Int) : Json → Option Int
  | .number n => n.int?.filter fun v => lo ≤ v && v ≤ hi
  | _ => none

def int64? (j : Json) : Option Int64 :=
  (intIn? Int64.minValue.toInt Int64.maxValue.toInt j).map Int64.ofInt

def uint64? (j : Json) : Option UInt64 :=
  (intIn? 0 (UInt64.size - 1 : Nat) j).map fun v => UInt64.ofNat v.toNat

/-- A number that a finite float is made of. -/
def float? (reader : FloatReader) : Json → Option Float
  | .number n => some (reader n) |>.filter Float.isFinite
  | _ => none

def items : Json → Option (List Json)
  | .array items => some items
  | _ => none

def listOf? {α : Type} (read : Json → Option α) (j : Json) : Option (List α) := do
  (← j.items).mapM read

/-- The value of a key that stands once, or nothing for one that is missing; a key that stands
twice is refused. -/
def member? (members : List (String × Json)) (key : String) : Option (Option Json) :=
  match members.filter (·.1 = key) with
  | [] => some none
  | [(_, value)] => some (some value)
  | _ => none

/-- The fields of a record in the order of their names, with nothing for a missing one. -/
def fields? (names : List String) : Json → Option (List (Option Json))
  | .object members => names.mapM (member? members)
  | .array items =>
    if items.length ≤ names.length then
      some (items.map some ++ List.replicate (names.length - items.length) none)
    else none
  | _ => none

/-- Read a field that may be missing. -/
def orDefault {α : Type} (default : α) (read : Json → Option α) : Option Json → Option α
  | none => some default
  | some j => read j

/-- Read a field that must be there. -/
def required {α : Type} (read : Json → Option α) : Option Json → Option α
  | none => none
  | some j => read j

/-- Read a field that may be missing or null. -/
def nullable {α : Type} (read : Json → Option α) : Option Json → Option (Option α)
  | none => some none
  | some .null => some none
  | some j => (read j).map some

end ParticleScene.Json
