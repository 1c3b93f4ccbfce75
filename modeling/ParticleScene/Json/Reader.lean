import ParticleScene.Json.Basic
import ParticleScene.Text.Digits

/-!
# Reading JSON

A reader of JSON texts by recursive descent. Each function takes what is left of the source
and returns what it read with the rest. The whole value is read before anyone looks at its
parts, so a string that does not spell characters, or a number out of every range, does no harm
where nobody reads it.
-/

namespace ParticleScene.Json

open Text

/-- The characters of a source; `none` stands for a byte that belongs to no character. -/
abbrev Source := List (Option Char)

/-- Drop blanks. -/
def skipBlanks : Source → Source
  | some ' ' :: rest => skipBlanks rest
  | some '\n' :: rest => skipBlanks rest
  | some '\r' :: rest => skipBlanks rest
  | some '\t' :: rest => skipBlanks rest
  | s => s

/-- Split off the digits at the front. -/
def spanDigits : Source → List Char × Source
  | some c :: rest =>
    if isAsciiDigit c then
      let (ds, rest) := spanDigits rest
      (c :: ds, rest)
    else ([], some c :: rest)
  | s => ([], s)

/-- Digits before the point: a lone zero, or digits that do not start with zero. -/
def wholePart? (s : Source) : Option (List Char × Source) :=
  match spanDigits s with
  | ([], _) => none
  | ('0' :: _ :: _, _) => none
  | (ds, rest) => some (ds, rest)

/-- A point and at least one digit, or nothing. -/
def fraction? : Source → Option (Option (List Char) × Source)
  | some '.' :: rest =>
    match spanDigits rest with
    | ([], _) => none
    | (ds, rest) => some (some ds, rest)
  | s => some (none, s)

/-- The signed power of ten after its mark. -/
def signedPower? (s : Source) : Option (Int × Source) :=
  let (negative, s) : Bool × Source := match s with
    | some '-' :: rest => (true, rest)
    | some '+' :: rest => (false, rest)
    | s => (false, s)
  match spanDigits s with
  | ([], _) => none
  | (ds, rest) => some (if negative then -(digitsValue ds : Int) else digitsValue ds, rest)

/-- A power of ten, or nothing. -/
def power? : Source → Option (Option Int × Source)
  | some c :: rest =>
    if c = 'e' ∨ c = 'E' then (signedPower? rest).map fun (p, rest) => (some p, rest)
    else some (none, some c :: rest)
  | s => some (none, s)

/-- A number without its sign. -/
def magnitude? (negative : Bool) (s : Source) : Option (Literal × Source) := do
  let (whole, s) ← wholePart? s
  let (fraction, s) ← fraction? s
  let (power, s) ← power? s
  let after := fraction.getD []
  let literal : Literal :=
    { negative
      digits := digitsValue (whole ++ after)
      exponent := power.getD 0 - after.length
      integral := fraction.isNone && power.isNone }
  some (literal, s)

/-- A piece of a string literal: a character, half of a character outside the basic plane, or
a byte that belongs to no character. -/
inductive Piece where
  | char (c : Char)
  | high (unit : Nat)
  | low (unit : Nat)
  | stray
  deriving Repr, DecidableEq

/-- The piece that a four-digit escape stands for. -/
def Piece.ofUnit (u : Nat) : Piece :=
  if 0xD800 ≤ u ∧ u < 0xDC00 then .high u
  else if 0xDC00 ≤ u ∧ u < 0xE000 then .low u
  else .char (Char.ofNat u)

/-- The character that a letter stands for behind a backslash. -/
def unescape? (c : Char) : Option Char :=
  if c = '"' ∨ c = '\\' ∨ c = '/' then some c
  else if c = 'b' then some '\x08'
  else if c = 'f' then some '\x0c'
  else if c = 'n' then some '\n'
  else if c = 'r' then some '\r'
  else if c = 't' then some '\t'
  else none

/-- The number that four hexadecimal digits spell. -/
def unit? (a b c d : Char) : Option Nat := do
  let a ← hexValue? a
  let b ← hexValue? b
  let c ← hexValue? c
  let d ← hexValue? d
  some (((a * 16 + b) * 16 + c) * 16 + d)

/-- Put a piece before what follows it. -/
def withPiece (p : Piece) : Option (List Piece × Source) → Option (List Piece × Source) :=
  Option.map fun (ps, rest) => (p :: ps, rest)

/-- The pieces of a string literal up to its closing quote. Control characters and unknown
escapes are refused. -/
def pieces? : Source → Option (List Piece × Source)
  | [] => none
  | some '\\' :: some 'u' :: some a :: some b :: some c :: some d :: rest =>
    match unit? a b c d with
    | some u => withPiece (.ofUnit u) (pieces? rest)
    | none => none
  | some '\\' :: some c :: rest =>
    match unescape? c with
    | some c => withPiece (.char c) (pieces? rest)
    | none => none
  | none :: rest => withPiece .stray (pieces? rest)
  | some c :: rest =>
    if c = '"' then some ([], rest)
    else if c = '\\' ∨ c.toNat < 32 then none
    else withPiece (.char c) (pieces? rest)

/-- The character that two halves make up. -/
def joinHalves (high low : Nat) : Char :=
  Char.ofNat (0x10000 + (high - 0xD800) * 0x400 + (low - 0xDC00))

/-- The characters of a string literal, if every half has its other half behind it and no byte
is stray. -/
def assemble? : List Piece → Option (List Char)
  | [] => some []
  | .char c :: rest => (assemble? rest).map (c :: ·)
  | .high u :: .low v :: rest => (assemble? rest).map (joinHalves u v :: ·)
  | .high _ :: _ => none
  | .low _ :: _ => none
  | .stray :: _ => none

/-- A string after its opening quote, as a value. -/
def stringValue? (s : Source) : Option (Json × Source) := do
  let (ps, rest) ← pieces? s
  some ((assemble? ps).elim .garbled (.string ∘ String.ofList), rest)

/-- A key with its quotes and the colon behind it; `none` for one that does not spell
characters. -/
def key? (s : Source) : Option (Option String × Source) :=
  match skipBlanks s with
  | some '"' :: s => do
    let (ps, s) ← pieces? s
    match skipBlanks s with
    | some ':' :: s => some ((assemble? ps).map String.ofList, s)
    | _ => none
  | _ => none

/-- The object of some members, each with its key if that spells characters. -/
def ofMembers (members : List (Option String × Json)) : Json :=
  match members.mapM fun (key, value) => key.map fun key => (key, value) with
  | some members => .object members
  | none => .garbled

mutual

/-- A value, read with a bound on the number of nested and successive steps. -/
def value? : Nat → Source → Option (Json × Source)
  | 0, _ => none
  | steps + 1, s =>
    match skipBlanks s with
    | some 'n' :: some 'u' :: some 'l' :: some 'l' :: rest => some (.null, rest)
    | some 't' :: some 'r' :: some 'u' :: some 'e' :: rest => some (.bool true, rest)
    | some 'f' :: some 'a' :: some 'l' :: some 's' :: some 'e' :: rest => some (.bool false, rest)
    | some '"' :: rest => stringValue? rest
    | some '-' :: rest => (magnitude? true rest).map fun (n, rest) => (.number n, rest)
    | some '[' :: rest =>
      match skipBlanks rest with
      | some ']' :: rest => some (.array [], rest)
      | rest => (items? steps rest).map fun (items, rest) => (.array items, rest)
    | some '\x7b' :: rest =>
      match skipBlanks rest with
      | some '\x7d' :: rest => some (.object [], rest)
      | rest => (members? steps rest).map fun (members, rest) => (ofMembers members, rest)
    | rest => (magnitude? false rest).map fun (n, rest) => (.number n, rest)

/-- The items of an array that is not empty, and its closing bracket. -/
def items? : Nat → Source → Option (List Json × Source)
  | 0, _ => none
  | steps + 1, s => do
    let (item, s) ← value? steps s
    match skipBlanks s with
    | some ']' :: s => some ([item], s)
    | some ',' :: s => (items? steps s).map fun (items, s) => (item :: items, s)
    | _ => none

/-- The members of an object that is not empty, and its closing bracket. -/
def members? : Nat → Source → Option (List (Option String × Json) × Source)
  | 0, _ => none
  | steps + 1, s => do
    let (key, s) ← key? s
    let (value, s) ← value? steps s
    match skipBlanks s with
    | some '\x7d' :: s => some ([(key, value)], s)
    | some ',' :: s => (members? steps s).map fun (members, s) => ((key, value) :: members, s)
    | _ => none

end

/-- The value that a source holds, with nothing but blanks around it. Every step of the reader
takes a character or opens the first item behind one, so twice the length bounds the steps. -/
def ofSource? (s : Source) : Option Json := do
  let (value, rest) ← value? (2 * s.length + 2) s
  if (skipBlanks rest).isEmpty then some value else none

def ofText? (s : String) : Option Json :=
  ofSource? (s.toList.map some)

end ParticleScene.Json
