import ParticleScene.Text.Digits
import ParticleScene.Text.Split

/-!
# Runs of lines

A run of equal lines is written once. The length of a run of particle commands goes into the
repeat field of the line: the first place where `repeat=` stands before a decimal digit. Other
lines lose their copies.
-/

namespace ParticleScene.Runs

open Text

/-- The runs of a list: each item with the number of its copies in a row. -/
def group {α : Type} [DecidableEq α] : List α → List (α × Nat)
  | [] => []
  | a :: rest =>
    match group rest with
    | (b, n) :: runs => if a = b then (b, n + 1) :: runs else (a, 1) :: (b, n) :: runs
    | [] => [(a, 1)]

/-- What stands behind a mark at the front of a list. -/
def behind? (mark s : List Char) : Option (List Char) :=
  if mark.isPrefixOf s then some (s.drop mark.length) else none

/-- Whether a mark stands anywhere in a list. -/
def holds (mark : List Char) : List Char → Bool
  | [] => mark.isEmpty
  | c :: rest => (behind? mark (c :: rest)).isSome || holds mark rest

/-- What particle commands are known by. -/
def particleMark : List Char := "effect:particles\x7b".toList

/-- What stands before the digits of a repeat field. -/
def repeatMark : List Char := "repeat=".toList

/-- A text with a repeat field: what stands before the digits, the digits, and the rest. -/
structure RepeatField where
  before : List Char
  digits : List Char
  after : List Char
  deriving Repr, DecidableEq

/-- The first repeat field of a text. -/
def repeatField? : List Char → Option RepeatField
  | [] => none
  | c :: rest =>
    match behind? repeatMark (c :: rest) with
    | some s =>
      if (s.takeWhile isDecimalDigit).isEmpty then
        (repeatField? rest).map fun f => { f with before := c :: f.before }
      else some ⟨repeatMark, s.takeWhile isDecimalDigit, s.dropWhile isDecimalDigit⟩
    | none => (repeatField? rest).map fun f => { f with before := c :: f.before }

/-- The greatest number that a repeat field holds. -/
def maxRepeat : Nat := UInt64.size - 1

/-- The number in a repeat field, if it is spelled in digits from `0` to `9` and not too
great. -/
def RepeatField.value? (f : RepeatField) : Option Nat :=
  (natural? f.digits).filter (· ≤ maxRepeat)

/-- The repeat field of a particle command that holds a number. -/
def particleField? (line : String) : Option (RepeatField × Nat) :=
  if holds particleMark line.toList then do
    let f ← repeatField? line.toList
    let n ← f.value?
    some (f, n)
  else none

/-- The line that stands for a run of `count` copies. -/
def applyRepeat (line : String) (count : Nat) : String :=
  if count ≤ 1 then line
  else match particleField? line with
    | none => line
    | some (f, n) =>
      String.ofList f.before ++ toString (min (n * count) maxRepeat) ++ String.ofList f.after

/-- Write each run of equal lines once. -/
def collapse (lines : List String) : List String :=
  (group lines).map fun (line, count) => applyRepeat line count

end ParticleScene.Runs
