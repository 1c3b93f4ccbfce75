/-!
# Parts and lines of a text

A text is cut at a separator, or into lines. A line ends at a line feed, and a carriage return
directly before that line feed belongs to the line end. A last line without a line feed counts
when it is not empty; its carriage returns are kept.
-/

namespace ParticleScene.Text

/-! ### Parts -/

/-- The parts of a list between the places where a separator stands; at least one part. -/
def splitOn {α : Type} [DecidableEq α] (sep : α) : List α → List (List α)
  | [] => [[]]
  | c :: rest =>
    if c = sep then [] :: splitOn sep rest
    else match splitOn sep rest with
      | part :: parts => (c :: part) :: parts
      | [] => [[c]]

/-- What stands before and after the first separator, if there is one. -/
def cutAt? {α : Type} [DecidableEq α] (sep : α) : List α → Option (List α × List α)
  | [] => none
  | c :: rest =>
    if c = sep then some ([], rest)
    else (cutAt? sep rest).map fun (before, after) => (c :: before, after)

/-- What stands before and after the last separator, if there is one. -/
def cutAtLast? {α : Type} [DecidableEq α] (sep : α) (s : List α) : Option (List α × List α) :=
  (cutAt? sep s.reverse).map fun (after, before) => (before.reverse, after.reverse)

/-! ### Lines -/

/-- A line read backwards, without the carriage return of its line end. -/
def closeLine : List Char → List Char
  | '\r' :: line => line.reverse
  | line => line.reverse

/-- Lines of the remaining characters, given the current line and the earlier lines, both
reversed. -/
def linesFrom (line : List Char) (earlier : List (List Char)) : List Char → List (List Char)
  | [] => (if line.isEmpty then earlier else line.reverse :: earlier).reverse
  | '\n' :: rest => linesFrom [] (closeLine line :: earlier) rest
  | c :: rest => linesFrom (c :: line) earlier rest

def lineChars (s : List Char) : List (List Char) :=
  linesFrom [] [] s

def lines (s : String) : List String :=
  (lineChars s.toList).map String.ofList

/-- A text that ends every given line with a line feed. -/
def unlines (ls : List String) : String :=
  String.join (ls.map (· ++ "\n"))

end ParticleScene.Text
