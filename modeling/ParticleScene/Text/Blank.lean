/-!
# Blank characters

The characters with the Unicode property `White_Space`, and the two operations on text that
depend on them: cutting blanks off both ends, and splitting text into words.
-/

namespace ParticleScene.Text

/-- Closed ranges of the code points with the property `White_Space`, ascending and apart. -/
def blankRanges : List (Nat × Nat) :=
  [(0x09, 0x0D), (0x20, 0x20), (0x85, 0x85), (0xA0, 0xA0), (0x1680, 0x1680), (0x2000, 0x200A),
   (0x2028, 0x2029), (0x202F, 0x202F), (0x205F, 0x205F), (0x3000, 0x3000)]

def inRanges (ranges : List (Nat × Nat)) (n : Nat) : Bool :=
  ranges.any fun (lo, hi) => lo ≤ n && n ≤ hi

/-- A character that separates words. -/
def isBlank (c : Char) : Bool :=
  inRanges blankRanges c.toNat

/-- Cut the blanks off both ends of a character list. -/
def trimChars (s : List Char) : List Char :=
  ((s.dropWhile isBlank).reverse.dropWhile isBlank).reverse

/-- Cut the blanks off both ends of a text. -/
def trim (s : String) : String :=
  String.ofList (trimChars s.toList)

/-- The maximal runs of characters that are not blank, from `word` (reversed) onward. -/
def wordsFrom (word : List Char) : List Char → List (List Char)
  | [] => if word.isEmpty then [] else [word.reverse]
  | c :: rest =>
    if isBlank c then
      if word.isEmpty then wordsFrom [] rest else word.reverse :: wordsFrom [] rest
    else wordsFrom (c :: word) rest

def words (s : List Char) : List (List Char) :=
  wordsFrom [] s

/-- Letters `A` to `Z` in lower case; every other character stands for itself. -/
def lowerAscii (s : String) : String :=
  String.ofList (s.toList.map Char.toLower)

end ParticleScene.Text
