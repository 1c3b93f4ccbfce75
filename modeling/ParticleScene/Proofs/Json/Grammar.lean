import ParticleScene.Json.Reader
import ParticleScene.Proofs.Text.Digits

/-!
# The grammar of JSON

The texts that spell a tree. The grammar says nothing of how a text is read: which blanks, digits
and escapes stand in it is free, and a text may spell strings that are no characters and numbers
out of every range.
-/

namespace ParticleScene.Json

open Text

/-! ### Blanks -/

/-- A text of blanks. -/
def AreBlanks (cs : List Char) : Prop :=
  ∀ c ∈ cs, c ∈ [' ', '\n', '\r', '\t']

lemma areBlanks_nil : AreBlanks [] := by rintro c ⟨⟩

/-! ### Numbers -/

/-- Digits that may stand before a point. -/
structure IsWhole (ds : List Char) : Prop where
  areDigits : AreDigits ds
  ne_nil : ds ≠ []
  unpadded : ∀ d rest, ds ≠ '0' :: d :: rest

/-- The characters of a point and the digits behind it. -/
def fractionChars : Option (List Char) → List Char
  | none => []
  | some ds => '.' :: ds

/-- The texts of a power of ten, which may be missing. -/
inductive SpellsPower : List Char → Option Int → Prop
  | missing : SpellsPower [] none
  | unsigned {mark : Char} {ds : List Char} (hmark : mark = 'e' ∨ mark = 'E') (hds : AreDigits ds)
      (hne : ds ≠ []) : SpellsPower (mark :: ds) (some (digitsValue ds))
  | signed (negative : Bool) {mark : Char} {ds : List Char} (hmark : mark = 'e' ∨ mark = 'E')
      (hds : AreDigits ds) (hne : ds ≠ []) :
      SpellsPower (mark :: (if negative then '-' else '+') :: ds)
        (some (if negative then -(digitsValue ds : Int) else digitsValue ds))

/-- The texts of a number without its sign. -/
inductive SpellsMagnitude : List Char → Literal → Prop
  | parts (negative : Bool) {whole powerChars : List Char} {fraction : Option (List Char)}
      {power : Option Int} (hwhole : IsWhole whole)
      (hfraction : ∀ ds ∈ fraction, AreDigits ds ∧ ds ≠ [])
      (hpower : SpellsPower powerChars power) :
      SpellsMagnitude (whole ++ fractionChars fraction ++ powerChars)
        { negative
          digits := digitsValue (whole ++ fraction.getD [])
          exponent := power.getD 0 - (fraction.getD []).length
          integral := fraction.isNone && power.isNone }

/-! ### Strings -/

/-- The letters that stand behind a backslash, with the characters that they stand for. -/
def shortEscapes : List (Char × Char) :=
  [('"', '"'), ('\\', '\\'), ('/', '/'), ('b', '\x08'), ('f', '\x0c'), ('n', '\n'), ('r', '\r'),
    ('t', '\t')]

/-- The texts of a piece of a string: a character that stands for itself, a short escape, or four
hexadecimal digits. -/
inductive SpellsPiece : List Char → Piece → Prop
  | plain {c : Char} (hquote : c ≠ '"') (hbackslash : c ≠ '\\') (hcontrol : ¬ c.toNat < 32) :
      SpellsPiece [c] (.char c)
  | short {letter c : Char} (h : (letter, c) ∈ shortEscapes) : SpellsPiece ['\\', letter] (.char c)
  | unit {a b c d : Char} {u : Nat} (h : unit? a b c d = some u) :
      SpellsPiece ['\\', 'u', a, b, c, d] (.ofUnit u)

/-- The texts of a string between its quotes. -/
inductive SpellsPieces : List Char → List Piece → Prop
  | nil : SpellsPieces [] []
  | cons {cs rest : List Char} {p : Piece} {ps : List Piece} (hp : SpellsPiece cs p)
      (hps : SpellsPieces rest ps) : SpellsPieces (cs ++ rest) (p :: ps)

/-! ### Values -/

/-- The text of a value in its place, with what stands around it. -/
structure Entry where
  before : List Char := []
  text : List Char
  after : List Char := []
  value : Json

def Entry.chars (e : Entry) : List Char :=
  e.before ++ e.text ++ e.after

/-- Only blanks stand around the value. -/
structure Entry.IsSetApart (e : Entry) : Prop where
  before : AreBlanks e.before
  after : AreBlanks e.after

/-- The text of a key and its value. -/
structure Member where
  before : List Char := []
  /-- The text between the quotes of the key. -/
  quoted : List Char
  pieces : List Piece
  after : List Char := []
  entry : Entry

/-- The key, if it spells characters. -/
def Member.key (m : Member) : Option String :=
  (assemble? m.pieces).map String.ofList

def Member.keyed (m : Member) : Option String × Json :=
  (m.key, m.entry.value)

def Member.chars (m : Member) : List Char :=
  m.before ++ '"' :: (m.quoted ++ '"' :: (m.after ++ ':' :: m.entry.chars))

/-- The key is a string, and only blanks stand around it and around the value. -/
structure Member.IsSetApart (m : Member) : Prop where
  before : AreBlanks m.before
  quoted : SpellsPieces m.quoted m.pieces
  after : AreBlanks m.after
  entry : m.entry.IsSetApart

/-- Texts with commas between them. -/
def joined (texts : List (List Char)) : List Char :=
  [','].intercalate texts

/-- The texts of a tree, without blanks around it. -/
inductive Spells : List Char → Json → Prop
  | null : Spells "null".toList .null
  | true : Spells "true".toList (.bool true)
  | false : Spells "false".toList (.bool false)
  | number {cs : List Char} {n : Literal} (h : SpellsMagnitude cs n) :
      Spells ((if n.negative then ['-'] else []) ++ cs) (.number n)
  | string {cs : List Char} {ps : List Piece} (h : SpellsPieces cs ps) :
      Spells ('"' :: (cs ++ ['"'])) ((assemble? ps).elim .garbled (.string ∘ String.ofList))
  | array {entries : List Entry} {closing : List Char} (hclosing : AreBlanks closing)
      (hapart : ∀ e ∈ entries, e.IsSetApart) (h : ∀ e ∈ entries, Spells e.text e.value) :
      Spells ('[' :: (joined (entries.map Entry.chars) ++ closing ++ [']']))
        (.array (entries.map Entry.value))
  | object {members : List Member} {closing : List Char} (hclosing : AreBlanks closing)
      (hapart : ∀ m ∈ members, m.IsSetApart)
      (h : ∀ m ∈ members, Spells m.entry.text m.entry.value) :
      Spells ('\x7b' :: (joined (members.map Member.chars) ++ closing ++ ['\x7d']))
        (ofMembers (members.map Member.keyed))

/-- The text spells the tree, with nothing but blanks around it. -/
def IsTextOf (text : String) (j : Json) : Prop :=
  ∃ e : Entry, e.IsSetApart ∧ Spells e.text e.value ∧ e.chars = text.toList ∧ e.value = j

end ParticleScene.Json
