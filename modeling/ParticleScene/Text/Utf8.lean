/-!
# Bytes as characters

The characters that a byte sequence encodes. A byte that belongs to no character is kept apart,
so that a reader can pass over it where nobody asks what it says.
-/

namespace ParticleScene.Text

/-- The character of a list of bytes that encodes exactly one. -/
def charOf? (bytes : List UInt8) : Option Char :=
  match (String.fromUTF8? ⟨bytes.toArray⟩).map String.toList with
  | some [c] => some c
  | _ => none

/-- The character at the front of a byte list, and the number of its bytes. -/
def firstChar? (bytes : List UInt8) : Option (Char × Nat) :=
  [1, 2, 3, 4].findSome? fun n =>
    if n ≤ bytes.length then (charOf? (bytes.take n)).map (·, n) else none

/-- The characters of a byte list, with nothing for each byte that belongs to none. `skip` counts
the bytes that belong to the character before. -/
def charsFrom : Nat → List UInt8 → List (Option Char)
  | _, [] => []
  | skip + 1, _ :: rest => charsFrom skip rest
  | 0, b :: rest =>
    match firstChar? (b :: rest) with
    | some (c, n) => some c :: charsFrom (n - 1) rest
    | none => none :: charsFrom 0 rest

/-- The characters of a byte list, with nothing for each byte that belongs to none. -/
def chars (bytes : List UInt8) : List (Option Char) :=
  charsFrom 0 bytes

def ofBytes? (bytes : List UInt8) : Option String :=
  String.fromUTF8? ⟨bytes.toArray⟩

end ParticleScene.Text
