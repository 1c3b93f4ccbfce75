import ParticleScene.Document
import ParticleScene.Text.Digits

/-!
# Digests

The 256-bit secure hash of a byte sequence, and the fingerprint of a document: the digest of
its compact text in hexadecimal digits.
-/

namespace ParticleScene

namespace Digest

/-- The first 32 fraction bits of the cube roots of the first 64 primes. -/
def roundConstants : Array UInt32 := #[
  0x428a2f98, 0x71374491, 0xb5c0fbcf, 0xe9b5dba5, 0x3956c25b, 0x59f111f1, 0x923f82a4, 0xab1c5ed5,
  0xd807aa98, 0x12835b01, 0x243185be, 0x550c7dc3, 0x72be5d74, 0x80deb1fe, 0x9bdc06a7, 0xc19bf174,
  0xe49b69c1, 0xefbe4786, 0x0fc19dc6, 0x240ca1cc, 0x2de92c6f, 0x4a7484aa, 0x5cb0a9dc, 0x76f988da,
  0x983e5152, 0xa831c66d, 0xb00327c8, 0xbf597fc7, 0xc6e00bf3, 0xd5a79147, 0x06ca6351, 0x14292967,
  0x27b70a85, 0x2e1b2138, 0x4d2c6dfc, 0x53380d13, 0x650a7354, 0x766a0abb, 0x81c2c92e, 0x92722c85,
  0xa2bfe8a1, 0xa81a664b, 0xc24b8b70, 0xc76c51a3, 0xd192e819, 0xd6990624, 0xf40e3585, 0x106aa070,
  0x19a4c116, 0x1e376c08, 0x2748774c, 0x34b0bcb5, 0x391c0cb3, 0x4ed8aa4a, 0x5b9cca4f, 0x682e6ff3,
  0x748f82ee, 0x78a5636f, 0x84c87814, 0x8cc70208, 0x90befffa, 0xa4506ceb, 0xbef9a3f7, 0xc67178f2]

/-- The eight words that the hash carries from block to block. -/
structure State where
  a : UInt32
  b : UInt32
  c : UInt32
  d : UInt32
  e : UInt32
  f : UInt32
  g : UInt32
  h : UInt32

/-- The first 32 fraction bits of the square roots of the first eight primes. -/
def State.initial : State where
  a := 0x6a09e667
  b := 0xbb67ae85
  c := 0x3c6ef372
  d := 0xa54ff53a
  e := 0x510e527f
  f := 0x9b05688c
  g := 0x1f83d9ab
  h := 0x5be0cd19

def rotateRight (x : UInt32) (bits : UInt32) : UInt32 :=
  (x >>> bits) ||| (x <<< (32 - bits))

def wordBack (w : Array UInt32) (t back : Nat) : UInt32 :=
  w.getD (t - back) 0

def extend (w : Array UInt32) : Array UInt32 :=
  let t := w.size
  let x := wordBack w t 15
  let y := wordBack w t 2
  let s0 := rotateRight x 7 ^^^ rotateRight x 18 ^^^ (x >>> 3)
  let s1 := rotateRight y 17 ^^^ rotateRight y 19 ^^^ (y >>> 10)
  w.push (wordBack w t 16 + s0 + wordBack w t 7 + s1)

/-- One round with its constant and its word of the schedule. -/
def round (s : State) (k w : UInt32) : State :=
  let s1 := rotateRight s.e 6 ^^^ rotateRight s.e 11 ^^^ rotateRight s.e 25
  let choice := (s.e &&& s.f) ^^^ (~~~s.e &&& s.g)
  let t1 := s.h + s1 + choice + k + w
  let s0 := rotateRight s.a 2 ^^^ rotateRight s.a 13 ^^^ rotateRight s.a 22
  let majority := (s.a &&& s.b) ^^^ (s.a &&& s.c) ^^^ (s.b &&& s.c)
  { a := t1 + (s0 + majority), b := s.a, c := s.b, d := s.c
    e := s.d + t1, f := s.e, g := s.f, h := s.g }

/-- Take one block of sixteen words into the state. -/
def compress (s : State) (block : Array UInt32) : State :=
  let w := Nat.repeat extend 48 block
  let r := (List.range 64).foldl (fun r t => round r (roundConstants.getD t 0) (w.getD t 0)) s
  { a := s.a + r.a, b := s.b + r.b, c := s.c + r.c, d := s.d + r.d
    e := s.e + r.e, f := s.f + r.f, g := s.g + r.g, h := s.h + r.h }

/-- The bytes of a word, greatest first. -/
def wordBytes (w : UInt32) : List UInt8 :=
  [(w >>> 24).toUInt8, (w >>> 16).toUInt8, (w >>> 8).toUInt8, w.toUInt8]

/-- The words that bytes spell, four bytes each. -/
def wordsOfBytes : List UInt8 → List UInt32
  | a :: b :: c :: d :: rest =>
    (a.toUInt32 <<< 24 ||| b.toUInt32 <<< 16 ||| c.toUInt32 <<< 8 ||| d.toUInt32)
      :: wordsOfBytes rest
  | _ => []

/-- A message with the mark, the zeros and the length in bits that fill its last block. -/
def pad (message : List UInt8) : List UInt8 :=
  let n := message.length
  let mark : List UInt8 := 0x80 :: List.replicate ((119 - n % 64) % 64) 0
  let bits := UInt64.ofNat (8 * n)
  message ++ mark ++ wordBytes (bits >>> 32).toUInt32 ++ wordBytes bits.toUInt32

/-- Take words into the state, sixteen at a time. -/
def absorb (s : State) : Nat → List UInt32 → State
  | 0, _ => s
  | blocks + 1, ws => absorb (compress s (ws.take 16).toArray) blocks (ws.drop 16)

def ofBytes (message : List UInt8) : List UInt8 :=
  let ws := wordsOfBytes (pad message)
  let s := absorb .initial (ws.length / 16) ws
  [s.a, s.b, s.c, s.d, s.e, s.f, s.g, s.h].flatMap wordBytes

end Digest

/-- The digest of the compact text of a document, in hexadecimal digits. -/
def Document.fingerprint (d : Document) : String :=
  Text.hexBytes (Digest.ofBytes d.compactText.toUTF8.toList)

end ParticleScene
