/-
# Digests

The 256-bit secure hash of a text, over words of 32 bits.  A route's short name is cut from it.

`digest` pads the message to whole blocks (`padMessage`), mixes the blocks into eight words one
after the other (`mix`, sixty-four rounds each), and gives the words back as bytes; `fingerprint`
keeps the first half of them.  Every recursion is structural, on a count of words or of blocks,
so a digest is computed and never assumed.

No law of the hash is used anywhere.  Two routes with one name are the same route only as far as
two texts with one digest are the same text, which cannot be proved of any hash; what is proved
of signatures is therefore about the text that is hashed, not about the digest.
-/
import PathAtlas.Text.Quoted

namespace PathAtlas.Digest

-- Powers are the core ones here, whatever other instances are in scope.
attribute [local instance(2000)] instPowNat

/-! ## 1. Constants -/

/-- The first 32 bits of the fractional parts of the cube roots of the first 64 primes. -/
def roundWords : List UInt32 :=
  [0x428a2f98, 0x71374491, 0xb5c0fbcf, 0xe9b5dba5, 0x3956c25b, 0x59f111f1, 0x923f82a4, 0xab1c5ed5,
   0xd807aa98, 0x12835b01, 0x243185be, 0x550c7dc3, 0x72be5d74, 0x80deb1fe, 0x9bdc06a7, 0xc19bf174,
   0xe49b69c1, 0xefbe4786, 0x0fc19dc6, 0x240ca1cc, 0x2de92c6f, 0x4a7484aa, 0x5cb0a9dc, 0x76f988da,
   0x983e5152, 0xa831c66d, 0xb00327c8, 0xbf597fc7, 0xc6e00bf3, 0xd5a79147, 0x06ca6351, 0x14292967,
   0x27b70a85, 0x2e1b2138, 0x4d2c6dfc, 0x53380d13, 0x650a7354, 0x766a0abb, 0x81c2c92e, 0x92722c85,
   0xa2bfe8a1, 0xa81a664b, 0xc24b8b70, 0xc76c51a3, 0xd192e819, 0xd6990624, 0xf40e3585, 0x106aa070,
   0x19a4c116, 0x1e376c08, 0x2748774c, 0x34b0bcb5, 0x391c0cb3, 0x4ed8aa4a, 0x5b9cca4f, 0x682e6ff3,
   0x748f82ee, 0x78a5636f, 0x84c87814, 0x8cc70208, 0x90befffa, 0xa4506ceb, 0xbef9a3f7, 0xc67178f2]

/-! ## 2. One block -/

/-- The eight words that a block is mixed into. -/
structure State where
  a : UInt32
  b : UInt32
  c : UInt32
  d : UInt32
  e : UInt32
  f : UInt32
  g : UInt32
  h : UInt32

/-- The first 32 bits of the fractional parts of the square roots of the first eight primes. -/
def State.start : State :=
  ⟨0x6a09e667, 0xbb67ae85, 0x3c6ef372, 0xa54ff53a, 0x510e527f, 0x9b05688c, 0x1f83d9ab, 0x5be0cd19⟩

/-- Adds word by word. -/
def State.add (s t : State) : State :=
  ⟨s.a + t.a, s.b + t.b, s.c + t.c, s.d + t.d, s.e + t.e, s.f + t.f, s.g + t.g, s.h + t.h⟩

def State.words (s : State) : List UInt32 := [s.a, s.b, s.c, s.d, s.e, s.f, s.g, s.h]

def rotate (n x : UInt32) : UInt32 := (x >>> n) ||| (x <<< (32 - n))

/-- One round, with its constant and its word of the message. -/
def round (s : State) (constant word : UInt32) : State :=
  let s1 := rotate 6 s.e ^^^ rotate 11 s.e ^^^ rotate 25 s.e
  let choice := (s.e &&& s.f) ^^^ ((~~~s.e) &&& s.g)
  let t1 := s.h + s1 + choice + constant + word
  let s0 := rotate 2 s.a ^^^ rotate 13 s.a ^^^ rotate 22 s.a
  let majority := (s.a &&& s.b) ^^^ (s.a &&& s.c) ^^^ (s.b &&& s.c)
  ⟨t1 + s0 + majority, s.a, s.b, s.c, s.d + t1, s.e, s.f, s.g⟩

/-- The next word of a schedule, of which the last sixteen words are given, the latest first. -/
def nextWord (latest : List UInt32) : UInt32 :=
  let w (back : Nat) : UInt32 := latest.getD (back - 1) 0
  let s0 := rotate 7 (w 15) ^^^ rotate 18 (w 15) ^^^ (w 15 >>> 3)
  let s1 := rotate 17 (w 2) ^^^ rotate 19 (w 2) ^^^ (w 2 >>> 10)
  w 16 + s0 + w 7 + s1

/-- A schedule with so many further words, the latest first. -/
def extend : Nat → List UInt32 → List UInt32
  | 0, latest => latest
  | n + 1, latest => extend n (nextWord latest :: latest)

/-- Mixes a block of sixteen words into a state. -/
def mix (s : State) (block : List UInt32) : State :=
  let schedule := (extend 48 block.reverse).reverse
  s.add ((roundWords.zip schedule).foldl (fun t (k, w) => round t k w) s)

/-! ## 3. Messages -/

def bytesOf (count n : Nat) : List UInt8 :=
  ((List.range count).reverse).map fun i => UInt8.ofNat (n / 256 ^ i)

/-- A message with a single bit, noughts and its length in bits behind it, so that it fills
blocks of 64 bytes. -/
def padMessage (message : List UInt8) : List UInt8 :=
  let noughts := (119 - message.length % 64) % 64
  message ++ 0x80 :: List.replicate noughts 0 ++ bytesOf 8 (8 * message.length)

/-- The words of some bytes, four each. -/
def wordsOf : List UInt8 → List UInt32
  | p :: q :: r :: s :: rest =>
    (p.toUInt32 <<< 24 ||| q.toUInt32 <<< 16 ||| r.toUInt32 <<< 8 ||| s.toUInt32) :: wordsOf rest
  | _ => []

/-- Mixes so many blocks of words into a state, one after the other. -/
def mixAll : Nat → State → List UInt32 → State
  | 0, s, _ => s
  | n + 1, s, words => mixAll n (mix s (words.take 16)) (words.drop 16)

def digest (message : List UInt8) : List UInt8 :=
  let words := wordsOf (padMessage message)
  (mixAll (words.length / 16) .start words).words.flatMap fun w => bytesOf 4 w.toNat

/-- The first half of a text's digest in hexadecimal digits. -/
def fingerprint (s : String) : String :=
  String.ofList (((digest s.toUTF8.toList).take 16).flatMap fun b => Text.hex 2 b.toNat)

end PathAtlas.Digest
