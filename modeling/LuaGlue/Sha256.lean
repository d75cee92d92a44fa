import LuaGlue.Text.Hex

/-!
# SHA-256

The digest of a message, and the fingerprint of a text: the digest of its UTF-8 bytes as sixty-four
lower-case hexadecimal digits.
-/

namespace LuaGlue.Sha256

structure State where
  a : UInt32
  b : UInt32
  c : UInt32
  d : UInt32
  e : UInt32
  f : UInt32
  g : UInt32
  h : UInt32
  deriving DecidableEq

def State.initial : State :=
  ⟨0x6a09e667, 0xbb67ae85, 0x3c6ef372, 0xa54ff53a, 0x510e527f, 0x9b05688c, 0x1f83d9ab, 0x5be0cd19⟩

def State.words (s : State) : List UInt32 := [s.a, s.b, s.c, s.d, s.e, s.f, s.g, s.h]

def State.add (s t : State) : State :=
  ⟨s.a + t.a, s.b + t.b, s.c + t.c, s.d + t.d, s.e + t.e, s.f + t.f, s.g + t.g, s.h + t.h⟩

def roundConstants : List UInt32 :=
  [0x428a2f98, 0x71374491, 0xb5c0fbcf, 0xe9b5dba5, 0x3956c25b, 0x59f111f1, 0x923f82a4, 0xab1c5ed5,
   0xd807aa98, 0x12835b01, 0x243185be, 0x550c7dc3, 0x72be5d74, 0x80deb1fe, 0x9bdc06a7, 0xc19bf174,
   0xe49b69c1, 0xefbe4786, 0x0fc19dc6, 0x240ca1cc, 0x2de92c6f, 0x4a7484aa, 0x5cb0a9dc, 0x76f988da,
   0x983e5152, 0xa831c66d, 0xb00327c8, 0xbf597fc7, 0xc6e00bf3, 0xd5a79147, 0x06ca6351, 0x14292967,
   0x27b70a85, 0x2e1b2138, 0x4d2c6dfc, 0x53380d13, 0x650a7354, 0x766a0abb, 0x81c2c92e, 0x92722c85,
   0xa2bfe8a1, 0xa81a664b, 0xc24b8b70, 0xc76c51a3, 0xd192e819, 0xd6990624, 0xf40e3585, 0x106aa070,
   0x19a4c116, 0x1e376c08, 0x2748774c, 0x34b0bcb5, 0x391c0cb3, 0x4ed8aa4a, 0x5b9cca4f, 0x682e6ff3,
   0x748f82ee, 0x78a5636f, 0x84c87814, 0x8cc70208, 0x90befffa, 0xa4506ceb, 0xbef9a3f7, 0xc67178f2]

/-- The word rotated right by `n` places, for `n` from 1 to 31. -/
def rotateRight (w : UInt32) (n : UInt32) : UInt32 := (w >>> n) ||| (w <<< (32 - n))

/-- The word that follows sixteen words of the schedule. -/
def nextWord (window : List UInt32) : UInt32 :=
  let word := fun i => window.getD i 0
  let s0 := rotateRight (word 1) 7 ^^^ rotateRight (word 1) 18 ^^^ (word 1 >>> 3)
  let s1 := rotateRight (word 14) 17 ^^^ rotateRight (word 14) 19 ^^^ (word 14 >>> 10)
  word 0 + s0 + word 9 + s1

def State.round (s : State) (constant word : UInt32) : State :=
  let s1 := rotateRight s.e 6 ^^^ rotateRight s.e 11 ^^^ rotateRight s.e 25
  let choice := (s.e &&& s.f) ^^^ ((~~~ s.e) &&& s.g)
  let t1 := s.h + s1 + choice + constant + word
  let s0 := rotateRight s.a 2 ^^^ rotateRight s.a 13 ^^^ rotateRight s.a 22
  let majority := (s.a &&& s.b) ^^^ (s.a &&& s.c) ^^^ (s.b &&& s.c)
  ⟨t1 + (s0 + majority), s.a, s.b, s.c, s.d + t1, s.e, s.f, s.g⟩

/-- The rounds of the given constants, with the next sixteen words of the schedule at hand. -/
def State.rounds (s : State) (window : List UInt32) : List UInt32 → State
  | [] => s
  | constant :: rest =>
    (s.round constant (window.headD 0)).rounds (window.drop 1 ++ [nextWord window]) rest

def State.absorb (s : State) (block : List UInt32) : State := s.add (s.rounds block roundConstants)

def bigEndian : Nat → Nat → List UInt8
  | 0, _ => []
  | count + 1, n => bigEndian count (n / 256) ++ [UInt8.ofNat n]

/-- The message, a byte of one bit, zeros up to eight bytes before the end of a block, and the
length of the message in bits. -/
def pad (message : List UInt8) : List UInt8 :=
  let zeros := (119 - message.length % 64) % 64
  message ++ [0x80] ++ List.replicate zeros 0 ++ bigEndian 8 (8 * message.length)

def words : List UInt8 → List UInt32
  | b3 :: b2 :: b1 :: b0 :: rest =>
    ((b3.toUInt32 <<< 24) ||| (b2.toUInt32 <<< 16) ||| (b1.toUInt32 <<< 8) ||| b0.toUInt32)
      :: words rest
  | _ => []

/-- The state after the words of whole blocks, at most `count` of them. -/
def State.absorbBlocks (s : State) : Nat → List UInt32 → State
  | 0, _ => s
  | count + 1, ws =>
    if ws.isEmpty then s else (s.absorb (ws.take 16)).absorbBlocks count (ws.drop 16)

def digest (message : List UInt8) : List UInt32 :=
  let ws := words (pad message)
  (State.initial.absorbBlocks (ws.length / 16) ws).words

def fingerprint (text : String) : String :=
  String.ofList ((digest text.toUTF8.data.toList).flatMap fun w => Text.hexDigits 8 w.toNat)

@[simp] theorem digest_length (message : List UInt8) : (digest message).length = 8 := rfl

theorem fingerprint_length (text : String) : (fingerprint text).length = 64 := by
  simp [fingerprint, digest, State.words]

end LuaGlue.Sha256
