import EntityCompiler.Number.Numeral

/-!
# SHA-256

The SHA-256 digest of a byte sequence, as a lower-case hexadecimal text.
-/

namespace EntityCompiler.Sha256

/-- The first 32 fraction bits of the cube roots of the first 64 primes. -/
def roundConstants : List UInt32 :=
  [0x428a2f98, 0x71374491, 0xb5c0fbcf, 0xe9b5dba5, 0x3956c25b, 0x59f111f1, 0x923f82a4, 0xab1c5ed5,
   0xd807aa98, 0x12835b01, 0x243185be, 0x550c7dc3, 0x72be5d74, 0x80deb1fe, 0x9bdc06a7, 0xc19bf174,
   0xe49b69c1, 0xefbe4786, 0x0fc19dc6, 0x240ca1cc, 0x2de92c6f, 0x4a7484aa, 0x5cb0a9dc, 0x76f988da,
   0x983e5152, 0xa831c66d, 0xb00327c8, 0xbf597fc7, 0xc6e00bf3, 0xd5a79147, 0x06ca6351, 0x14292967,
   0x27b70a85, 0x2e1b2138, 0x4d2c6dfc, 0x53380d13, 0x650a7354, 0x766a0abb, 0x81c2c92e, 0x92722c85,
   0xa2bfe8a1, 0xa81a664b, 0xc24b8b70, 0xc76c51a3, 0xd192e819, 0xd6990624, 0xf40e3585, 0x106aa070,
   0x19a4c116, 0x1e376c08, 0x2748774c, 0x34b0bcb5, 0x391c0cb3, 0x4ed8aa4a, 0x5b9cca4f, 0x682e6ff3,
   0x748f82ee, 0x78a5636f, 0x84c87814, 0x8cc70208, 0x90befffa, 0xa4506ceb, 0xbef9a3f7, 0xc67178f2]

/-- The eight working variables. -/
structure State where
  a : UInt32
  b : UInt32
  c : UInt32
  d : UInt32
  e : UInt32
  f : UInt32
  g : UInt32
  h : UInt32
deriving DecidableEq, Repr

/-- The first 32 fraction bits of the square roots of the first eight primes. -/
def initial : State :=
  ⟨0x6a09e667, 0xbb67ae85, 0x3c6ef372, 0xa54ff53a, 0x510e527f, 0x9b05688c, 0x1f83d9ab, 0x5be0cd19⟩

def rotateRight (x n : UInt32) : UInt32 :=
  (x >>> n) ||| (x <<< (32 - n))

/-- The word made of four bytes, most significant first. -/
def word (bytes : Array UInt8) (start : Nat) : UInt32 :=
  let byte (i : Nat) : UInt32 := (bytes.getD (start + i) 0).toUInt32
  (byte 0 <<< 24) ||| (byte 1 <<< 16) ||| (byte 2 <<< 8) ||| byte 3

/-- The next word of a message schedule. -/
def nextWord (schedule : Array UInt32) : UInt32 :=
  let back (n : Nat) : UInt32 := schedule.getD (schedule.size - n) 0
  let x := back 15
  let y := back 2
  let small := rotateRight x 7 ^^^ rotateRight x 18 ^^^ (x >>> 3)
  let large := rotateRight y 17 ^^^ rotateRight y 19 ^^^ (y >>> 10)
  back 16 + small + back 7 + large

/-- The 64 words that the block starting at a byte expands to. -/
def schedule (bytes : Array UInt8) (start : Nat) : Array UInt32 :=
  let block := (Array.range 16).map fun (i : Nat) ↦ word bytes (start + 4 * i)
  (List.range 48).foldl (fun words _ ↦ words.push (nextWord words)) block

/-- One round with a round constant and a word of the schedule. -/
def round (s : State) (input : UInt32 × UInt32) : State :=
  let sum := rotateRight s.e 6 ^^^ rotateRight s.e 11 ^^^ rotateRight s.e 25
  let choice := (s.e &&& s.f) ^^^ (~~~s.e &&& s.g)
  let first := s.h + sum + choice + input.1 + input.2
  let spread := rotateRight s.a 2 ^^^ rotateRight s.a 13 ^^^ rotateRight s.a 22
  let majority := (s.a &&& s.b) ^^^ (s.a &&& s.c) ^^^ (s.b &&& s.c)
  ⟨first + (spread + majority), s.a, s.b, s.c, s.d + first, s.e, s.f, s.g⟩

/-- The state after the block starting at a byte. -/
def compress (bytes : Array UInt8) (s : State) (start : Nat) : State :=
  let t := (roundConstants.zip (schedule bytes start).toList).foldl round s
  ⟨s.a + t.a, s.b + t.b, s.c + t.c, s.d + t.d, s.e + t.e, s.f + t.f, s.g + t.g, s.h + t.h⟩

/-- The message with the end mark, zeros and its length in bits, a multiple of 64 bytes. -/
def pad (message : List UInt8) : List UInt8 :=
  let size := message.length
  let zeros := (119 - size % 64) % 64
  let lengthBytes := (List.range 8).map fun (i : Nat) ↦ UInt8.ofNat ((8 * size) >>> (8 * (7 - i)))
  message ++ 0x80 :: List.replicate zeros 0 ++ lengthBytes

/-- The final state of a message. -/
def finalState (message : List UInt8) : State :=
  let padded := (pad message).toArray
  (List.range (padded.size / 64)).foldl (fun s (i : Nat) ↦ compress padded s (64 * i)) initial

/-- The digest of a message. -/
def digest (message : List UInt8) : String :=
  let s := finalState message
  String.ofList ([s.a, s.b, s.c, s.d, s.e, s.f, s.g, s.h].flatMap fun (x : UInt32) ↦
    Numeral.hexDigits 8 x.toNat)

end EntityCompiler.Sha256
