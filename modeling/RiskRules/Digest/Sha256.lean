import RiskRules.Text.Bytes

/-! The digest SHA-256 of a list of bytes, and its usual form as 64 hexadecimal digits. -/

namespace RiskRules.Digest

structure HashState where
  a : UInt32
  b : UInt32
  c : UInt32
  d : UInt32
  e : UInt32
  f : UInt32
  g : UInt32
  h : UInt32

def HashState.start : HashState where
  a := 0x6A09E667
  b := 0xBB67AE85
  c := 0x3C6EF372
  d := 0xA54FF53A
  e := 0x510E527F
  f := 0x9B05688C
  g := 0x1F83D9AB
  h := 0x5BE0CD19

def roundConstants : List UInt32 :=
  [0x428A2F98, 0x71374491, 0xB5C0FBCF, 0xE9B5DBA5, 0x3956C25B, 0x59F111F1,
   0x923F82A4, 0xAB1C5ED5, 0xD807AA98, 0x12835B01, 0x243185BE, 0x550C7DC3,
   0x72BE5D74, 0x80DEB1FE, 0x9BDC06A7, 0xC19BF174, 0xE49B69C1, 0xEFBE4786,
   0x0FC19DC6, 0x240CA1CC, 0x2DE92C6F, 0x4A7484AA, 0x5CB0A9DC, 0x76F988DA,
   0x983E5152, 0xA831C66D, 0xB00327C8, 0xBF597FC7, 0xC6E00BF3, 0xD5A79147,
   0x06CA6351, 0x14292967, 0x27B70A85, 0x2E1B2138, 0x4D2C6DFC, 0x53380D13,
   0x650A7354, 0x766A0ABB, 0x81C2C92E, 0x92722C85, 0xA2BFE8A1, 0xA81A664B,
   0xC24B8B70, 0xC76C51A3, 0xD192E819, 0xD6990624, 0xF40E3585, 0x106AA070,
   0x19A4C116, 0x1E376C08, 0x2748774C, 0x34B0BCB5, 0x391C0CB3, 0x4ED8AA4A,
   0x5B9CCA4F, 0x682E6FF3, 0x748F82EE, 0x78A5636F, 0x84C87814, 0x8CC70208,
   0x90BEFFFA, 0xA4506CEB, 0xBEF9A3F7, 0xC67178F2]

def rotateRight (word count : UInt32) : UInt32 :=
  (word >>> count) ||| (word <<< (32 - count))

def smallSigma0 (word : UInt32) : UInt32 :=
  rotateRight word 7 ^^^ rotateRight word 18 ^^^ (word >>> 3)

def smallSigma1 (word : UInt32) : UInt32 :=
  rotateRight word 17 ^^^ rotateRight word 19 ^^^ (word >>> 10)

def bigSigma0 (word : UInt32) : UInt32 :=
  rotateRight word 2 ^^^ rotateRight word 13 ^^^ rotateRight word 22

def bigSigma1 (word : UInt32) : UInt32 :=
  rotateRight word 6 ^^^ rotateRight word 11 ^^^ rotateRight word 25

def choose (mask ifSet ifClear : UInt32) : UInt32 :=
  (mask &&& ifSet) ^^^ (~~~mask &&& ifClear)

def majority (first second third : UInt32) : UInt32 :=
  (first &&& second) ^^^ (first &&& third) ^^^ (second &&& third)

def wordsOfBytes : List UInt8 → List UInt32
  | first :: second :: third :: fourth :: rest =>
      ((first.toUInt32 <<< 24) ||| (second.toUInt32 <<< 16) ||| (third.toUInt32 <<< 8)
        ||| fourth.toUInt32) :: wordsOfBytes rest
  | _ => []

def extendSchedule : Nat → List UInt32 → List UInt32
  | 0, words => words
  | count + 1, words =>
      let next := smallSigma1 (words.getD 1 0) + words.getD 6 0
        + smallSigma0 (words.getD 14 0) + words.getD 15 0
      extendSchedule count (next :: words)

def schedule (block : List UInt8) : List UInt32 :=
  (extendSchedule 48 (wordsOfBytes block).reverse).reverse

def HashState.round (state : HashState) (constant word : UInt32) : HashState :=
  let first := state.h + bigSigma1 state.e + choose state.e state.f state.g + constant + word
  let second := bigSigma0 state.a + majority state.a state.b state.c
  ⟨first + second, state.a, state.b, state.c, state.d + first, state.e, state.f, state.g⟩

def HashState.add (left right : HashState) : HashState :=
  ⟨left.a + right.a, left.b + right.b, left.c + right.c, left.d + right.d,
    left.e + right.e, left.f + right.f, left.g + right.g, left.h + right.h⟩

def HashState.absorb (state : HashState) (block : List UInt8) : HashState :=
  state.add ((roundConstants.zip (schedule block)).foldl
    (fun state (constant, word) => state.round constant word) state)

def absorbBlocks : Nat → HashState → List UInt8 → HashState
  | 0, state, _ => state
  | count + 1, state, bytes => absorbBlocks count (state.absorb (bytes.take 64)) (bytes.drop 64)

def bytesOfNat : Nat → Nat → List UInt8
  | 0, _ => []
  | count + 1, number => bytesOfNat count (number / 256) ++ [UInt8.ofNat (number % 256)]

/-- A one bit, zeros up to eight bytes short of a whole block, and the length in bits. -/
def padding (length : Nat) : List UInt8 :=
  0x80 :: List.replicate ((119 - length % 64) % 64) 0 ++ bytesOfNat 8 (8 * length)

def HashState.bytes (state : HashState) : List UInt8 :=
  [state.a, state.b, state.c, state.d, state.e, state.f, state.g, state.h].flatMap
    fun word => bytesOfNat 4 word.toNat

def sha256 (bytes : List UInt8) : List UInt8 :=
  let padded := bytes ++ padding bytes.length
  (absorbBlocks (padded.length / 64) .start padded).bytes

def sha256Hex (bytes : List UInt8) : String :=
  Text.hexOfBytes (sha256 bytes)

example : sha256Hex [0x61, 0x62, 0x63] =
    "ba7816bf8f01cfea414140de5dae2223b00361a396177a9cb410ff61f20015ad" := by
  decide +kernel

end RiskRules.Digest
