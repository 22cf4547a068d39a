/-
# `Lib.Sha256` — SHA-256 and HMAC over byte lists

The hash and the keyed hash over it, as executable functions.  A development
that takes a hash as a parameter can be run with these. Nothing is claimed about
them but the length of the result; the examples after the definitions are
published test vectors.

The message schedule is not tabulated: a round looks at the oldest of a window
of sixteen words and pushes the next one.
-/
import S3Wire.Lib.Slice

namespace Lib

abbrev Word := BitVec 32

def roundConstants : List Word :=
  [0x428a2f98, 0x71374491, 0xb5c0fbcf, 0xe9b5dba5, 0x3956c25b, 0x59f111f1,
    0x923f82a4, 0xab1c5ed5,
   0xd807aa98, 0x12835b01, 0x243185be, 0x550c7dc3, 0x72be5d74, 0x80deb1fe,
     0x9bdc06a7, 0xc19bf174,
   0xe49b69c1, 0xefbe4786, 0x0fc19dc6, 0x240ca1cc, 0x2de92c6f, 0x4a7484aa,
     0x5cb0a9dc, 0x76f988da,
   0x983e5152, 0xa831c66d, 0xb00327c8, 0xbf597fc7, 0xc6e00bf3, 0xd5a79147,
     0x06ca6351, 0x14292967,
   0x27b70a85, 0x2e1b2138, 0x4d2c6dfc, 0x53380d13, 0x650a7354, 0x766a0abb,
     0x81c2c92e, 0x92722c85,
   0xa2bfe8a1, 0xa81a664b, 0xc24b8b70, 0xc76c51a3, 0xd192e819, 0xd6990624,
     0xf40e3585, 0x106aa070,
   0x19a4c116, 0x1e376c08, 0x2748774c, 0x34b0bcb5, 0x391c0cb3, 0x4ed8aa4a,
     0x5b9cca4f, 0x682e6ff3,
   0x748f82ee, 0x78a5636f, 0x84c87814, 0x8cc70208, 0x90befffa, 0xa4506ceb,
     0xbef9a3f7, 0xc67178f2]

/-- The eight working variables. -/
structure HashState where
  (a b c d e f g h : Word)

def HashState.init : HashState :=
  ⟨0x6a09e667, 0xbb67ae85, 0x3c6ef372, 0xa54ff53a, 0x510e527f, 0x9b05688c,
    0x1f83d9ab, 0x5be0cd19⟩

def HashState.words (s : HashState) : List Word :=
  [s.a, s.b, s.c, s.d, s.e, s.f, s.g, s.h]

/-- The word that follows a window of sixteen. -/
def nextWord (window : List Word) : Word :=
  let w := fun i => window.getD i 0
  let s0 := (w 1).rotateRight 7 ^^^ (w 1).rotateRight 18 ^^^ (w 1) >>> 3
  let s1 := (w 14).rotateRight 17 ^^^ (w 14).rotateRight 19 ^^^ (w 14) >>> 10
  w 0 + s0 + w 9 + s1

/-- One round: the state, and the words that are still to come. -/
def hashRound : HashState × List Word → Word → HashState × List Word
  | (s, window), k =>
      let s1 := s.e.rotateRight 6 ^^^ s.e.rotateRight 11 ^^^ s.e.rotateRight 25
      let ch := (s.e &&& s.f) ^^^ (~~~ s.e &&& s.g)
      let t1 := s.h + s1 + ch + k + window.getD 0 0
      let s0 := s.a.rotateRight 2 ^^^ s.a.rotateRight 13 ^^^ s.a.rotateRight 22
      let maj := (s.a &&& s.b) ^^^ (s.a &&& s.c) ^^^ (s.b &&& s.c)
      (⟨t1 + (s0 + maj), s.a, s.b, s.c, s.d + t1, s.e, s.f, s.g⟩,
        window.drop 1 ++ [nextWord window])

/-- The state after one more block. -/
def compress (s : HashState) (block : List Word) : HashState :=
  let (t, _) := roundConstants.foldl hashRound (s, block)
  ⟨s.a + t.a, s.b + t.b, s.c + t.c, s.d + t.d, s.e + t.e, s.f + t.f, s.g + t.g,
    s.h + t.h⟩

/-- Four bytes, most significant first. -/
def beWord (bytes : List UInt8) : Word :=
  BitVec.ofNat 32 (bytes.foldl (fun n b => n * 256 + b.toNat) 0)

/-- The `n` low bytes of a number, most significant first. -/
def beBytes (n value : Nat) : List UInt8 :=
  (List.range n).map fun i => UInt8.ofNat (value >>> (8 * (n - 1 - i)))

/-- The message, a one, zeros, and its length in bits. -/
def padMessage (message : List UInt8) : List UInt8 :=
  message ++ 0x80 :: List.replicate ((119 - message.length % 64) % 64) 0 ++
    beBytes 8 (8 * message.length)

/-- The digest of a message. -/
def sha256 (message : List UInt8) : List UInt8 :=
  let blocks := (chunks 64 (padMessage message)).map fun block =>
    (chunks 4 block).map beWord
  (blocks.foldl compress HashState.init).words.flatMap fun w =>
    beBytes 4 w.toNat

theorem length_sha256 (message : List UInt8) :
    (sha256 message).length = 32 := by
  simp [sha256, HashState.words, beBytes]

/-- The code of a message under a key. -/
def hmacSha256 (key message : List UInt8) : List UInt8 :=
  let short := if key.length > 64 then sha256 key else key
  let block := short ++ List.replicate (64 - short.length) 0
  sha256 (block.map (· ^^^ 0x5c) ++ sha256 (block.map (· ^^^ 0x36) ++ message))

example :
    sha256 [] =
      beBytes 32
        0xe3b0c44298fc1c149afbf4c8996fb92427ae41e4649b934ca495991b7852b855 := by
  decide +kernel

example :
    hmacSha256 [74, 101, 102, 101]
    [119, 104, 97, 116, 32, 100, 111, 32, 121, 97, 32, 119, 97,
      110, 116, 32, 102, 111, 114, 32, 110, 111, 116, 104, 105, 110, 103, 63] =
    beBytes 32
      0x5bdcc146bf60754e6a042426089575c75a003f089d2739839dec58b964ec3843 := by
  decide +kernel

end Lib
