/-!
# The SHA-1 digest

A message is padded with a one bit, zeros and its length in bits, cut into blocks of sixteen words,
and each block is folded into five chaining words by eighty rounds.
-/

namespace Stencil.Digest

/-- Rotates a word to the left. -/
def rotateLeft (x : UInt32) (n : UInt32) : UInt32 :=
  (x <<< n) ||| (x >>> (32 - n))

/-- The five chaining words. -/
structure Chain where
  a : UInt32
  b : UInt32
  c : UInt32
  d : UInt32
  e : UInt32

namespace Chain

/-- The chaining words before the first block. -/
def initial : Chain := ⟨0x67452301, 0xEFCDAB89, 0x98BADCFE, 0x10325476, 0xC3D2E1F0⟩

/-- Adds two groups of chaining words. -/
def add (x y : Chain) : Chain := ⟨x.a + y.a, x.b + y.b, x.c + y.c, x.d + y.d, x.e + y.e⟩

/-- The mixing function and the constant of a round. -/
def mix (x : Chain) (round : Nat) : UInt32 × UInt32 :=
  if round < 20 then ((x.b &&& x.c) ||| (~~~x.b &&& x.d), 0x5A827999)
  else if round < 40 then (x.b ^^^ x.c ^^^ x.d, 0x6ED9EBA1)
  else if round < 60 then ((x.b &&& x.c) ||| (x.b &&& x.d) ||| (x.c &&& x.d), 0x8F1BBCDC)
  else (x.b ^^^ x.c ^^^ x.d, 0xCA62C1D6)

/-- One round with its word of the schedule. -/
def round (x : Chain) (index : Nat) (word : UInt32) : Chain :=
  let (f, k) := x.mix index
  ⟨rotateLeft x.a 5 + f + x.e + k + word, x.a, rotateLeft x.b 30, x.c, x.d⟩

/-- The octets of the chaining words, most significant first. -/
def octets (x : Chain) : List UInt8 :=
  [x.a, x.b, x.c, x.d, x.e].flatMap fun (w : UInt32) =>
    [(w >>> 24).toUInt8, (w >>> 16).toUInt8, (w >>> 8).toUInt8, w.toUInt8]

end Chain

/-- A number as eight octets, most significant first. -/
def lengthOctets (n : Nat) : List UInt8 :=
  [56, 48, 40, 32, 24, 16, 8, 0].map fun shift => UInt8.ofNat (n / Nat.pow 2 shift)

/-- A message filled up to whole blocks of 64 octets. -/
def padded (message : List UInt8) : List UInt8 :=
  let zeros := (119 - message.length % 64) % 64
  message ++ 0x80 :: List.replicate zeros 0 ++ lengthOctets (8 * message.length)

/-- Groups of four octets as words. -/
def words : List UInt8 → List UInt32
  | a :: b :: c :: d :: rest =>
    (a.toUInt32 <<< 24 ||| b.toUInt32 <<< 16 ||| c.toUInt32 <<< 8 ||| d.toUInt32) :: words rest
  | _ => []

/-- The eighty words of a block's schedule. -/
def schedule (block : List UInt32) : Array UInt32 :=
  (List.range 64).foldl
    (fun w i =>
      w.push (rotateLeft (w.getD (i + 13) 0 ^^^ w.getD (i + 8) 0 ^^^ w.getD (i + 2) 0 ^^^
        w.getD i 0) 1))
    block.toArray

/-- Folds a block into the chaining words. -/
def compress (chain : Chain) (block : List UInt32) : Chain :=
  let w := schedule block
  chain.add ((List.range 80).foldl (fun x i => x.round i (w.getD i 0)) chain)

/-- Folds `count` blocks of sixteen words each. -/
def compressAll (chain : Chain) : (count : Nat) → List UInt32 → Chain
  | 0, _ => chain
  | count + 1, ws => compressAll (compress chain (ws.take 16)) count (ws.drop 16)

/-- The twenty octets of the digest of a message. -/
def sha1 (message : List UInt8) : List UInt8 :=
  let ws := words (padded message)
  (compressAll .initial (ws.length / 16) ws).octets

end Stencil.Digest
