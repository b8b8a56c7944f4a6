import UtxoLedger.Bytes

/-!
# SHA-512

The input is closed by a single bit, zeros and its length in bits, and cut
into blocks of 128 bytes. Each block is spread into eighty words, which drive
eighty rounds over a chain of eight words; the digest is the last chain.
-/

namespace UtxoLedger.Digest.Sha512

/-- The constant added in each round. -/
def roundConstants : List UInt64 :=
  [0x428a2f98d728ae22, 0x7137449123ef65cd, 0xb5c0fbcfec4d3b2f, 0xe9b5dba58189dbbc,
    0x3956c25bf348b538, 0x59f111f1b605d019, 0x923f82a4af194f9b, 0xab1c5ed5da6d8118,
    0xd807aa98a3030242, 0x12835b0145706fbe, 0x243185be4ee4b28c, 0x550c7dc3d5ffb4e2,
    0x72be5d74f27b896f, 0x80deb1fe3b1696b1, 0x9bdc06a725c71235, 0xc19bf174cf692694,
    0xe49b69c19ef14ad2, 0xefbe4786384f25e3, 0x0fc19dc68b8cd5b5, 0x240ca1cc77ac9c65,
    0x2de92c6f592b0275, 0x4a7484aa6ea6e483, 0x5cb0a9dcbd41fbd4, 0x76f988da831153b5,
    0x983e5152ee66dfab, 0xa831c66d2db43210, 0xb00327c898fb213f, 0xbf597fc7beef0ee4,
    0xc6e00bf33da88fc2, 0xd5a79147930aa725, 0x06ca6351e003826f, 0x142929670a0e6e70,
    0x27b70a8546d22ffc, 0x2e1b21385c26c926, 0x4d2c6dfc5ac42aed, 0x53380d139d95b3df,
    0x650a73548baf63de, 0x766a0abb3c77b2a8, 0x81c2c92e47edaee6, 0x92722c851482353b,
    0xa2bfe8a14cf10364, 0xa81a664bbc423001, 0xc24b8b70d0f89791, 0xc76c51a30654be30,
    0xd192e819d6ef5218, 0xd69906245565a910, 0xf40e35855771202a, 0x106aa07032bbd1b8,
    0x19a4c116b8d2d0c8, 0x1e376c085141ab53, 0x2748774cdf8eeb99, 0x34b0bcb5e19b48a8,
    0x391c0cb3c5c95a63, 0x4ed8aa4ae3418acb, 0x5b9cca4f7763e373, 0x682e6ff3d6b2b8a3,
    0x748f82ee5defb2fc, 0x78a5636f43172f60, 0x84c87814a1f0ab72, 0x8cc702081a6439ec,
    0x90befffa23631e28, 0xa4506cebde82bde9, 0xbef9a3f7b2c67915, 0xc67178f2e372532b,
    0xca273eceea26619c, 0xd186b8c721c0c207, 0xeada7dd6cde0eb1e, 0xf57d4f7fee6ed178,
    0x06f067aa72176fba, 0x0a637dc5a2c898a6, 0x113f9804bef90dae, 0x1b710b35131c471b,
    0x28db77f523047d84, 0x32caab7b40c72493, 0x3c9ebe0a15c9bebc, 0x431d67c49c100d4c,
    0x4cc5d4becb3e42b6, 0x597f299cfc657e2a, 0x5fcb6fab3ad6faec, 0x6c44198c4a475817]

def rotateRight (word amount : UInt64) : UInt64 :=
  (word >>> amount) ||| (word <<< (64 - amount))

/-- The eight words of a chain. -/
structure Chain where
  a : UInt64
  b : UInt64
  c : UInt64
  d : UInt64
  e : UInt64
  f : UInt64
  g : UInt64
  h : UInt64

namespace Chain

def add (first second : Chain) : Chain :=
  ⟨first.a + second.a, first.b + second.b, first.c + second.c, first.d + second.d,
    first.e + second.e, first.f + second.f, first.g + second.g, first.h + second.h⟩

def toList (chain : Chain) : List UInt64 :=
  [chain.a, chain.b, chain.c, chain.d, chain.e, chain.f, chain.g, chain.h]

/-- One round with its constant and its word of the block. -/
def round (chain : Chain) (constant word : UInt64) : Chain :=
  let spread := rotateRight chain.e 14 ^^^ rotateRight chain.e 18 ^^^ rotateRight chain.e 41
  let choice := (chain.e &&& chain.f) ^^^ (~~~chain.e &&& chain.g)
  let first := chain.h + spread + choice + constant + word
  let mixed := rotateRight chain.a 28 ^^^ rotateRight chain.a 34 ^^^ rotateRight chain.a 39
  let majority := (chain.a &&& chain.b) ^^^ (chain.a &&& chain.c) ^^^ (chain.b &&& chain.c)
  ⟨first + mixed + majority, chain.a, chain.b, chain.c, chain.d + first, chain.e, chain.f, chain.g⟩

end Chain

/-- The chain before any block. -/
def start : Chain :=
  ⟨0x6a09e667f3bcc908, 0xbb67ae8584caa73b, 0x3c6ef372fe94f82b,
    0xa54ff53a5f1d36f1, 0x510e527fade682d1, 0x9b05688c2b3e6c1f,
    0x1f83d9abfb41bd6b, 0x5be0cd19137e2179⟩

/-- The word that follows sixteen words of a schedule, the latest of which comes first. -/
def nextWord (latest : List UInt64) : UInt64 :=
  let word (back : Nat) := latest.getD (back - 1) 0
  let near := word 2
  let far := word 15
  let near := rotateRight near 19 ^^^ rotateRight near 61 ^^^ (near >>> 6)
  let far := rotateRight far 1 ^^^ rotateRight far 8 ^^^ (far >>> 7)
  near + word 7 + far + word 16

/-- Extends a schedule, the latest word of which comes first. -/
def extend : (count : Nat) → List UInt64 → List UInt64
  | 0, latest => latest
  | count + 1, latest => extend count (nextWord latest :: latest)

/-- The eighty words of a block. -/
def schedule (block : Bytes) : List UInt64 :=
  let words := (List.range 16).map fun place =>
    UInt64.ofNat (Bytes.toNat ((block.drop (8 * place)).take 8))
  (extend 64 words.reverse).reverse

/-- Compresses a block into the chain. -/
def compress (chain : Chain) (block : Bytes) : Chain :=
  let rounds := List.zip roundConstants (schedule block)
  chain.add (rounds.foldl (fun chain step => chain.round step.1 step.2) chain)

/-- Compresses the given number of blocks. -/
def absorb : (blocks : Nat) → Chain → Bytes → Chain
  | 0, chain, _ => chain
  | blocks + 1, chain, input => absorb blocks (compress chain (input.take 128)) (input.drop 128)

/-- The input with its closing bit, zeros and length. -/
def padded (input : Bytes) : Bytes :=
  let zeros := 127 - (input.length + 16) % 128
  input ++ 0x80 :: (List.replicate zeros 0 ++ Bytes.ofNat 16 (8 * input.length))

/-- The digest, which has 64 bytes. -/
def digest (input : Bytes) : Bytes :=
  let blocks := padded input
  (absorb (blocks.length / 128) start blocks).toList.flatMap fun word => Bytes.ofNat 8 word.toNat

theorem length_digest (input : Bytes) : (digest input).length = 64 := by
  simp [digest, Chain.toList, Bytes.length_ofNat]

end UtxoLedger.Digest.Sha512
