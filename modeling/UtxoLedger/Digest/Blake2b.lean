import UtxoLedger.Bytes
import UtxoLedger.Width

/-!
# BLAKE2b

The unkeyed hash function with digests of up to 64 bytes. The input is cut
into blocks of 128 bytes, the last one filled with zeros; each block is
compressed into a chain of eight words, from which the digest is read.
-/

namespace UtxoLedger.Digest.Blake2b

/-- The words from which a chain starts. -/
def initial : Vector UInt64 8 :=
  #v[0x6a09e667f3bcc908, 0xbb67ae8584caa73b, 0x3c6ef372fe94f82b, 0xa54ff53a5f1d36f1,
    0x510e527fade682d1, 0x9b05688c2b3e6c1f, 0x1f83d9abfb41bd6b, 0x5be0cd19137e2179]

/-- The order in which a round takes the words of a block. -/
def schedule : List (List (Fin 16)) :=
  [[0, 1, 2, 3, 4, 5, 6, 7, 8, 9, 10, 11, 12, 13, 14, 15],
    [14, 10, 4, 8, 9, 15, 13, 6, 1, 12, 0, 2, 11, 7, 5, 3],
    [11, 8, 12, 0, 5, 2, 15, 13, 10, 14, 3, 6, 7, 1, 9, 4],
    [7, 9, 3, 1, 13, 12, 11, 14, 2, 6, 5, 10, 4, 0, 15, 8],
    [9, 0, 5, 7, 2, 4, 10, 15, 14, 1, 11, 12, 6, 8, 3, 13],
    [2, 12, 6, 10, 0, 11, 8, 3, 4, 13, 7, 5, 15, 14, 1, 9],
    [12, 5, 1, 15, 14, 13, 4, 10, 0, 7, 6, 3, 9, 2, 8, 11],
    [13, 11, 7, 14, 12, 1, 3, 9, 5, 0, 15, 4, 8, 6, 2, 10],
    [6, 15, 14, 9, 11, 3, 0, 8, 12, 2, 13, 7, 1, 4, 10, 5],
    [10, 2, 8, 4, 7, 6, 1, 5, 15, 11, 9, 14, 3, 12, 13, 0],
    [0, 1, 2, 3, 4, 5, 6, 7, 8, 9, 10, 11, 12, 13, 14, 15],
    [14, 10, 4, 8, 9, 15, 13, 6, 1, 12, 0, 2, 11, 7, 5, 3]]

/-- The places of four words that are mixed together. -/
structure Quarter where
  a : Fin 16
  b : Fin 16
  c : Fin 16
  d : Fin 16

/-- The columns and then the diagonals of a square of sixteen words. -/
def quarters : List Quarter :=
  [⟨0, 4, 8, 12⟩, ⟨1, 5, 9, 13⟩, ⟨2, 6, 10, 14⟩, ⟨3, 7, 11, 15⟩,
    ⟨0, 5, 10, 15⟩, ⟨1, 6, 11, 12⟩, ⟨2, 7, 8, 13⟩, ⟨3, 4, 9, 14⟩]

def rotateRight (word amount : UInt64) : UInt64 :=
  (word >>> amount) ||| (word <<< (64 - amount))

/-- Mixes two words of a block into four words of the square. -/
def mix (square : Vector UInt64 16) (quarter : Quarter) (x y : UInt64) : Vector UInt64 16 :=
  let a := square[quarter.a] + square[quarter.b] + x
  let d := rotateRight (square[quarter.d] ^^^ a) 32
  let c := square[quarter.c] + d
  let b := rotateRight (square[quarter.b] ^^^ c) 24
  let a := a + b + y
  let d := rotateRight (d ^^^ a) 16
  let c := c + d
  let b := rotateRight (b ^^^ c) 63
  (((square.set quarter.a a).set quarter.b b).set quarter.c c).set quarter.d d

/-- Applies the mixing steps of a round in turn. -/
def mixAll (block : Vector UInt64 16) :
    Vector UInt64 16 → List Quarter → List (Fin 16) → Vector UInt64 16
  | square, quarter :: others, first :: second :: rest =>
      mixAll block (mix square quarter block[first] block[second]) others rest
  | square, _, _ => square

/-- The sixteen words of a block. -/
def words (block : Bytes) : Vector UInt64 16 :=
  Vector.ofFn fun place =>
    UInt64.ofNat (Bytes.toNatReversed ((block.drop (8 * place.val)).take 8))

/-- Compresses a block into the chain; `count` is the number of input bytes up to its end. -/
def compress (chain : Vector UInt64 8) (block : Bytes) (count : Nat) (isLast : Bool) :
    Vector UInt64 8 :=
  let low := UInt64.ofNat count
  let high := UInt64.ofNat (count / bound64)
  let start := chain ++ initial
  let start := (start.set 12 (start[12] ^^^ low)).set 13 (start[13] ^^^ high)
  let start := if isLast then start.set 14 (start[14] ^^^ 0xffffffffffffffff) else start
  let square :=
    schedule.foldl (fun square order => mixAll (words block) square quarters order) start
  Vector.ofFn fun place =>
    chain[place] ^^^ square[place.val] ^^^ square[place.val + 8]

/-- Compresses input, of which `done` bytes have gone before. -/
def absorb (chain : Vector UInt64 8) (done : Nat) (input : Bytes) : Vector UInt64 8 :=
  if input.length ≤ 128 then compress chain input (done + input.length) true
  else absorb (compress chain (input.take 128) (done + 128) false) (done + 128) (input.drop 128)
termination_by input.length
decreasing_by simp only [List.length_drop]; omega

/-- The chain before any input; it depends on the size of the digest. -/
def start (size : Nat) : Vector UInt64 8 :=
  initial.set 0 (initial[0] ^^^ 0x01010000 ^^^ UInt64.ofNat size)

/-- The digest of `size` bytes, at most 64. -/
def digest (size : Nat) (input : Bytes) : Bytes :=
  ((absorb (start size) 0 input).toList.flatMap
    fun word => Bytes.ofNatReversed 8 word.toNat).take size

theorem length_digest (size : Nat) (input : Bytes) (small : size ≤ 64) :
    (digest size input).length = size := by
  simp [digest, List.length_flatMap, Bytes.length_ofNatReversed, Vector.length_toList,
    List.map_const']
  omega

end UtxoLedger.Digest.Blake2b
