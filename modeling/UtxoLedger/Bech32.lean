import UtxoLedger.Text.Utf8

/-!
# Bech32 text

A text is a human-readable prefix, the separator `1`, data characters of five
bits each and a checksum of six characters over all of them. Two checksum
constants are read and the older one is written. Bytes are regrouped into
five-bit data, padded with zero bits.
-/

namespace UtxoLedger

/-- Why a text is not a checksummed prefix and data. -/
inductive Bech32Error where
  | invalidLength
  | missingSeparator
  | invalidCharacter (character : Char)
  | mixedCase
  | invalidChecksum
  | invalidPadding
  deriving DecidableEq, Repr

namespace Bech32Error

def message : Bech32Error → String
  | invalidLength => "invalid length"
  | missingSeparator => "missing human-readable separator, \"1\""
  | invalidCharacter character => s!"invalid character (code={character})"
  | mixedCase => "mixed-case strings not allowed"
  | invalidChecksum => "invalid checksum"
  | invalidPadding => "invalid padding"

end Bech32Error

namespace Bech32

/-! ## Checksum -/

def alphabet : List Char := "qpzry9x8gf2tvdw0s3jn54khce6mua7l".toList

/-- The value of a data character of either case. -/
def digitValue? (character : Char) : Option Nat :=
  alphabet.findIdx? (· = character.toLower)

def digit (value : Nat) : Char := alphabet.getD value 'q'

/-- The generator words selected by the five bits shifted out of a residue. -/
def generators : List Nat := [0x3b6a57b2, 0x26508e6d, 0x1ea119fa, 0x3d4233dd, 0x2a1462b3]

/-- The residue after one more five-bit value. -/
def residueStep (residue value : Nat) : Nat :=
  let top := residue >>> 25
  let shifted := ((residue % Nat.pow 2 25) <<< 5) ^^^ value
  (generators.zipIdx.filter fun entry => top.testBit entry.2).foldl
    (fun total entry => total ^^^ entry.1) shifted

def residue (values : List Nat) : Nat := values.foldl residueStep 1

/-- The prefix as values: the high bits of each character, a zero, the low bits. -/
def expandPrefix (humanPart : Bytes) : List Nat :=
  humanPart.map (·.toNat / 32) ++ 0 :: humanPart.map (·.toNat % 32)

/-- The residue of a text in the older and the newer form. -/
def validResidues : List Nat := [1, 0x2bc830a3]

def checksum (humanPart : Bytes) (data : List Nat) : List Nat :=
  let total := residue (expandPrefix humanPart ++ data ++ List.replicate 6 0) ^^^ 1
  (List.range 6).map fun index => (total >>> (5 * (5 - index))) % 32

/-! ## Regrouping of bits -/

/-- Regroups values of `width` bits into values of `target` bits; also the bits left over
and their number. -/
def regroup (width target : Nat) : (pending bits : Nat) → List Nat → List Nat × Nat × Nat
  | pending, bits, [] => ([], pending, bits)
  | pending, bits, value :: rest =>
      let pending := pending * Nat.pow 2 width + value
      let bits := bits + width
      let whole := bits / target
      let left := bits % target
      let groups := (List.range whole).map fun index =>
        pending / Nat.pow 2 (left + target * (whole - 1 - index)) % Nat.pow 2 target
      let (others, finalPending, finalBits) :=
        regroup width target (pending % Nat.pow 2 left) left rest
      (groups ++ others, finalPending, finalBits)

/-- Five-bit data holding the bytes, the last value padded with zero bits. -/
def dataOfBytes (bytes : Bytes) : List Nat :=
  match regroup 8 5 0 0 (bytes.map UInt8.toNat) with
  | (values, _, 0) => values
  | (values, pending, bits) => values ++ [pending * Nat.pow 2 (5 - bits)]

/-- The bytes held by five-bit data; the padding is shorter than a value and zero. -/
def bytesOfData (data : List Nat) : Except Bech32Error Bytes :=
  let (values, pending, bits) := regroup 5 8 0 0 data
  if 5 ≤ bits || pending ≠ 0 then .error .invalidPadding
  else .ok (values.map UInt8.ofNat)

/-! ## Text -/

/-- The text with the given prefix and data, in lower case. -/
def encode (humanPart : String) (data : List Nat) : String :=
  let characters := (data ++ checksum (Text.toBytes humanPart) data).map digit
  humanPart ++ "1" ++ String.ofList characters

/-- The letter cases seen so far: none, lower (`false`) or upper (`true`). -/
abbrev LetterCase := Option Bool

/-- Combines the case of one more character with those seen so far. -/
def seeCase (seen : LetterCase) (character : Char) : Except Bech32Error LetterCase :=
  if character.isLower then
    if seen = some true then .error .mixedCase else .ok (some false)
  else if character.isUpper then
    if seen = some false then .error .mixedCase else .ok (some true)
  else .ok seen

/-- Checks the bytes of a prefix and finds their letter case. -/
def prefixCase (seen : LetterCase) : Bytes → Except Bech32Error LetterCase
  | [] => .ok seen
  | byte :: rest =>
      if 33 ≤ byte && byte ≤ 126 then do
        prefixCase (← seeCase seen (Char.ofNat byte.toNat)) rest
      else .error (.invalidCharacter (Char.ofNat byte.toNat))

/-- The values of the data characters, given the letter case of what precedes them. -/
def dataValues (seen : LetterCase) : List Char → Except Bech32Error (List Nat)
  | [] => .ok []
  | character :: rest =>
      if 128 ≤ character.toNat then .error (.invalidCharacter character)
      else do
        let seen ← seeCase seen character
        match digitValue? character with
        | none => .error (.invalidCharacter character)
        | some value => return value :: (← dataValues seen rest)

/-- Splits at the last separator. -/
def splitLast (characters : List Char) : Option (List Char × List Char) :=
  let after := (characters.reverse.takeWhile (· ≠ '1')).reverse
  if after.length = characters.length then none
  else some (characters.take (characters.length - after.length - 1), after)

/-- The prefix, in lower case, and the data of a text whose checksum is right. -/
def decode (text : String) : Except Bech32Error (String × List Nat) := do
  if text.utf8ByteSize < 8 then throw .invalidLength
  let some (before, after) := splitLast text.toList | throw .missingSeparator
  if (String.ofList after).utf8ByteSize < 6 then throw .invalidLength
  let humanPart := String.ofList before
  let humanBytes := Text.toBytes humanPart
  if humanBytes.isEmpty || 83 < humanBytes.length then throw .invalidLength
  let seen ← prefixCase none humanBytes
  let values ← dataValues seen after
  let lower := String.ofList (before.map Char.toLower)
  if validResidues.contains (residue (expandPrefix (Text.toBytes lower) ++ values)) then
    return (lower, values.take (values.length - 6))
  else throw .invalidChecksum

/-- The prefix and the bytes of a text. -/
def decodeBytes (text : String) : Except Bech32Error (String × Bytes) := do
  let (humanPart, data) ← decode text
  return (humanPart, ← bytesOfData data)

/-- The text of a byte string under a prefix. -/
def encodeBytes (humanPart : String) (bytes : Bytes) : String :=
  encode humanPart (dataOfBytes bytes)

end Bech32

end UtxoLedger
