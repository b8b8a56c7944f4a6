import UtxoLedger.Number.Digits
import UtxoLedger.Text.Quoted
import UtxoLedger.Text.Utf8

/-!
# Base 58 text

The text is the number formed by the bytes, written with 58 letters and
digits that cannot be mistaken for each other. Each leading zero byte is a
leading `1`. At most 132 bytes are read.
-/

namespace UtxoLedger

/-- Why a text is not the base 58 form of bytes. -/
inductive Base58Error where
  | invalidCharacter (byte : UInt8) (position : Nat)
  | tooLong
  deriving DecidableEq, Repr

namespace Base58Error

def message : Base58Error → String
  | invalidCharacter byte position =>
      let character := Text.quotedChar (Char.ofNat byte.toNat)
      s!"InvalidBase58Character({character}, {position})"
  | tooLong => "InvalidBase58Length"

end Base58Error

namespace Base58

def alphabet : List Char :=
  "123456789ABCDEFGHJKLMNPQRSTUVWXYZabcdefghijkmnopqrstuvwxyz".toList

/-- The most bytes that a text may stand for. -/
def sizeLimit : Nat := 132

/-- The number that a character stands for. -/
def digitValue? (byte : UInt8) : Option Nat :=
  alphabet.findIdx? (· = Char.ofNat byte.toNat)

def digit (value : Nat) : Char := alphabet.getD value '1'

/-- The number written by the characters from `position` on, on top of `total`. -/
def numberFrom (position total : Nat) : Bytes → Except Base58Error Nat
  | [] => .ok total
  | byte :: rest =>
      match digitValue? byte with
      | none => .error (.invalidCharacter byte position)
      | some value =>
          let next := 58 * total + value
          if Nat.pow 256 sizeLimit ≤ next then .error .tooLong
          else numberFrom (position + 1) next rest

/-- The bytes that a text stands for. -/
def decode (text : String) : Except Base58Error Bytes := do
  let characters := Text.toBytes text
  let zeros := (characters.takeWhile (· = 49)).length
  let number ← numberFrom zeros 0 (characters.drop zeros)
  let bytes := List.replicate zeros 0 ++ (Number.digits 256 number).map UInt8.ofNat
  if sizeLimit < bytes.length then .error .tooLong else .ok bytes

/-- The text of a byte string. -/
def encode (bytes : Bytes) : String :=
  let zeros := (bytes.takeWhile (· = 0)).length
  String.ofList (List.replicate zeros '1' ++ (Number.digits 58 bytes.toNat).map digit)

end Base58

end UtxoLedger
