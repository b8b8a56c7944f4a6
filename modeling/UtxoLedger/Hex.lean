import UtxoLedger.Failure
import UtxoLedger.Text.Quoted
import UtxoLedger.Text.Utf8

/-!
# Hexadecimal text

Bytes are written as pairs of lower-case digits; digits of either case are
read. The first fault decides the error: an odd number of digits, then a
wrong number of bytes where the size is fixed, then the first character that
is not a digit.
-/

namespace UtxoLedger

/-- Why a text is not the hexadecimal form of bytes. -/
inductive HexError where
  | oddLength
  | wrongLength
  | invalidCharacter (byte : UInt8) (position : Nat)
  deriving DecidableEq, Repr

namespace HexError

def message : HexError → String
  | oddLength => "Odd number of digits"
  | wrongLength => "Invalid string length"
  | invalidCharacter byte position =>
      let character := Text.quotedChar (Char.ofNat byte.toNat)
      s!"Invalid character {character} at position {position}"

instance : Failure HexError := ⟨fun _ => "Hex", message⟩

end HexError

namespace Hex

/-- The digit of a number below 16. -/
def digit (number : Nat) : Char :=
  if number < 10 then Char.ofNat ('0'.toNat + number) else Char.ofNat ('a'.toNat + number - 10)

/-- The number that a digit character stands for. -/
def digitValue? (byte : UInt8) : Option Nat :=
  if 48 ≤ byte && byte ≤ 57 then some (byte.toNat - 48)
  else if 97 ≤ byte && byte ≤ 102 then some (byte.toNat - 87)
  else if 65 ≤ byte && byte ≤ 70 then some (byte.toNat - 55)
  else none

/-- Two digits for each byte. -/
def encode (bytes : Bytes) : String :=
  String.ofList (bytes.flatMap fun byte => [digit (byte.toNat / 16), digit (byte.toNat % 16)])

/-- Reads digit pairs; `position` is the place of the first one in the whole text. -/
def decodePairs (position : Nat) : Bytes → Except HexError Bytes
  | [] => .ok []
  | [_] => .error .oddLength
  | first :: second :: rest =>
      match digitValue? first with
      | none => .error (.invalidCharacter first position)
      | some high =>
          match digitValue? second with
          | none => .error (.invalidCharacter second (position + 1))
          | some low => do
              let others ← decodePairs (position + 2) rest
              return UInt8.ofNat (16 * high + low) :: others

/-- The bytes written by a text of any even number of digits. -/
def decode (text : String) : Except HexError Bytes :=
  let characters := Text.toBytes text
  if characters.length % 2 = 1 then .error .oddLength
  else decodePairs 0 characters

/-- The bytes written by a text that stands for exactly `size` bytes. -/
def decodeExactly (size : Nat) (text : String) : Except HexError Bytes :=
  let characters := Text.toBytes text
  if characters.length % 2 = 1 then .error .oddLength
  else if characters.length / 2 ≠ size then .error .wrongLength
  else decodePairs 0 characters

end Hex

end UtxoLedger
