import UtxoLedger.Bytes
import UtxoLedger.Failure
import UtxoLedger.Number.Digits
import UtxoLedger.Width

/-!
# Variable-length integers

An integer is written in base 128, most significant group first, and every
byte but the last has its high bit set. Reading refuses a number above the
largest 64-bit word at the byte that makes it too large.
-/

namespace UtxoLedger

/-- Why no variable-length integer could be read. -/
inductive VarUintError where
  | overflow
  | unexpectedEnd
  deriving DecidableEq, Repr

namespace VarUintError

def message : VarUintError → String
  | overflow => "variable-length uint overflow"
  | unexpectedEnd => "unexpected end-of-buffer"

instance : Failure VarUintError where
  name
    | overflow => "VarUint.VarUintOverflow"
    | unexpectedEnd => "VarUint.UnexpectedEof"
  message := message

end VarUintError

namespace VarUint

/-- Reads groups on top of the number denoted so far. -/
def readFrom (total : Nat) : Bytes → Except VarUintError (UInt64 × Bytes)
  | [] => .error .unexpectedEnd
  | byte :: rest =>
      let next := 128 * total + byte.toNat % 128
      if bound64 ≤ next then .error .overflow
      else if byte < 128 then .ok (UInt64.ofNat next, rest)
      else readFrom next rest

/-- The integer at the front of a byte string and the bytes after it. -/
def read (bytes : Bytes) : Except VarUintError (UInt64 × Bytes) :=
  readFrom 0 bytes

/-- Marks every group but the last as continued. -/
def marked : List Nat → Bytes
  | [] => []
  | [last] => [UInt8.ofNat last]
  | group :: rest => UInt8.ofNat (128 + group) :: marked rest

/-- The shortest form of an integer. -/
def write (number : UInt64) : Bytes :=
  if number = 0 then [0] else marked (Number.digits 128 number.toNat)

end VarUint

end UtxoLedger
