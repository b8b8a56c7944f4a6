import UtxoLedger.Text.Utf8
import UtxoLedger.Width

/-!
# Encoders

Values are written in their shortest form: the head of an item holds its
number in as few bytes as it takes, and lengths are definite unless a value
keeps an indefinite one on purpose.
-/

namespace UtxoLedger.Cbor.Encoder

/-- The head of an item: its major type and the shortest form of its number, which is below
`bound64`. -/
def head (major number : Nat) : Bytes :=
  let first (info : Nat) := UInt8.ofNat (32 * major + info)
  if number < 24 then [first number]
  else if number < 256 then first 24 :: Bytes.ofNat 1 number
  else if number < bound16 then first 25 :: Bytes.ofNat 2 number
  else if number < bound32 then first 26 :: Bytes.ofNat 4 number
  else first 27 :: Bytes.ofNat 8 number

def unsigned (number : Nat) : Bytes := head 0 number

/-- Minus one minus the number. -/
def negative (number : Nat) : Bytes := head 1 number

def bytes (content : Bytes) : Bytes := head 2 content.length ++ content

def text (content : String) : Bytes :=
  let content := Text.toBytes content
  head 3 content.length ++ content

def array (length : Nat) : Bytes := head 4 length

def map (length : Nat) : Bytes := head 5 length

def tag (number : UInt64) : Bytes := head 6 number.toNat

def openMap : Bytes := [0xbf]

def stop : Bytes := [0xff]

def bool (value : Bool) : Bytes := [if value then 0xf5 else 0xf4]

def null : Bytes := [0xf6]

def undefined : Bytes := [0xf7]

end UtxoLedger.Cbor.Encoder
