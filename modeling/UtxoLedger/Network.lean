import UtxoLedger.Cbor.Codec
import UtxoLedger.Json.Reader

/-!
# Networks

Addresses carry the network they belong to. Two networks have names; every
other number is a network without one. A transaction body names one of the
two.
-/

namespace UtxoLedger

/-- The network of an address. -/
inductive Network where
  | testnet
  | mainnet
  | other (number : UInt8)
  deriving DecidableEq, Repr

namespace Network

def number : Network → UInt8
  | testnet => 0
  | mainnet => 1
  | other number => number

def ofNumber (number : UInt8) : Network :=
  if number = 0 then testnet else if number = 1 then mainnet else other number

def toJson : Network → Json
  | testnet => .string "testnet"
  | mainnet => .string "mainnet"
  | other number => .object [("other", .ofWord number.toUInt64)]

def jsonReader : Json.Reader Network :=
  .choice
    [⟨"testnet", .inl testnet⟩, ⟨"mainnet", .inl mainnet⟩, ⟨"other", .inr (other <$> .word8)⟩]

end Network

/-- A network that a transaction body can name. -/
inductive NetworkId where
  | testnet
  | mainnet
  deriving DecidableEq, Repr

namespace NetworkId

def number : NetworkId → UInt64
  | testnet => 0
  | mainnet => 1

/-- The network, when it has a name. -/
def ofNetwork? : Network → Option NetworkId
  | .testnet => some testnet
  | .mainnet => some mainnet
  | .other _ => none

instance : Cbor.Codec NetworkId where
  encode network := Cbor.encode network.number
  decode := do
    let index ← (Cbor.decode : Cbor.Decoder UInt32)
    if index = 0 then pure testnet
    else if index = 1 then pure mainnet
    else Cbor.Decoder.fail (.unknownVariant index)

end NetworkId

end UtxoLedger
