import UtxoLedger.Address.Binary

/-!
# Addresses in text

Addresses of the second kind and reward accounts are written in a checksummed
text whose prefix names the network, the older ones in base 58. An address on
a network without a prefix is written in hexadecimal. Reading tries the three
forms in turn.
-/

namespace UtxoLedger

/-- The prefix of one of the two named networks. -/
def networkPrefix (onTestnet onMainnet : String) : Network → Except AddressError String
  | .testnet => .ok onTestnet
  | .mainnet => .ok onMainnet
  | .other number => .error (.unknownNetworkPrefix number)

namespace StakeAddress

def humanPart (address : StakeAddress) : Except AddressError String :=
  networkPrefix "stake_test" "stake" address.network

def toBech32 (address : StakeAddress) : Except AddressError String := do
  return Bech32.encodeBytes (← address.humanPart) address.toBytes

/-- The checksummed text, or hexadecimal text where there is no prefix. -/
def text (address : StakeAddress) : String :=
  match address.toBech32 with
  | .ok text => text
  | .error _ => Hex.encode address.toBytes

end StakeAddress

namespace Address

/-- The prefix that names the network of an address. -/
def humanPart : Address → Except AddressError String
  | byron _ => .error .invalidForByron
  | shelley address => networkPrefix "addr_test" "addr" address.network
  | stake address => address.humanPart

def toBech32 (address : Address) : Except AddressError String := do
  return Bech32.encodeBytes (← address.humanPart) address.toBytes

def toHex (address : Address) : String := Hex.encode address.toBytes

/-- The text in which an address is shown. -/
def text : Address → String
  | byron address => address.toBase58
  | shelley address =>
      match (shelley address).toBech32 with
      | .ok text => text
      | .error _ => (shelley address).toHex
  | stake address => address.text

def ofBech32 (text : String) : Except AddressError Address :=
  match Bech32.decodeBytes text with
  | .ok (_, bytes) => ofBytes bytes
  | .error error => .error (.badBech32 error)

def ofHex (text : String) : Except AddressError Address :=
  match Hex.decode text with
  | .ok bytes => ofBytes bytes
  | .error error => .error (.badHex error)

/-- Reads any of the three forms. -/
def ofText (text : String) : Except AddressError Address :=
  match ofBech32 text with
  | .ok address => .ok address
  | .error _ =>
      match ByronAddress.ofBase58 text with
      | .ok address => .ok (byron address)
      | .error _ =>
          match ofHex text with
          | .ok address => .ok address
          | .error _ => .error (.unrecognized text)

def toJson (address : Address) : Json := .string address.text

def jsonReader : Json.Reader Address :=
  .checked (fun text => (ofText text).toOption) .string

end Address

namespace StakeAddress

/-- The account that the text of any address leads to. -/
def ofText (text : String) : Except AddressError StakeAddress :=
  Address.ofText text >>= Address.stakeAddress

def toJson (address : StakeAddress) : Json := .string address.text

def jsonReader : Json.Reader StakeAddress :=
  .checked (fun text => (ofText text).toOption) .string

end StakeAddress

end UtxoLedger
