import UtxoLedger.Base58
import UtxoLedger.Bech32
import UtxoLedger.Cbor.Error
import UtxoLedger.Failure
import UtxoLedger.VarUint

/-!
# Address errors

Why a text or a byte string is not an address, or why an address lacks what
is asked of it.
-/

namespace UtxoLedger

inductive AddressError where
  | badBech32 (error : Bech32Error)
  | badBase58 (error : Base58Error)
  | badHex (error : HexError)
  | missingHeader
  | invalidHeader (header : UInt8)
  /-- Addresses of the first kind have no network and no delegation. -/
  | invalidForByron
  /-- The envelope of an address of the first kind cannot be read. -/
  | malformedEnvelope (error : Cbor.DecodeError)
  /-- Bytes follow the envelope. -/
  | trailingBytes (count : Nat)
  | unknownNetworkPrefix (number : UInt8)
  | invalidPayloadLength (kind : UInt8) (found : Nat)
  | badVarUint (error : VarUintError)
  | unrecognized (text : String)
  deriving DecidableEq, Repr

namespace AddressError

/-- The eight binary digits of a byte. -/
def binary (byte : UInt8) : String :=
  String.ofList <| (List.range 8).map fun place =>
    if byte.toNat.testBit (7 - place) then '1' else '0'

def message : AddressError → String
  | badBech32 error => s!"error converting from/to bech32 {error.message}"
  | badBase58 error => s!"error decoding base58 {error.message}"
  | badHex error => s!"error decoding hex {error.message}"
  | missingHeader => "address header not found"
  | invalidHeader header => s!"address header is invalid {binary header}"
  | invalidForByron => "invalid operation for Byron address"
  | malformedEnvelope error => s!"invalid byron address cbor: {error.message}"
  | trailingBytes count => s!"invalid byron address cbor: {count} trailing bytes"
  | unknownNetworkPrefix number => s!"unknown hrp for network {binary number}"
  | invalidPayloadLength kind found =>
      s!"unexpected payload length {found} for address type {kind}"
  | badVarUint error => s!"variable-length uint error: {error.message}"
  | unrecognized text => s!"unrecognized address string {text}"

instance : Failure AddressError where
  name
    | badBech32 _ => "Address.BadBech32"
    | badBase58 _ => "Address.BadBase58"
    | badHex _ => "Address.BadHex"
    | missingHeader => "Address.MissingHeader"
    | invalidHeader _ => "Address.InvalidHeader"
    | invalidForByron => "Address.InvalidForByron"
    | malformedEnvelope _ => "Address.InvalidByronCbor"
    | trailingBytes _ => "Address.InvalidByronCbor"
    | unknownNetworkPrefix _ => "Address.UnknownNetworkHrp"
    | invalidPayloadLength _ _ => "Address.InvalidPayloadLength"
    | badVarUint _ => "Address.VarUintError"
    | unrecognized _ => "Address.Unrecognized"
  message := message

end AddressError

end UtxoLedger
