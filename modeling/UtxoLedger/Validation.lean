import UtxoLedger.Failure
import UtxoLedger.Hash

/-!
# Errors of construction

Why parts do not make up a ledger value.
-/

namespace UtxoLedger

inductive ValidationError where
  | hashSize (error : HashSizeError)
  | assetNameTooLong (length : Nat)
  | governanceIndexOutOfRange (index : UInt64)
  | invalidPoolId (text : String)
  | invalidScriptJson (text : String)
  | hex (error : HexError)
  deriving DecidableEq, Repr

namespace ValidationError

def message : ValidationError → String
  | hashSize error => error.message
  | assetNameTooLong length => s!"asset name is {length} bytes long, the limit is 32"
  | governanceIndexOutOfRange index => s!"governance action index {index} exceeds 65535"
  | invalidPoolId text => s!"invalid pool id {text}"
  | invalidScriptJson text => s!"invalid native script json: {text}"
  | hex error => s!"invalid hex: {error.message}"

instance : Failure ValidationError where
  name
    | hashSize _ => "Validation.HashSize"
    | assetNameTooLong _ => "Validation.AssetNameTooLong"
    | governanceIndexOutOfRange _ => "Validation.GovActionIndexOutOfRange"
    | invalidPoolId _ => "Validation.InvalidPoolId"
    | invalidScriptJson _ => "Validation.InvalidScriptJson"
    | hex _ => "Validation.Hex"
  message := message

end ValidationError

end UtxoLedger
