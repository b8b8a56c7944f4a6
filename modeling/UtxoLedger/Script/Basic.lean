import UtxoLedger.Cbor.Wrapper
import UtxoLedger.Script.Native

/-!
# Scripts

An output may carry a script of any language. Compiled scripts are opaque
bytes of a language version; they are named by a digest tagged with the
version, native scripts by one tagged with zero.
-/

namespace UtxoLedger

/-- A compiled script of a language version. -/
structure PlutusScript (version : UInt8) where
  bytes : Bytes
  deriving DecidableEq

namespace PlutusScript

variable {version : UInt8}

def hash (script : PlutusScript version) : Hash 28 := .tagged224 version script.bytes

instance : Cbor.Codec (PlutusScript version) where
  encode script := Cbor.Encoder.bytes script.bytes
  decode := PlutusScript.mk <$> Cbor.Decoder.bytes

end PlutusScript

/-- A script of any language. -/
inductive Script where
  | native (script : NativeScript)
  | plutusV1 (script : PlutusScript 1)
  | plutusV2 (script : PlutusScript 2)
  | plutusV3 (script : PlutusScript 3)
  deriving DecidableEq

namespace Script

def hash : Script → Hash 28
  | native script => script.hash
  | plutusV1 script => script.hash
  | plutusV2 script => script.hash
  | plutusV3 script => script.hash

open Cbor in
instance : Codec Script where
  encode
    | native script => Union.encode 0 [encode script]
    | plutusV1 script => Union.encode 1 [encode script]
    | plutusV2 script => Union.encode 2 [encode script]
    | plutusV3 script => Union.encode 3 [encode script]
  decode := do
    match ← Union.decodeCode "Script" (fun code => if code ≤ 3 then some 1 else none) with
    | 0 => native <$> decode
    | 1 => plutusV1 <$> decode
    | 2 => plutusV2 <$> decode
    | _ => plutusV3 <$> decode

end Script

end UtxoLedger
