import UtxoLedger.Cbor.Positional
import UtxoLedger.Cbor.Record
import UtxoLedger.Ed25519.Key
import UtxoLedger.Script.Basic

/-!
# Witnesses

What shows that a transaction may do what it does: signatures of its keys and
the scripts that it satisfies. Data and redeemers are carried as the items
they were given in.
-/

namespace UtxoLedger

/-- A key and its signature of the body. -/
structure KeyWitness where
  key : Ed25519.PublicKey
  signature : Ed25519.Signature
  deriving DecidableEq

open Cbor in
instance : Codec KeyWitness where
  encode witness := Positional.encode [encode witness.key, encode witness.signature]
  decode := do
    let (key, left) ← Positional.next 0 (← Positional.start)
    let (signature, left) ← Positional.next 1 left
    Positional.finish left
    return ⟨key, signature⟩

/-- A witness for an address of the first kind. -/
structure BootstrapWitness where
  key : Cbor.Blob
  signature : Cbor.Blob
  chainCode : Cbor.Blob
  attributes : Cbor.Blob
  deriving DecidableEq

open Cbor in
instance : Codec BootstrapWitness where
  encode witness :=
    Positional.encode
      [encode witness.key, encode witness.signature, encode witness.chainCode,
        encode witness.attributes]
  decode := do
    let (key, left) ← Positional.next 0 (← Positional.start)
    let (signature, left) ← Positional.next 1 left
    let (chainCode, left) ← Positional.next 2 left
    let (attributes, left) ← Positional.next 3 left
    Positional.finish left
    return ⟨key, signature, chainCode, attributes⟩

structure WitnessSet where
  keys : Option (Cbor.WireSet KeyWitness)
  nativeScripts : Option (Cbor.WireSet NativeScript)
  bootstrap : Option (Cbor.WireSet BootstrapWitness)
  plutusV1Scripts : Option (Cbor.WireSet (PlutusScript 1))
  plutusData : Option Cbor.RawItem
  redeemers : Option Cbor.RawItem
  plutusV2Scripts : Option (Cbor.WireSet (PlutusScript 2))
  plutusV3Scripts : Option (Cbor.WireSet (PlutusScript 3))
  deriving DecidableEq

namespace WitnessSet

/-- No witness of any kind. -/
def empty : WitnessSet := ⟨none, none, none, none, none, none, none, none⟩

def isEmpty (witnesses : WitnessSet) : Bool := witnesses = empty

open Cbor in
/-- The keys of the kinds of witnesses. -/
def record : Record WitnessSet where
  name := "witness set"
  entries :=
    [.optional 0 "vkeywitness" keys fun set found => { set with keys := found },
      .optional 1 "native_script" nativeScripts
        fun set found => { set with nativeScripts := found },
      .optional 2 "bootstrap_witness" bootstrap fun set found => { set with bootstrap := found },
      .optional 3 "plutus_v1_script" plutusV1Scripts
        fun set found => { set with plutusV1Scripts := found },
      .optional 4 "plutus_data" plutusData fun set found => { set with plutusData := found },
      .optional 5 "redeemer" redeemers fun set found => { set with redeemers := found },
      .optional 6 "plutus_v2_script" plutusV2Scripts
        fun set found => { set with plutusV2Scripts := found },
      .optional 7 "plutus_v3_script" plutusV3Scripts
        fun set found => { set with plutusV3Scripts := found }]
  distinct := by decide

instance : Cbor.Codec WitnessSet where
  encode := record.encode
  decode := record.decode empty

end WitnessSet

end UtxoLedger
