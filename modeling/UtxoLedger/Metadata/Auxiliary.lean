import UtxoLedger.Cbor.Record
import UtxoLedger.Metadata.Basic
import UtxoLedger.Script.Basic

/-!
# Auxiliary data

What a transaction carries beside its body and witnesses: metadata and
scripts, in one of three wire forms that came one after the other. The body
holds the hash of the form that was received.
-/

namespace UtxoLedger

/-- The parts of the latest form, each of which may be absent. -/
structure AuxiliaryParts where
  metadata : Option Metadata
  nativeScripts : Option (List NativeScript)
  plutusV1Scripts : Option (List (PlutusScript 1))
  plutusV2Scripts : Option (List (PlutusScript 2))
  plutusV3Scripts : Option (List (PlutusScript 3))

namespace AuxiliaryParts

def blank : AuxiliaryParts := ⟨none, none, none, none, none⟩

open Cbor in
/-- The keys of the parts. -/
def record : Record AuxiliaryParts where
  name := "auxiliary data"
  entries :=
    [.optional 0 "metadata" metadata fun parts found => { parts with metadata := found },
      .optional 1 "native_scripts" nativeScripts
        fun parts found => { parts with nativeScripts := found },
      .optional 2 "plutus_v1_scripts" plutusV1Scripts
        fun parts found => { parts with plutusV1Scripts := found },
      .optional 3 "plutus_v2_scripts" plutusV2Scripts
        fun parts found => { parts with plutusV2Scripts := found },
      .optional 4 "plutus_v3_scripts" plutusV3Scripts
        fun parts found => { parts with plutusV3Scripts := found }]
  distinct := by decide

end AuxiliaryParts

/-- Metadata and scripts in one of three forms. -/
inductive AuxiliaryData where
  /-- Metadata alone. -/
  | shelley (metadata : Metadata)
  /-- Metadata and native scripts. -/
  | shelleyMa (metadata : Metadata) (scripts : List NativeScript)
  | postAlonzo (parts : AuxiliaryParts)

namespace AuxiliaryData

/-- The tag of the latest form. -/
def formTag : UInt64 := 259

def ofMetadata (metadata : Metadata) : AuxiliaryData :=
  postAlonzo { AuxiliaryParts.blank with metadata := some metadata }

def metadata? : AuxiliaryData → Option Metadata
  | shelley metadata => some metadata
  | shelleyMa metadata _ => some metadata
  | postAlonzo parts => parts.metadata

def nativeScripts : AuxiliaryData → List NativeScript
  | shelley _ => []
  | shelleyMa _ scripts => scripts
  | postAlonzo parts => parts.nativeScripts.getD []

/-! ## Merging -/

/-- Sets the value of the first entry with a label, or adds an entry at the end. -/
def setLabel (label : UInt64) (value : Metadatum) :
    List (UInt64 × Metadatum) → List (UInt64 × Metadatum)
  | [] => [(label, value)]
  | (other, old) :: rest =>
      if other = label then (label, value) :: rest else (other, old) :: setLabel label value rest

/-- The metadata with entries set in turn, sorted by label. -/
def mergedMetadata (metadata : Metadata) (entries : List (UInt64 × Metadatum)) : Metadata :=
  let merged := entries.foldl (fun total entry => setLabel entry.1 entry.2 total) metadata.entries
  .definite (merged.mergeSort fun first second => first.1 ≤ second.1)

/-- Sets metadata entries and leaves the scripts as they are. -/
def mergeMetadata (data : AuxiliaryData) (entries : List (UInt64 × Metadatum)) : AuxiliaryData :=
  match data with
  | shelley metadata => shelley (mergedMetadata metadata entries)
  | shelleyMa metadata scripts => shelleyMa (mergedMetadata metadata entries) scripts
  | postAlonzo parts =>
      let metadata := parts.metadata.getD (.definite [])
      postAlonzo { parts with metadata := some (mergedMetadata metadata entries) }

/-! ## Wire form -/

open Cbor in
instance : Codec AuxiliaryData where
  encode
    | shelley metadata => encode metadata
    | shelleyMa metadata scripts => Encoder.array 2 ++ encode metadata ++ encode scripts
    | postAlonzo parts => Encoder.tag formTag ++ AuxiliaryParts.record.encode parts
  decode := do
    let start ← Decoder.position
    match ← Decoder.kind with
    | .map | .indefiniteMap => shelley <$> decode
    | .array | .indefiniteArray =>
        if (← Decoder.array) = some 2 then
          let metadata ← decode
          let scripts ← decode
          return shelleyMa metadata scripts
        else
          Decoder.failAt start
            (.rejected "shelley-ma auxiliary data must be a 2 element array")
    | .tag =>
        Decoder.expectTag formTag "auxiliary data tag 259"
        postAlonzo <$> AuxiliaryParts.record.decode .blank
    | other => Decoder.failAt start (.unexpectedKind other "AuxiliaryData")

def hash (data : AuxiliaryData) : Hash 32 := .blake256 (Cbor.encode data)

end AuxiliaryData

end UtxoLedger
