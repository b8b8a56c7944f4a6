import UtxoLedger.Metadata.Document
import UtxoLedger.MultiAsset
import UtxoLedger.Script.Document

/-!
# Tokens

A policy says who may mint an asset, by its script or by its id alone. Tokens
are quantities of one asset to mint, with optional metadata; the metadata of
a batch is grouped by policy under one label.
-/

namespace UtxoLedger

/-- What is known about who may mint. -/
inductive MintingRule where
  | script (script : NativeScript)
  | id (policy : PolicyId)

/-- A minting policy and its name. -/
structure TokenPolicy where
  name : String
  rule : MintingRule

namespace TokenPolicy

/-- The policy that asks for all signers, closed from a slot on where one is given. -/
def generate (name : String) (signers : List (Hash 28)) (expiration : Option UInt64) :
    TokenPolicy :=
  let closing := (expiration.map NativeScript.invalidHereafter).toList
  ⟨name, .script (.all (signers.map NativeScript.signature ++ closing))⟩

def script? (policy : TokenPolicy) : Option NativeScript :=
  match policy.rule with
  | .script script => some script
  | .id _ => none

def id (policy : TokenPolicy) : PolicyId :=
  match policy.rule with
  | .script script => script.hash
  | .id policy => policy

/-- The slot from which a script is not satisfied any more. -/
def closingSlot? : NativeScript → Option UInt64
  | .invalidHereafter slot => some slot
  | _ => none

/-- The slot from which a policy that asks for all its parts is closed. -/
def expirationSlot? (policy : TokenPolicy) : Option UInt64 :=
  match policy.script? with
  | some (.all scripts) => scripts.findSome? closingSlot?
  | _ => none

/-- The slot of closing lies before the given one. -/
def isExpired (policy : TokenPolicy) (slot : UInt64) : Bool :=
  match policy.expirationSlot? with
  | some closing => closing < slot
  | none => false

/-- The keys that may have to sign. -/
def requiredSigners (policy : TokenPolicy) : OrderedSet (Hash 28) :=
  match policy.script? with
  | some script => script.keyHashes
  | none => .empty

/-- The document of the script. -/
def toJson? (policy : TokenPolicy) : Option Json := policy.script?.map NativeScript.toJson

def ofJson (name : String) (document : Json) : Except ValidationError TokenPolicy := do
  return ⟨name, .script (← NativeScript.ofJson document)⟩

end TokenPolicy

/-- A quantity of an asset to mint, or to burn when negative. -/
structure Token where
  policy : TokenPolicy
  name : AssetName
  amount : Int64
  metadata : Option Metadatum

namespace Token

/-- The label of token metadata. -/
def metadataLabel : UInt64 := 721

/-- A token whose name is a text. -/
def ofText (policy : TokenPolicy) (name : String) (amount : Int64) :
    Except ValidationError Token := do
  return ⟨policy, ← AssetName.ofText name, amount, none⟩

/-- The token with the metadata of a document. -/
def withMetadata (token : Token) (document : Json) : Except MetadataError Token := do
  return { token with metadata := some (← Metadatum.ofJson document) }

/-- The quantities minted by a batch. -/
def mint (tokens : List Token) : MultiAsset :=
  tokens.foldl (fun total token => total.add ⟨token.policy.id, token.name⟩ token.amount) .empty

/-- Metadata of assets by the texts of policy and name, first mention first. -/
abbrev MetadataGroups := List (String × List (String × Metadatum))

/-- Adds an entry to the group of a policy. -/
def addToGroups (policy : String) (entry : String × Metadatum) :
    MetadataGroups → MetadataGroups
  | [] => [(policy, [entry])]
  | (other, entries) :: rest =>
      if other = policy then (other, entries ++ [entry]) :: rest
      else (other, entries) :: addToGroups policy entry rest

/-- The metadata of the tokens that have some, by policy. -/
def metadataGroups (tokens : List Token) : MetadataGroups :=
  tokens.foldl
    (fun groups token =>
      match token.metadata with
      | none => groups
      | some metadata =>
          addToGroups token.policy.id.text (Text.ofBytesLenient token.name.bytes, metadata) groups)
    []

/-- The metadata entry of a batch, when a token has metadata. -/
def metadataEntry (tokens : List Token) :
    Except MetadataError (Option (UInt64 × Metadatum)) := do
  let groups := metadataGroups tokens
  if groups.isEmpty then return none
  let entries ← groups.mapM fun group => do
    return (group.1, ← Metadatum.ofTextEntries group.2)
  return some (metadataLabel, ← Metadatum.ofTextEntries entries)

end Token

end UtxoLedger
