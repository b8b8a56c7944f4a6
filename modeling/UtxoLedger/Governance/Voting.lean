import UtxoLedger.Cbor.Positional
import UtxoLedger.Cbor.Union
import UtxoLedger.Validation
import UtxoLedger.Width

/-!
# Votes

Committee members, representatives and stake pools vote on governance
actions. A vote names the action by the transaction that proposed it and the
place of the proposal in it, and may point to a document.
-/

namespace UtxoLedger

/-- A document outside the chain: where it is and what it hashes to. -/
structure Anchor where
  url : String
  contentHash : Hash 32
  deriving DecidableEq, Inhabited

namespace Anchor

open Cbor in
instance : Codec Anchor where
  encode anchor := Positional.encode [encode anchor.url, encode anchor.contentHash]
  decode := do
    let (url, left) ← Positional.next 0 (← Positional.start)
    let (contentHash, left) ← Positional.next 1 left
    Positional.finish left
    return ⟨url, contentHash⟩

def toJson (anchor : Anchor) : Json :=
  .object [("url", .string anchor.url), ("content_hash", anchor.contentHash.toJson)]

def jsonReader : Json.Reader Anchor :=
  .record
    [⟨"url", fun anchor => (fun found => { anchor with url := found }) <$> .string, false⟩,
      ⟨"content_hash",
        fun anchor => (fun found => { anchor with contentHash := found }) <$> Hash.jsonReader 32,
        false⟩]
    false default

end Anchor

/-- The representative that a stake is delegated to. -/
inductive DRep where
  | key (hash : Hash 28)
  | script (hash : Hash 28)
  | abstain
  | noConfidence
  deriving DecidableEq

namespace DRep

open Cbor in
instance : Codec DRep where
  encode
    | key hash => Union.encode 0 [encode hash]
    | script hash => Union.encode 1 [encode hash]
    | abstain => Union.encode 2 []
    | noConfidence => Union.encode 3 []
  decode := do
    let fieldCount (code : Nat) : Option Nat :=
      if code ≤ 1 then some 1 else if code ≤ 3 then some 0 else none
    match ← Union.decodeCode "DRep" fieldCount with
    | 0 => key <$> decode
    | 1 => script <$> decode
    | 2 => pure abstain
    | _ => pure noConfidence

def toJson : DRep → Json
  | key hash => .object [("Key", hash.toJson)]
  | script hash => .object [("Script", hash.toJson)]
  | abstain => .string "Abstain"
  | noConfidence => .string "NoConfidence"

def jsonReader : Json.Reader DRep :=
  .choice
    [⟨"Key", .inr (key <$> Hash.jsonReader 28)⟩, ⟨"Script", .inr (script <$> Hash.jsonReader 28)⟩,
      ⟨"Abstain", .inl abstain⟩, ⟨"NoConfidence", .inl noConfidence⟩]

end DRep

inductive Vote where
  | no
  | yes
  | abstain
  deriving DecidableEq, Repr

namespace Vote

def number : Vote → UInt64
  | no => 0
  | yes => 1
  | abstain => 2

instance : Cbor.Codec Vote where
  encode vote := Cbor.encode vote.number
  decode := do
    let index ← (Cbor.decode : Cbor.Decoder UInt32)
    if index = 0 then pure no
    else if index = 1 then pure yes
    else if index = 2 then pure abstain
    else Cbor.Decoder.fail (.unknownVariant index)

def toJson : Vote → Json
  | no => .string "No"
  | yes => .string "Yes"
  | abstain => .string "Abstain"

def jsonReader : Json.Reader Vote :=
  .choice [⟨"No", .inl no⟩, ⟨"Yes", .inl yes⟩, ⟨"Abstain", .inl abstain⟩]

end Vote

/-- Who votes, in the order of voters. -/
inductive Voter where
  | committeeScript (hash : Hash 28)
  | committeeKey (hash : Hash 28)
  | drepScript (hash : Hash 28)
  | drepKey (hash : Hash 28)
  | stakePoolKey (hash : Hash 28)
  deriving DecidableEq

namespace Voter

/-- The key that has to witness the vote. -/
def keyHash? : Voter → Option (Hash 28)
  | committeeKey hash => some hash
  | drepKey hash => some hash
  | stakePoolKey hash => some hash
  | committeeScript _ => none
  | drepScript _ => none

instance : Ranked Voter where
  rank
    | committeeScript hash => 0 :: Ranked.rank hash
    | committeeKey hash => 1 :: Ranked.rank hash
    | drepScript hash => 2 :: Ranked.rank hash
    | drepKey hash => 3 :: Ranked.rank hash
    | stakePoolKey hash => 4 :: Ranked.rank hash

open Cbor in
instance : Codec Voter where
  encode
    | committeeKey hash => Union.encode 0 [encode hash]
    | committeeScript hash => Union.encode 1 [encode hash]
    | drepKey hash => Union.encode 2 [encode hash]
    | drepScript hash => Union.encode 3 [encode hash]
    | stakePoolKey hash => Union.encode 4 [encode hash]
  decode := do
    match ← Union.decodeCode "Voter" (fun code => if code ≤ 4 then some 1 else none) with
    | 0 => committeeKey <$> decode
    | 1 => committeeScript <$> decode
    | 2 => drepKey <$> decode
    | 3 => drepScript <$> decode
    | _ => stakePoolKey <$> decode

def toJson : Voter → Json
  | committeeScript hash => .object [("ConstitutionalCommitteeScript", hash.toJson)]
  | committeeKey hash => .object [("ConstitutionalCommitteeKey", hash.toJson)]
  | drepScript hash => .object [("DRepScript", hash.toJson)]
  | drepKey hash => .object [("DRepKey", hash.toJson)]
  | stakePoolKey hash => .object [("StakePoolKey", hash.toJson)]

def jsonReader : Json.Reader Voter :=
  .choice
    [⟨"ConstitutionalCommitteeScript", .inr (committeeScript <$> Hash.jsonReader 28)⟩,
      ⟨"ConstitutionalCommitteeKey", .inr (committeeKey <$> Hash.jsonReader 28)⟩,
      ⟨"DRepScript", .inr (drepScript <$> Hash.jsonReader 28)⟩,
      ⟨"DRepKey", .inr (drepKey <$> Hash.jsonReader 28)⟩,
      ⟨"StakePoolKey", .inr (stakePoolKey <$> Hash.jsonReader 28)⟩]

end Voter

/-- The transaction that proposed an action and the place of the proposal in it. -/
structure GovActionId where
  transaction : Hash 32
  index : UInt16
  deriving DecidableEq

namespace GovActionId

/-- The name of an action, whose index has to fit 16 bits. -/
def ofIndex (transaction : Hash 32) (index : UInt64) : Except ValidationError GovActionId :=
  if index.toNat < bound16 then .ok ⟨transaction, index.toUInt16⟩
  else .error (.governanceIndexOutOfRange index)

instance : Ranked GovActionId where
  rank action := Ranked.rank action.transaction ++ [action.index.toNat]

open Cbor in
instance : Codec GovActionId where
  encode action :=
    Encoder.array 2 ++ encode action.transaction ++ Encoder.unsigned action.index.toNat
  decode := do
    let (transaction, index) ← (decode : Decoder (Hash 32 × UInt64))
    let place ← Decoder.position
    Decoder.orReject place ValidationError.message (ofIndex transaction index)

end GovActionId

/-- A vote and the document that explains it. -/
structure VotingProcedure where
  vote : Vote
  anchor : Option Anchor
  deriving DecidableEq

instance : Cbor.Codec VotingProcedure where
  encode procedure := Cbor.encode (procedure.vote, procedure.anchor)
  decode := (fun pair : Vote × Option Anchor => ⟨pair.1, pair.2⟩) <$> Cbor.decode

/-- The votes of a transaction, by voter and action. -/
abbrev VotingProcedures := OrderedMap Voter (OrderedMap GovActionId VotingProcedure)

end UtxoLedger
