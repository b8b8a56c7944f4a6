import UtxoLedger.Cbor.Union
import UtxoLedger.Hash

/-!
# Credentials

What authorises a spending, a delegation or a vote: a key, which signs, or a
script, which is satisfied. Either is named by its hash. Scripts come before
keys in the order of credentials.
-/

namespace UtxoLedger

/-- The hash of a script or of a key. -/
inductive Credential where
  | script (hash : Hash 28)
  | key (hash : Hash 28)
  deriving DecidableEq

namespace Credential

instance : Inhabited Credential := ⟨key default⟩

def hash : Credential → Hash 28
  | script hash => hash
  | key hash => hash

def keyHash? : Credential → Option (Hash 28)
  | key hash => some hash
  | script _ => none

def scriptHash? : Credential → Option (Hash 28)
  | script hash => some hash
  | key _ => none

def isScript : Credential → Bool
  | script _ => true
  | key _ => false

instance : Ranked Credential where
  rank
    | script hash => 0 :: Ranked.rank hash
    | key hash => 1 :: Ranked.rank hash

instance : LawfulRanked Credential where
  rank_injective {first second} same := by
    cases first <;> cases second <;> simp only [Ranked.rank, List.cons.injEq] at same
    · exact congrArg script (LawfulRanked.rank_injective same.2)
    · simp at same
    · simp at same
    · exact congrArg key (LawfulRanked.rank_injective same.2)

/-! ## Wire form and JSON -/

open Cbor in
instance : Codec Credential where
  encode
    | key hash => Union.encode 0 [encode hash]
    | script hash => Union.encode 1 [encode hash]
  decode := do
    match ← Union.decodeCode "StakeCredential" (fun code => if code ≤ 1 then some 1 else none) with
    | 0 => key <$> decode
    | _ => script <$> decode

def toJson : Credential → Json
  | script hash => .object [("ScriptHash", hash.toJson)]
  | key hash => .object [("AddrKeyhash", hash.toJson)]

def jsonReader : Json.Reader Credential :=
  .choice
    [⟨"ScriptHash", .inr (script <$> Hash.jsonReader 28)⟩,
      ⟨"AddrKeyhash", .inr (key <$> Hash.jsonReader 28)⟩]

end Credential

end UtxoLedger
