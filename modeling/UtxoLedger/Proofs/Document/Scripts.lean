import UtxoLedger.Proofs.Document.Hex
import UtxoLedger.Proofs.Wire.Names
import UtxoLedger.Token

/-!
# Policy files

A native script is read back from its document, however deep it nests. So a
policy that is kept as the document of its script comes back under the same id,
with the same signers and the same slot of expiration.
-/

namespace UtxoLedger

namespace NativeScript

/-! ## Parts of a document -/

theorem keyPart_toJson (key : Hash 28) :
    keyPart [("keyHash", key.toJson), ("type", .string "sig")] = .ok key := by
  have found : part [("keyHash", key.toJson), ("type", .string "sig")] "keyHash" =
      .ok (.string (Hex.encode key.bytes)) := rfl
  simp only [keyPart, found, bind, Except.bind, Hex.decode_encode, Hash.ofBytes_bytes]

theorem slotPart_ofWord (slot : UInt64) (kind : Json) :
    slotPart [("slot", .ofWord slot), ("type", kind)] = .ok slot := rfl

theorem requiredPart_ofWord (required : UInt32) (scripts kind : Json) :
    requiredPart [("required", .ofWord required.toUInt64), ("scripts", scripts), ("type", kind)] =
      .ok required := by
  have small : required.toUInt64.toNat < bound32 := required.toNat_lt
  change (if required.toUInt64.toNat < bound32 then Except.ok required.toUInt64.toUInt32
    else _) = _
  rw [if_pos small, UInt32.toUInt32_toUInt64]

mutual

/-- A script is read back from its document. -/
theorem ofJson_toJson : (script : NativeScript) → ofJson (toJson script) = .ok script
  | signature key => by
      rw [toJson, ofJson]
      change signature <$> keyPart _ = _
      rw [keyPart_toJson]
      rfl
  | all scripts => by
      rw [toJson, ofJson]
      change all <$> ofJsonAll (toJsonAll scripts) = _
      rw [ofJsonAll_toJsonAll scripts]
      rfl
  | any scripts => by
      rw [toJson, ofJson]
      change any <$> ofJsonAll (toJsonAll scripts) = _
      rw [ofJsonAll_toJsonAll scripts]
      rfl
  | atLeast required scripts => by
      rw [toJson, ofJson]
      change (do
        let required ← requiredPart _
        atLeast required <$> ofJsonAll (toJsonAll scripts)) = _
      rw [requiredPart_ofWord, ofJsonAll_toJsonAll scripts]
      rfl
  | invalidBefore slot => by
      rw [toJson, ofJson]
      change invalidBefore <$> slotPart [("slot", .ofWord slot), ("type", .string "after")] = _
      rw [slotPart_ofWord]
      rfl
  | invalidHereafter slot => by
      rw [toJson, ofJson]
      change invalidHereafter <$> slotPart [("slot", .ofWord slot), ("type", .string "before")] = _
      rw [slotPart_ofWord]
      rfl

/-- Scripts are read back from their documents. -/
theorem ofJsonAll_toJsonAll :
    (scripts : List NativeScript) → ofJsonAll (toJsonAll scripts) = .ok scripts
  | [] => by rw [toJsonAll, ofJsonAll]
  | first :: rest => by
      rw [toJsonAll, ofJsonAll, ofJson_toJson first, ofJsonAll_toJsonAll rest]
      rfl

end

end NativeScript

/-! ## Policies -/

/-- Native scripts are read back from their documents, and a policy that has a document is loaded
from it with the same script, id, signers and expiration. -/
theorem TokenPolicy.ofJson_toJson? :
    (∀ script : NativeScript, NativeScript.ofJson script.toJson = .ok script) ∧
      ∀ (policy : TokenPolicy) (document : Json), policy.toJson? = some document →
        ∀ name, ∃ loaded, TokenPolicy.ofJson name document = .ok loaded ∧ loaded.name = name ∧
          loaded.rule = policy.rule ∧ loaded.id = policy.id ∧
          loaded.requiredSigners = policy.requiredSigners ∧
          loaded.expirationSlot? = policy.expirationSlot? := by
  refine ⟨NativeScript.ofJson_toJson, fun policy document written name => ?_⟩
  obtain ⟨old, rule⟩ := policy
  cases rule with
  | id policy => cases written
  | script script =>
      cases written
      refine ⟨⟨name, .script script⟩, ?_, rfl, rfl, rfl, rfl, rfl⟩
      rw [TokenPolicy.ofJson, NativeScript.ofJson_toJson]
      rfl

/-- One signer, until a slot. -/
def TokenPolicy.closing : TokenPolicy := .generate "closing" [⟨.replicate 28 9⟩] (some 5)

theorem TokenPolicy.ofJson_toJson?_closing :
    ∃ document, closing.toJson? = some document ∧
      ∃ loaded, TokenPolicy.ofJson "loaded" document = .ok loaded ∧ loaded.name = "loaded" ∧
        loaded.rule = closing.rule ∧ loaded.id = closing.id ∧
        loaded.requiredSigners = closing.requiredSigners ∧
        loaded.expirationSlot? = closing.expirationSlot? :=
  ⟨_, rfl, TokenPolicy.ofJson_toJson?.2 closing _ rfl "loaded"⟩

end UtxoLedger
