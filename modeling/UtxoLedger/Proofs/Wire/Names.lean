import UtxoLedger.Ed25519.Key
import UtxoLedger.Proofs.Cbor.Survival
import UtxoLedger.Rational
import UtxoLedger.Transaction.Output

/-!
# Names and numbers that survive

Hashes, asset names, credentials, keys, fractions and the names of outputs
are read back whatever they are: their types admit only what their decoders
accept.
-/

namespace UtxoLedger

open Cbor

/-! ## Byte strings of a checked size -/

theorem Hash.ofBytes_bytes {size : Nat} (hash : Hash size) :
    Hash.ofBytes size hash.bytes = .ok hash := by
  rw [Hash.ofBytes, SizedBytes.ofBytes?_bytes]

instance {size : Nat} : LawfulCodec (Hash size) :=
  ⟨fun hash => reads_checkedBytes hash.ofBytes_bytes⟩

instance {size : Nat} : ProperCodec (Hash size) :=
  ⟨fun hash => ⟨.bytes, announces_bytes hash.bytes, nofun, nofun⟩⟩

theorem AssetName.ofBytes_bytes (name : AssetName) : AssetName.ofBytes name.bytes = .ok name := by
  rw [AssetName.ofBytes, dif_pos name.length_bytes]

instance : LawfulCodec AssetName := ⟨fun name => reads_checkedBytes name.ofBytes_bytes⟩

instance : ProperCodec AssetName :=
  ⟨fun name => ⟨.bytes, announces_bytes name.bytes, nofun, nofun⟩⟩

namespace Ed25519

theorem sizedBytes_bytes (kind : String) {size : Nat} (sized : SizedBytes size) :
    sizedBytes kind size sized.bytes = .ok sized := by
  rw [sizedBytes, SizedBytes.ofBytes?_bytes]

theorem PublicKey.ofBytes_bytes (key : PublicKey) : PublicKey.ofBytes key.bytes = .ok key := by
  rw [PublicKey.ofBytes, sizedBytes_bytes]
  rfl

theorem Signature.ofBytes_bytes (signature : Signature) :
    Signature.ofBytes signature.bytes = .ok signature := by
  rw [Signature.ofBytes, sizedBytes_bytes]
  rfl

instance : LawfulCodec PublicKey := ⟨fun key => reads_checkedBytes key.ofBytes_bytes⟩

instance : LawfulCodec Signature :=
  ⟨fun signature => reads_checkedBytes signature.ofBytes_bytes⟩

end Ed25519

instance {version : UInt8} : LawfulCodec (PlutusScript version) :=
  ⟨fun script => (reads_bytes script.bytes).map PlutusScript.mk⟩

instance {version : UInt8} : ProperCodec (PlutusScript version) :=
  ⟨fun script => ⟨.bytes, announces_bytes script.bytes, nofun, nofun⟩⟩

/-! ## Credentials, networks and fractions -/

instance : LawfulCodec Credential where
  survives credential := by
    cases credential with
    | key hash => exact reads_alternative rfl (by decide) (survives hash) rfl
    | script hash => exact reads_alternative rfl (by decide) (survives hash) rfl

instance : ProperCodec Credential where
  announces credential := by
    cases credential <;> exact ⟨.array, announces_union _ _, nofun, nofun⟩

instance : LawfulCodec NetworkId where
  survives network := by
    cases network with
    | testnet => exact Reads.bind_last (survives (0 : UInt32)) (reads_pure _)
    | mainnet => exact Reads.bind_last (survives (1 : UInt32)) (reads_pure _)

instance : LawfulCodec Rational where
  survives fraction := by
    change Reads decode (Encoder.tag Rational.formTag ++ Encoder.array 2 ++
      encode fraction.numerator ++ encode fraction.denominator) fraction
    rw [List.append_assoc, List.append_assoc]
    refine reads_position fun start => (reads_tag Rational.formTag).bind ?_
    rw [if_neg (fun differs => differs rfl)]
    refine (reads_array (by decide)).bind ?_
    rw [if_neg (fun differs => differs rfl)]
    exact (survives fraction.numerator).bind
      ((survives fraction.denominator).bind_last (reads_pure _))

/-! ## Names of outputs -/

instance : LawfulCodec TransactionInput where
  survives input :=
    reads_positional (by simp) ((survives input.transaction).next
      ((survives input.index).next (reads_finish input)))

instance : ProperCodec TransactionInput :=
  ⟨fun _ => ⟨.array, announces_positional _, nofun, nofun⟩⟩

end UtxoLedger
