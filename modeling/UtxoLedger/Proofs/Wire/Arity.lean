import UtxoLedger.ExecutionUnits
import UtxoLedger.Governance.Action
import UtxoLedger.Proofs.Cbor.Arity
import UtxoLedger.Proofs.Wire.Certificates
import UtxoLedger.Transaction.Output
import UtxoLedger.Transaction.Witness

/-!
# Arrays of the wire form

Unions, native scripts and certificates are read from arrays of exactly the
elements that they are written with. The records that are read by position
are not: an array may go on behind the last field, and what stands there is
lost.
-/

namespace UtxoLedger

open Cbor

section

variable (cursor : Cursor)

/-! ## Unions -/

theorem Credential.isStrict : IsStrict (decode : Decoder Credential) encode cursor := by
  refine isStrict_union fun code count known => ?_
  match code, known with
  | 0, rfl => exact yields_map fun _ => ⟨[_], rfl, rfl⟩
  | 1, rfl => exact yields_map fun _ => ⟨[_], rfl, rfl⟩

theorem Script.isStrict : IsStrict (decode : Decoder Script) encode cursor := by
  refine isStrict_union fun code count known => ?_
  match code, known with
  | 0, rfl => exact yields_map fun _ => ⟨[_], rfl, rfl⟩
  | 1, rfl => exact yields_map fun _ => ⟨[_], rfl, rfl⟩
  | 2, rfl => exact yields_map fun _ => ⟨[_], rfl, rfl⟩
  | 3, rfl => exact yields_map fun _ => ⟨[_], rfl, rfl⟩

theorem Relay.isStrict : IsStrict (decode : Decoder Relay) encode cursor := by
  refine isStrict_union fun code count known => ?_
  match code, known with
  | 0, rfl =>
      exact yields_bind fun _ => yields_bind fun _ => yields_bind fun _ =>
        yields_pure ⟨[_, _, _], rfl, rfl⟩
  | 1, rfl => exact yields_bind fun _ => yields_bind fun _ => yields_pure ⟨[_, _], rfl, rfl⟩
  | 2, rfl => exact yields_bind fun _ => yields_pure ⟨[_], rfl, rfl⟩

theorem DRep.isStrict : IsStrict (decode : Decoder DRep) encode cursor := by
  refine isStrict_union fun code count known => ?_
  match code, known with
  | 0, rfl => exact yields_map fun _ => ⟨[_], rfl, rfl⟩
  | 1, rfl => exact yields_map fun _ => ⟨[_], rfl, rfl⟩
  | 2, rfl => exact yields_pure ⟨[], rfl, rfl⟩
  | 3, rfl => exact yields_pure ⟨[], rfl, rfl⟩

theorem Voter.isStrict : IsStrict (decode : Decoder Voter) encode cursor := by
  refine isStrict_union fun code count known => ?_
  match code, known with
  | 0, rfl => exact yields_map fun _ => ⟨[_], rfl, rfl⟩
  | 1, rfl => exact yields_map fun _ => ⟨[_], rfl, rfl⟩
  | 2, rfl => exact yields_map fun _ => ⟨[_], rfl, rfl⟩
  | 3, rfl => exact yields_map fun _ => ⟨[_], rfl, rfl⟩
  | 4, rfl => exact yields_map fun _ => ⟨[_], rfl, rfl⟩

theorem GovAction.isStrict : IsStrict (decode : Decoder GovAction) encode cursor := by
  refine isStrict_union fun code count known => ?_
  match code, known with
  | 0, rfl =>
      exact yields_bind fun _ => yields_bind fun _ => yields_bind fun _ =>
        yields_pure ⟨[_, _, _], rfl, rfl⟩
  | 1, rfl => exact yields_bind fun _ => yields_bind fun _ => yields_pure ⟨[_, _], rfl, rfl⟩
  | 2, rfl => exact yields_bind fun _ => yields_bind fun _ => yields_pure ⟨[_, _], rfl, rfl⟩
  | 3, rfl => exact yields_bind fun _ => yields_pure ⟨[_], rfl, rfl⟩
  | 4, rfl =>
      exact yields_bind fun _ => yields_bind fun _ => yields_bind fun _ => yields_bind fun _ =>
        yields_pure ⟨[_, _, _, _], rfl, rfl⟩
  | 5, rfl => exact yields_bind fun _ => yields_bind fun _ => yields_pure ⟨[_, _], rfl, rfl⟩
  | 6, rfl => exact yields_pure ⟨[], rfl, rfl⟩

/-- A native script is strict at every depth, and with it every script that is nested in it. -/
theorem NativeScript.isStrict (depth : Nat) : IsStrict (decodeWithin depth) encode cursor := by
  cases depth with
  | zero =>
      intro script after read
      cases read
  | succ depth =>
      refine isStrict_union fun code count known => ?_
      match code, known with
      | 0, rfl => exact yields_map fun _ => ⟨[_], rfl, rfl⟩
      | 1, rfl => exact yields_map fun _ => ⟨[_], rfl, rfl⟩
      | 2, rfl => exact yields_map fun _ => ⟨[_], rfl, rfl⟩
      | 3, rfl => exact yields_bind fun _ => yields_map fun _ => ⟨[_, _], rfl, rfl⟩
      | 4, rfl => exact yields_map fun _ => ⟨[_], rfl, rfl⟩
      | 5, rfl => exact yields_map fun _ => ⟨[_], rfl, rfl⟩

/-- What is read behind a code is written behind it. -/
theorem Certificate.yields_code {code count : Nat} (known : partCount code = some count) :
    Yields (decodeParts code) fun certificate => certificate.code = code := by
  unfold decodeParts
  split
  case h_17 =>
    obtain rfl : code = 18 := by
      simp only [partCount, List.contains_cons, List.contains_nil, Bool.or_eq_true, beq_iff_eq]
        at known
      grind
    exact yields_bind fun _ => yields_bind fun _ => yields_pure rfl
  all_goals repeat first | exact yields_pure rfl | refine yields_bind fun _ => ?_

theorem Certificate.isStrict : IsStrict (decode : Decoder Certificate) encode cursor := by
  refine isStrict_union fun code count known => ?_
  intro cursor certificate after read
  have same := yields_code known read
  have size := certificate.partCount_code
  rw [same, known, Option.some.injEq] at size
  exact ⟨certificate.parts, congrArg (Union.encode · certificate.parts) same, size.symm⟩

theorem Datum.isStrict : IsStrict (decode : Decoder Datum) encode cursor := by
  intro datum after read
  obtain ⟨start, between, unmoved, read⟩ := Decoder.run_bind_eq_ok.1 read
  cases unmoved
  obtain ⟨length, first, opened, read⟩ := Decoder.run_bind_eq_ok.1 read
  split at read
  next => cases read
  next two =>
    rw [Decidable.not_not] at two
    subst two
    refine ⟨2, first, opened, ?_⟩
    cases datum with
    | hash found => exact ⟨Encoder.unsigned 0 ++ encode found, List.append_assoc _ _ _⟩
    | inline data =>
        refine ⟨Encoder.unsigned 1 ++ (Encoder.tag embeddedTag ++ Encoder.bytes data.bytes), ?_⟩
        simp only [encode, List.append_assoc]

/-! ## Records by position -/

theorem TransactionInput.skipsExtra :
    SkipsExtra TransactionInput 2 (do return ⟨← decode, ← decode⟩) cursor :=
  Positional.skipsExtra_pair rfl fun _ => ⟨_, rfl⟩

theorem Utxo.skipsExtra : SkipsExtra Utxo 2 (do return ⟨← decode, ← decode⟩) cursor :=
  Positional.skipsExtra_pair rfl fun _ => ⟨_, rfl⟩

theorem KeyWitness.skipsExtra : SkipsExtra KeyWitness 2 (do return ⟨← decode, ← decode⟩) cursor :=
  Positional.skipsExtra_pair rfl fun _ => ⟨_, rfl⟩

theorem Anchor.skipsExtra : SkipsExtra Anchor 2 (do return ⟨← decode, ← decode⟩) cursor :=
  Positional.skipsExtra_pair rfl fun _ => ⟨_, rfl⟩

theorem PoolMetadata.skipsExtra : SkipsExtra PoolMetadata 2 (do return ⟨← decode, ← decode⟩) cursor :=
  Positional.skipsExtra_pair rfl fun _ => ⟨_, rfl⟩

theorem ExecutionUnits.skipsExtra : SkipsExtra ExecutionUnits 2 (do return ⟨← decode, ← decode⟩) cursor :=
  Positional.skipsExtra_pair rfl fun _ => ⟨_, rfl⟩

theorem BootstrapWitness.skipsExtra :
    SkipsExtra BootstrapWitness 4 (do return ⟨← decode, ← decode, ← decode, ← decode⟩) cursor :=
  Positional.skipsExtra_four rfl fun _ => ⟨_, rfl⟩

theorem ProposalProcedure.skipsExtra :
    SkipsExtra ProposalProcedure 4 (do return ⟨← decode, ← decode, ← decode, ← decode⟩) cursor :=
  Positional.skipsExtra_four rfl fun _ => ⟨_, rfl⟩

end

/-! ## All of them -/

/-- Unions and certificates are read from arrays of exactly the elements that they are written
with. A record by position is read from an array of at least those, and all that follows them is
skipped: an array of a definite length is read exactly when it has the fields, followed by items
of any kind. -/
theorem arrays_read (cursor : Cursor) :
    (IsStrict (decode : Decoder Credential) encode cursor ∧
      IsStrict (decode : Decoder Script) encode cursor ∧
      IsStrict (decode : Decoder Datum) encode cursor ∧
      IsStrict (decode : Decoder Relay) encode cursor ∧
      IsStrict (decode : Decoder DRep) encode cursor ∧
      IsStrict (decode : Decoder Voter) encode cursor ∧
      IsStrict (decode : Decoder GovAction) encode cursor ∧
      IsStrict (decode : Decoder Certificate) encode cursor ∧
      ∀ depth, IsStrict (NativeScript.decodeWithin depth) NativeScript.encode cursor) ∧
    SkipsExtra TransactionInput 2 (do return ⟨← decode, ← decode⟩) cursor ∧
    SkipsExtra Utxo 2 (do return ⟨← decode, ← decode⟩) cursor ∧
    SkipsExtra KeyWitness 2 (do return ⟨← decode, ← decode⟩) cursor ∧
    SkipsExtra Anchor 2 (do return ⟨← decode, ← decode⟩) cursor ∧
    SkipsExtra PoolMetadata 2 (do return ⟨← decode, ← decode⟩) cursor ∧
    SkipsExtra ExecutionUnits 2 (do return ⟨← decode, ← decode⟩) cursor ∧
    SkipsExtra BootstrapWitness 4 (do return ⟨← decode, ← decode, ← decode, ← decode⟩) cursor ∧
    SkipsExtra ProposalProcedure 4 (do return ⟨← decode, ← decode, ← decode, ← decode⟩) cursor :=
  ⟨⟨Credential.isStrict cursor, Script.isStrict cursor, Datum.isStrict cursor,
      Relay.isStrict cursor, DRep.isStrict cursor, Voter.isStrict cursor,
      GovAction.isStrict cursor, Certificate.isStrict cursor, NativeScript.isStrict cursor⟩,
    TransactionInput.skipsExtra cursor, Utxo.skipsExtra cursor, KeyWitness.skipsExtra cursor,
    Anchor.skipsExtra cursor, PoolMetadata.skipsExtra cursor, ExecutionUnits.skipsExtra cursor,
    BootstrapWitness.skipsExtra cursor, ProposalProcedure.skipsExtra cursor⟩

namespace ExtraElement

def input : TransactionInput := ⟨⟨.replicate 32 5⟩, 0⟩

/-- The fields of the input without the head of an array. -/
def fieldBytes : Bytes := encode input.transaction ++ encode input.index

end ExtraElement

open ExtraElement in
/-- An input is written as two elements and read from three, in either form of an array. -/
theorem decode_extra_element :
    encode input = Encoder.array 2 ++ fieldBytes ∧
      decodeFragment TransactionInput (Encoder.array 3 ++ fieldBytes ++ [0x07]) = .ok input ∧
      decodeFragment TransactionInput ([0x9f] ++ fieldBytes ++ [0x07] ++ Encoder.stop) =
        .ok input :=
  ⟨rfl, rfl, rfl⟩

end UtxoLedger
