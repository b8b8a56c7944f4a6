import UtxoLedger.Address.Binary
import UtxoLedger.Cbor.Positional
import UtxoLedger.Cbor.Record
import UtxoLedger.Datum
import UtxoLedger.Script.Basic
import UtxoLedger.Value

/-!
# Inputs and outputs

An output is a value at an address, which may carry a datum and a script. An
input names an output by the transaction that made it and its place there.
Outputs have an older array form and a newer map form; an output is written
in the form it was read in, unless the array cannot hold what it carries.
-/

namespace UtxoLedger

/-- The name of an output: its transaction and its place there. -/
structure TransactionInput where
  transaction : Hash 32
  index : UInt64
  deriving DecidableEq

namespace TransactionInput

def text (input : TransactionInput) : String := s!"{input.transaction.text}#{input.index}"

/-- By transaction, then by place. -/
instance : Ranked TransactionInput where
  rank input := Ranked.rank input.transaction ++ [input.index.toNat]

theorem length_rank_transaction (first second : TransactionInput) :
    (Ranked.rank first.transaction).length = (Ranked.rank second.transaction).length := by
  simp [Ranked.rank, Bytes.rank, first.transaction.length_bytes, second.transaction.length_bytes]

theorem before_iff (first second : TransactionInput) :
    Ranked.Before first second ↔ Ranked.Before first.transaction second.transaction ∨
      first.transaction = second.transaction ∧ first.index < second.index := by
  have same : Ranked.rank first.transaction = Ranked.rank second.transaction ↔
      first.transaction = second.transaction :=
    ⟨LawfulRanked.rank_injective, congrArg Ranked.rank⟩
  have places : [first.index.toNat] < [second.index.toNat] ↔ first.index < second.index := by
    rw [UInt64.lt_iff_toNat_lt]
    simp [List.cons_lt_cons_iff]
  rw [← same, ← places]
  exact Ranked.append_lt_append_iff (length_rank_transaction first second)

instance : LawfulRanked TransactionInput where
  rank_injective {first second} same := by
    have sizes := length_rank_transaction first second
    obtain ⟨transaction, index⟩ := first
    obtain ⟨otherTransaction, otherIndex⟩ := second
    obtain ⟨sameTransaction, sameIndex⟩ := List.append_inj same sizes
    have equalTransaction : transaction = otherTransaction :=
      LawfulRanked.rank_injective sameTransaction
    have equalIndex : index = otherIndex :=
      UInt64.toNat_inj.1 (List.head_eq_of_cons_eq sameIndex)
    rw [equalTransaction, equalIndex]

open Cbor in
instance : Codec TransactionInput where
  encode input := Positional.encode [encode input.transaction, encode input.index]
  decode := do
    let (transaction, left) ← Positional.next 0 (← Positional.start)
    let (index, left) ← Positional.next 1 left
    Positional.finish left
    return ⟨transaction, index⟩

end TransactionInput

/-- The wire form that an output asks for. -/
inductive OutputFormat where
  /-- An array of the address, the value and the hash of a datum. -/
  | legacy
  /-- A map of all parts. -/
  | postAlonzo
  deriving DecidableEq, Repr

/-- A value at an address. -/
structure TransactionOutput where
  address : Address
  amount : Value
  datum : Option Datum
  script : Option Script
  format : OutputFormat
  deriving DecidableEq

namespace TransactionOutput

/-- An output that carries nothing but its value. -/
def plain (address : Address) (amount : Value) : TransactionOutput :=
  ⟨address, amount, none, none, .legacy⟩

/-- The same output in the map form. -/
def inMapForm (output : TransactionOutput) : TransactionOutput :=
  { output with format := .postAlonzo }

def datumHash? (output : TransactionOutput) : Option (Hash 32) := output.datum.map Datum.digest

/-- The output asks for the array form and the array can hold it. -/
def encodesAsLegacy (output : TransactionOutput) : Bool :=
  match output.format, output.script, output.datum with
  | .legacy, none, some (.hash _) => true
  | .legacy, none, none => true
  | _, _, _ => false

/-! ## Wire form -/

open Cbor in
/-- The positions of the array form. -/
def legacyLayout : ArrayLayout where
  record := "legacy transaction output"
  fields := [.mandatory 0 "address", .mandatory 1 "amount", .optional 2 "datum_hash"]
  sequential := by decide

open Cbor in
/-- The keys of the map form. -/
def mapRecord : Record TransactionOutput where
  name := "transaction output"
  entries :=
    [.mandatory 0 "address" address fun output found => { output with address := found },
      .mandatory 1 "amount" amount fun output found => { output with amount := found },
      .optional 2 "datum_option" datum fun output found => { output with datum := found },
      .optional 3 "script_ref" (fun output => output.script.map Embedded.mk)
        fun output found => { output with script := found.map Embedded.value }]
  distinct := by decide

/-- The output that a map is read onto. -/
def blank : TransactionOutput := (plain default default).inMapForm

open Cbor in
/-- The array form of an output with at most the hash of a datum. -/
def encodeLegacy (output : TransactionOutput) : Bytes :=
  let hash := match output.datum with
    | some (.hash hash) => some hash
    | _ => none
  Encoder.array (legacyLayout.encodedLength [true, true, hash.isSome]) ++
    encode output.address ++ encode output.amount ++ (hash.map encode).getD []

open Cbor in
/-- Reads the array form. -/
def decodeLegacy : Decoder TransactionOutput := do
  let length ← legacyLayout.decodeHeader
  let address ← decode
  let amount ← decode
  let datum ← if length = 3 then (some ∘ Datum.hash) <$> decode else pure none
  return ⟨address, amount, datum, none, .legacy⟩

open Cbor in
instance : Codec TransactionOutput where
  encode output :=
    if output.encodesAsLegacy then output.encodeLegacy else mapRecord.encode output
  decode := do
    match ← Decoder.kind with
    | .array | .indefiniteArray => decodeLegacy
    | .map | .indefiniteMap => mapRecord.decode blank
    | other => Decoder.fail (.unexpectedKind other "TransactionOutput")

end TransactionOutput

/-- An unspent output and its name. -/
structure Utxo where
  input : TransactionInput
  output : TransactionOutput
  deriving DecidableEq

namespace Utxo

open Cbor in
instance : Codec Utxo where
  encode utxo := Positional.encode [encode utxo.input, encode utxo.output]
  decode := do
    let (input, left) ← Positional.next 0 (← Positional.start)
    let (output, left) ← Positional.next 1 left
    Positional.finish left
    return ⟨input, output⟩

end Utxo

end UtxoLedger
