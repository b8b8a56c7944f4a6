import UtxoLedger.Proofs.Chain.Submission
import UtxoLedger.Proofs.Wire.Forward
import UtxoLedger.Proofs.Wire.Received

/-!
# The id of a received transaction

The id is the hash of the body as it would be written, and a body that was
received can always be written and read back. Its own bytes are hashed only
when they are how a body is written: the decoder takes other spellings too.
-/

namespace UtxoLedger

open Cbor

/-! ## The bytes of a body -/

/-- Reads with a decoder and cuts out the bytes that it reads. -/
def Cbor.Decoder.cut {α : Type} (decoder : Decoder α) : Decoder (Bytes × α) := fun cursor =>
  match decoder.run cursor with
  | .ok (value, after) =>
      .ok ((cursor.rest.take (after.position - cursor.position), value), after)
  | .error error => .error error

theorem run_cut {α : Type} {decoder : Decoder α} {cursor after : Cursor} {value : α}
    (read : decoder.run cursor = .ok (value, after)) :
    decoder.cut.run cursor =
      .ok ((cursor.rest.take (after.position - cursor.position), value), after) := by
  unfold Decoder.run at read
  unfold Decoder.cut Decoder.run
  simp only [read]

open Decoder in
/-- Reads the body behind the head of a transaction's array and cuts out its bytes. -/
def Transaction.decodeBodyPart : Decoder (Bytes × TransactionBody) := do
  let _ ← array
  cut decode

/-- The bytes of the body in the bytes of a transaction. -/
def Transaction.bodyPart (bytes : Bytes) : Except DecodeError Bytes :=
  (decodeBodyPart.run ⟨bytes, 0⟩).map fun found => found.1.1

namespace Transaction

/-- A transaction starts with the head of an array and its body. -/
theorem exists_run_body {bytes : Bytes} {transaction : Transaction}
    (decoded : decodeFragment Transaction bytes = .ok transaction) :
    ∃ length opened after, Decoder.array.run ⟨bytes, 0⟩ = .ok (length, opened) ∧
      (decode : Decoder TransactionBody).run opened = .ok (transaction.body, after) := by
  unfold decodeFragment at decoded
  split at decoded
  next found final run =>
    split at decoded
    next =>
      cases decoded
      obtain ⟨start, _, position, run⟩ := Decoder.run_bind_eq_ok.1 run
      cases position
      obtain ⟨length, opened, array, run⟩ := Decoder.run_bind_eq_ok.1 run
      obtain ⟨body, afterBody, read, run⟩ := Decoder.run_bind_eq_ok.1 run
      obtain ⟨witnesses, _, _, run⟩ := Decoder.run_bind_eq_ok.1 run
      obtain ⟨isSuccess, _, _, run⟩ := Decoder.run_bind_eq_ok.1 run
      obtain ⟨auxiliaryData, _, _, run⟩ := Decoder.run_bind_eq_ok.1 run
      cases run
      exact ⟨length, opened, afterBody, array, read⟩
    next => cases decoded
  next => cases decoded

/-- The part of the bytes that is the body's: the body is read from it, and the rest is left. -/
theorem exists_bodyPart {bytes : Bytes} {transaction : Transaction}
    (decoded : decodeFragment Transaction bytes = .ok transaction) :
    ∃ front part tail, bodyPart bytes = .ok part ∧ bytes = front ++ (part ++ tail) ∧
      (decode : Decoder TransactionBody).run ⟨part ++ tail, front.length⟩ =
        .ok (transaction.body, ⟨tail, front.length + part.length⟩) := by
  obtain ⟨length, opened, after, array, read⟩ := exists_run_body decoded
  obtain ⟨front, _, split, moved, _⟩ := uses_openHead 4 array
  obtain ⟨part, ⟨_, tail, position⟩⟩ := moves_decode read
  obtain rfl : position = front.length := moved.trans (Nat.zero_add _)
  refine ⟨front, part, tail, ?_, split, read⟩
  unfold bodyPart decodeBodyPart
  rw [Decoder.run_bind_ok array, run_cut read]
  change Except.ok ((part ++ tail).take (front.length + part.length - front.length)) = .ok part
  rw [Nat.add_sub_cancel_left, List.take_left]

end Transaction

/-! ## Canonical bodies -/

namespace TransactionBody

/-- The bytes are how some well-formed body is written. -/
def IsCanonical (bytes : Bytes) : Prop :=
  ∃ body : TransactionBody, body.IsWellFormed ∧ encode body = bytes

/-- Canonical bytes are read as the body that they are written for. -/
theorem encode_eq_of_isCanonical {part tail : Bytes} {position : Nat} {after : Cursor}
    {body : TransactionBody} (canonical : IsCanonical part) (small : part.length < bound64)
    (read : (decode : Decoder TransactionBody).run ⟨part ++ tail, position⟩ =
      .ok (body, after)) : encode body = part := by
  obtain ⟨written, sound, rfl⟩ := canonical
  have again := survives_of_isWellFormed sound small tail position
  rw [read, Except.ok.injEq, Prod.mk.injEq] at again
  rw [again.1]

end TransactionBody

namespace Transaction

/-- The body of a received transaction is read from its part of the bytes. The id is the hash of
the body as it is written, and the body is read back from there. These are the bytes that were
received exactly when those are how a body is written, and then the id is their hash. A chain that
knows what is spent accepts the transaction, gives out its id and files its outputs under it. -/
theorem id_of_received {bytes : Bytes} {transaction : Transaction}
    (decoded : decodeFragment Transaction bytes = .ok transaction)
    (small : bytes.length < bound64) (writable : (encode transaction.body).length < bound64) :
    ∃ front part tail, bodyPart bytes = .ok part ∧ bytes = front ++ (part ++ tail) ∧
      (decode : Decoder TransactionBody).run ⟨part ++ tail, front.length⟩ =
        .ok (transaction.body, ⟨tail, front.length + part.length⟩) ∧
      transaction.id = .blake256 (encode transaction.body) ∧
      decodeFragment TransactionBody (encode transaction.body) = .ok transaction.body ∧
      (encode transaction.body = part ↔ TransactionBody.IsCanonical part) ∧
      (TransactionBody.IsCanonical part → transaction.id = .blake256 part) ∧
      ∀ chain : MemoryChain,
        ((∃ outcome, chain.submit bytes = .ok outcome) ↔
          ∀ input ∈ transaction.body.inputs.items, chain.knows input) ∧
        ∀ (id : Hash 32) (after : MemoryChain), chain.submit bytes = .ok (id, after) →
          id = transaction.id ∧ after.submitted = chain.submitted ++ [id] ∧
            after.allUtxos.Perm (MemoryChain.namedOutputs id 0 transaction.body.outputs ++
              chain.allUtxos.filter fun utxo => ¬ utxo.input ∈ transaction.body.inputs.items) := by
  obtain ⟨front, part, tail, found, split, read⟩ := exists_bodyPart decoded
  have sound := TransactionBody.yields_isWellFormed read
  have fewer : part.length < bound64 := by
    rw [split, List.length_append, List.length_append] at small
    omega
  have same (canonical : TransactionBody.IsCanonical part) : encode transaction.body = part :=
    TransactionBody.encode_eq_of_isCanonical canonical fewer read
  refine ⟨front, part, tail, found, split, read, rfl, ?_, ?_, ?_, ?_⟩
  · exact decodeFragment_encode (TransactionBody.survives_of_isWellFormed sound) writable
  · constructor
    · exact fun written => ⟨transaction.body, sound, written⟩
    · exact same
  · intro canonical
    rw [← same canonical]
    rfl
  · refine fun chain => ⟨MemoryChain.submit_isOk_iff decoded, fun id final accepted => ?_⟩
    obtain ⟨other, again, filed⟩ := MemoryChain.submit_eq_ok accepted
    rw [decoded] at again
    cases again
    exact filed

namespace Sample

/-- The name of an output, as it is written. -/
def nameBytes : Bytes := [0x82, 0x58, 0x20] ++ List.replicate 32 5 ++ [0x00]

/-- One ada at the address of a key, as it is written. -/
def outputBytes : Bytes :=
  [0x82, 0x58, 0x1d, 0x60] ++ List.replicate 28 9 ++ [0x1a, 0x00, 0x0f, 0x42, 0x40]

/-- A transaction that spends an output and pays one ada. -/
def paying : Transaction :=
  ⟨.plain [⟨⟨.replicate 32 5⟩, 0⟩]
    [.plain (.shelley ⟨.testnet, .key ⟨.replicate 28 9⟩, .none⟩) (.ofCoin 1000000)] 0,
    .empty, true, none⟩

/-- The body as it is written. -/
def strictPart : Bytes :=
  [0xa3, 0x00, 0x81] ++ nameBytes ++ [0x01, 0x81] ++ outputBytes ++ [0x02, 0x00]

/-- The body with its outputs first and its inputs in an array without a length. -/
def loosePart : Bytes :=
  [0xa3, 0x01, 0x81] ++ outputBytes ++ [0x00, 0x9f] ++ nameBytes ++ [0xff, 0x02, 0x00]

def looseBytes : Bytes := 0x84 :: (loosePart ++ [0xa0, 0xf5, 0xf6])

end Sample

/-- The loose spelling of a body is read as the body, whose id is the hash of the strict one. -/
theorem id_of_received_paying :
    decodeFragment Transaction Sample.looseBytes = .ok Sample.paying ∧
      Sample.looseBytes.length < bound64 ∧ (encode Sample.paying.body).length < bound64 ∧
      bodyPart Sample.looseBytes = .ok Sample.loosePart ∧
      (∃ front tail, Sample.looseBytes = front ++ (Sample.loosePart ++ tail) ∧
        (decode : Decoder TransactionBody).run ⟨Sample.loosePart ++ tail, front.length⟩ =
          .ok (Sample.paying.body, ⟨tail, front.length + Sample.loosePart.length⟩)) ∧
      Sample.paying.id = .blake256 Sample.strictPart ∧
      decodeFragment TransactionBody Sample.strictPart = .ok Sample.paying.body ∧
      ¬ TransactionBody.IsCanonical Sample.loosePart := by
  have decoded : decodeFragment Transaction Sample.looseBytes = .ok Sample.paying := rfl
  have small : Sample.looseBytes.length < bound64 := by decide
  have written : encode Sample.paying.body = Sample.strictPart := rfl
  have writable : (encode Sample.paying.body).length < bound64 := by
    rw [written]
    decide
  have cut : bodyPart Sample.looseBytes = .ok Sample.loosePart := rfl
  obtain ⟨front, part, tail, found, split, read, id, again, canonical, _⟩ :=
    id_of_received decoded small writable
  obtain rfl : Sample.loosePart = part := Except.ok.inj (cut.symm.trans found)
  rw [written] at id again canonical
  refine ⟨decoded, small, writable, cut, ⟨front, tail, split, read⟩, id, again, ?_⟩
  exact fun strict => absurd (canonical.2 strict) (by decide)

namespace Sample

/-- A transaction whose body has the three mandatory fields alone. -/
def bare : Transaction := ⟨.plain [] [] 0, .empty, true, none⟩

/-- The body with its outputs before its inputs. -/
def reorderedPart : Bytes := [0xa3, 0x01, 0x80, 0x00, 0x80, 0x02, 0x00]

def reorderedBytes : Bytes := 0x84 :: (reorderedPart ++ [0xa0, 0xf5, 0xf6])

end Sample

/-- A body whose keys are out of order is received, but it is not what is hashed. -/
theorem id_ne_of_reordered :
    decodeFragment Transaction Sample.reorderedBytes = .ok Sample.bare ∧
      bodyPart Sample.reorderedBytes = .ok Sample.reorderedPart ∧
      encode Sample.bare.body ≠ Sample.reorderedPart ∧
      Sample.bare.id ≠ .blake256 Sample.reorderedPart := by
  refine ⟨rfl, rfl, ?_, ?_⟩
  · decide
  · decide +kernel

end Transaction

end UtxoLedger
