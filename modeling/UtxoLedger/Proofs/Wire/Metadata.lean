import UtxoLedger.Metadata.Auxiliary
import UtxoLedger.Proofs.Cbor.Records
import UtxoLedger.Proofs.Wire.Scripts

/-!
# Metadata that survives

A metadatum is read back when none of its strings is too long, at whatever
level it stands. Auxiliary data is read back in each of its three forms, and
maps keep their length form.
-/

namespace UtxoLedger

open Cbor

namespace Metadatum

/-! ## Short strings -/

mutual

/-- No string is longer than the limit, at any level. -/
def isShort : Metadatum → Bool
  | int _ => true
  | bytes content => content.length ≤ sizeLimit
  | text content => content.utf8ByteSize ≤ sizeLimit
  | array items => areShort items
  | map entries _ => entriesAreShort entries

/-- No string in the items is too long. -/
def areShort : List Metadatum → Bool
  | [] => true
  | first :: rest => isShort first && areShort rest

/-- No string in the keys and values is too long. -/
def entriesAreShort : List (Metadatum × Metadatum) → Bool
  | [] => true
  | (key, value) :: rest => isShort key && isShort value && entriesAreShort rest

end

theorem ofBytes_eq_ok {content : Bytes} (short : content.length ≤ sizeLimit) :
    ofBytes content = .ok (bytes content) := by
  rw [ofBytes, if_neg (Nat.not_lt.2 short)]

theorem ofText_eq_ok {content : String} (short : content.utf8ByteSize ≤ sizeLimit) :
    ofText content = .ok (text content) := by
  rw [ofText, if_neg (Nat.not_lt.2 short)]

/-! ## The wire form -/

theorem encodeItems_eq_flatMap (items : List Metadatum) :
    encodeItems items = items.flatMap encode := by
  induction items with
  | nil => rfl
  | cons first rest ih => rw [encodeItems, ih, List.flatMap_cons]

theorem encodeEntries_eq (entries : List (Metadatum × Metadatum)) :
    encodeEntries entries = Cbor.encodeEntries encode encode entries := by
  induction entries with
  | nil => rfl
  | cons first rest ih =>
      rw [encodeEntries, ih, Cbor.encodeEntries, Cbor.encodeEntries, List.flatMap_cons]

theorem encode_map (entries : List (Metadatum × Metadatum)) (isDefinite : Bool) :
    encode (map entries isDefinite) = PairList.encodeWith encode encode ⟨entries, isDefinite⟩ := by
  rw [encode, encodeEntries_eq, PairList.encodeWith]

instance : ProperCodec Metadatum where
  announces datum := by
    change ∃ kind, Announces (encode datum) kind ∧ _
    cases datum with
    | int number =>
        rw [encode]
        cases number with
        | nonnegative word =>
            obtain ⟨kind, listed, announces⟩ := announces_unsigned word.toNat
            exact ⟨kind, announces, ne_of_mem_wordKinds listed⟩
        | negative word =>
            obtain ⟨kind, listed, announces⟩ := announces_negative word.toNat
            refine ⟨kind, announces, ?_⟩
            rcases mem_negativeKinds.1 listed with rfl | rfl | rfl | rfl | rfl <;>
              exact ⟨nofun, nofun⟩
    | bytes content =>
        rw [encode]
        exact ⟨.bytes, announces_bytes content, nofun, nofun⟩
    | text content =>
        rw [encode]
        exact ⟨.text, announces_text content, nofun, nofun⟩
    | array items =>
        rw [encode]
        exact ⟨.array, (announces_array _).append _, nofun, nofun⟩
    | map entries isDefinite =>
        rw [encode_map]
        refine ⟨_, announces_pairList _ _ _, ?_⟩
        cases isDefinite <;> exact ⟨nofun, nofun⟩

/-! ## Reading -/

theorem reads_int (number : WireInt) (depth : Nat) :
    Reads (decodeWithin (depth + 1)) (encode (int number)) (int number) := by
  have reads := Reads.map (survives number) int
  rw [encode]
  refine reads_position fun start => ?_
  cases number with
  | nonnegative word =>
      obtain ⟨kind, listed, announces⟩ := announces_unsigned word.toNat
      refine reads_kind announces ?_
      rcases mem_wordKinds.1 listed with rfl | rfl | rfl | rfl <;> exact reads
  | negative word =>
      obtain ⟨kind, listed, announces⟩ := announces_negative word.toNat
      refine reads_kind announces ?_
      rcases mem_negativeKinds.1 listed with rfl | rfl | rfl | rfl | rfl <;> exact reads

/-- A list of items is read when its items are. -/
theorem reads_array {depth : Nat} {items : List Metadatum}
    (each : ∀ item ∈ items, Reads (decodeWithin depth) (encode item) item) :
    Reads (decodeWithin (depth + 1)) (encode (array items)) (array items) := by
  rw [encode, encodeItems_eq_flatMap]
  have reads := reads_listOf each fun item _ => ne_nil_encode item
  refine reads_position fun start => reads_kind ((announces_array _).append _) ?_
  exact reads.map array

/-- A map is read when its keys and values are. -/
theorem reads_map {depth : Nat} {entries : List (Metadatum × Metadatum)}
    (keys : ∀ entry ∈ entries, Reads (decodeWithin depth) (encode entry.1) entry.1)
    (values : ∀ entry ∈ entries, Reads (decodeWithin depth) (encode entry.2) entry.2)
    (isDefinite : Bool) :
    Reads (decodeWithin (depth + 1)) (encode (map entries isDefinite))
      (map entries isDefinite) := by
  have goes : ∀ entry ∈ entries, ∃ kind, Announces (encode entry.1) kind ∧ kind ≠ .stop := by
    intro entry _
    obtain ⟨kind, announces, proceeds, _⟩ := ProperCodec.announces entry.1
    exact ⟨kind, announces, proceeds⟩
  have reads : Reads (PairList.decodeWith (decodeWithin depth) (decodeWithin depth))
      (PairList.encodeWith encode encode ⟨entries, isDefinite⟩) ⟨entries, isDefinite⟩ :=
    reads_pairList keys values goes
  rw [encode_map]
  refine reads_position fun start => reads_kind (announces_pairList _ _ _) ?_
  cases isDefinite <;> exact reads.bind_last (reads_pure _)

mutual

/-- A metadatum of short strings is read with an allowance of its length. -/
theorem reads_decodeWithin : (datum : Metadatum) → (depth : Nat) → isShort datum = true →
    (encode datum).length < depth → Reads (decodeWithin depth) (encode datum) datum
  | datum, 0, _, enough => absurd enough (Nat.not_lt_zero _)
  | int number, depth + 1, _, _ => reads_int number depth
  | bytes content, depth + 1, short, _ => by
      rw [isShort, decide_eq_true_eq] at short
      rw [encode]
      refine reads_position fun start => reads_kind (announces_bytes content) ?_
      refine (reads_bytes content).bind_last ?_
      rw [ofBytes_eq_ok short]
      exact reads_pure _
  | text content, depth + 1, short, _ => by
      rw [isShort, decide_eq_true_eq] at short
      rw [encode]
      refine reads_position fun start => reads_kind (announces_text content) ?_
      refine (reads_text content).bind_last ?_
      rw [ofText_eq_ok short]
      exact reads_pure _
  | array items, depth + 1, short, enough => by
      have head := List.length_pos_iff.2 (announces_array items.length).ne_nil
      rw [isShort] at short
      rw [encode, List.length_append] at enough
      exact reads_array (reads_items items depth short (by omega))
  | map entries isDefinite, depth + 1, short, enough => by
      have entriesFit : (encodeEntries entries).length < depth := by
        have head := List.length_pos_iff.2 (announces_map entries.length).ne_nil
        have openHead := List.length_pos_iff.2 announces_openMap.ne_nil
        rw [encode] at enough
        split at enough <;> simp only [List.length_append] at enough <;> omega
      rw [isShort] at short
      obtain ⟨keys, values⟩ := reads_entries entries depth short entriesFit
      exact reads_map keys values isDefinite

/-- Items of short strings are read with an allowance of their common length. -/
theorem reads_items : (items : List Metadatum) → (depth : Nat) → areShort items = true →
    (encodeItems items).length < depth →
      ∀ item ∈ items, Reads (decodeWithin depth) (encode item) item
  | [], _, _, _ => nofun
  | first :: rest, depth, short, enough => by
      rw [areShort, Bool.and_eq_true] at short
      rw [encodeItems, List.length_append] at enough
      have here := reads_decodeWithin first depth short.1 (by omega)
      have later := reads_items rest depth short.2 (by omega)
      intro item listed
      rcases List.mem_cons.1 listed with rfl | behind
      · exact here
      · exact later item behind

/-- Keys and values of short strings are read with an allowance of their common length. -/
theorem reads_entries : (entries : List (Metadatum × Metadatum)) → (depth : Nat) →
    entriesAreShort entries = true → (encodeEntries entries).length < depth →
      (∀ entry ∈ entries, Reads (decodeWithin depth) (encode entry.1) entry.1) ∧
        ∀ entry ∈ entries, Reads (decodeWithin depth) (encode entry.2) entry.2
  | [], _, _, _ => ⟨nofun, nofun⟩
  | (key, value) :: rest, depth, short, enough => by
      rw [entriesAreShort, Bool.and_eq_true, Bool.and_eq_true] at short
      rw [encodeEntries, List.length_append, List.length_append] at enough
      have left := reads_decodeWithin key depth short.1.1 (by omega)
      have right := reads_decodeWithin value depth short.1.2 (by omega)
      obtain ⟨keys, values⟩ := reads_entries rest depth short.2 (by omega)
      constructor
      · intro entry listed
        rcases List.mem_cons.1 listed with rfl | behind
        · exact left
        · exact keys entry behind
      · intro entry listed
        rcases List.mem_cons.1 listed with rfl | behind
        · exact right
        · exact values entry behind

end

theorem survives_of_isShort {datum : Metadatum} (short : datum.isShort = true) :
    Survives datum :=
  reads_remaining fun left enough =>
    reads_decodeWithin datum (left + 1) short (Nat.lt_succ_of_le enough)

end Metadatum

/-! ## Auxiliary data -/

/-- No string under any label is too long. -/
def Metadata.isShort (metadata : Metadata) : Bool :=
  metadata.entries.all fun entry => entry.2.isShort

theorem Metadata.survives_of_isShort {metadata : Metadata} (short : metadata.isShort = true) :
    Survives metadata := by
  have each := List.all_eq_true.1 short
  refine reads_pairList (fun entry _ => survives entry.1)
    (fun entry listed => Metadatum.survives_of_isShort (each entry listed)) fun entry _ => ?_
  obtain ⟨kind, announces, proceeds, _⟩ := ProperCodec.announces entry.1
  exact ⟨kind, announces, proceeds⟩

theorem AuxiliaryParts.reads_decode {parts : AuxiliaryParts}
    (short : ∀ metadata ∈ parts.metadata, metadata.isShort = true) :
    Reads (record.decode blank) (record.encode parts) parts := by
  refine Record.reads_decode ?_
  refine .optional rfl (fun metadata held => Metadata.survives_of_isShort (short metadata held)) ?_
  refine .optional rfl (fun scripts _ => survives scripts) ?_
  refine .optional rfl (fun scripts _ => survives scripts) ?_
  refine .optional rfl (fun scripts _ => survives scripts) ?_
  refine .optional rfl (fun scripts _ => survives scripts) ?_
  exact .nil parts

namespace AuxiliaryData

/-- No string of the metadata is too long. -/
def IsShort (data : AuxiliaryData) : Prop := ∀ metadata ∈ data.metadata?, metadata.isShort = true

theorem survives_of_isShort {data : AuxiliaryData} (short : data.IsShort) : Survives data := by
  refine reads_position fun start => ?_
  cases data with
  | shelley metadata =>
      have reads := Reads.map (Metadata.survives_of_isShort (short metadata rfl)) shelley
      refine reads_kind (announces_pairList _ _ _) ?_
      cases metadata.isDefinite <;> exact reads
  | shelleyMa metadata scripts =>
      have reads := Metadata.survives_of_isShort (short metadata rfl)
      change Reads _ (Encoder.array 2 ++ encode metadata ++ encode scripts) _
      rw [List.append_assoc]
      refine reads_kind ((announces_array 2).append _) ((reads_array (by decide)).bind ?_)
      rw [if_pos rfl]
      exact reads.bind ((survives scripts).bind_last (reads_pure _))
  | postAlonzo parts =>
      have reads := (AuxiliaryParts.reads_decode short).map postAlonzo
      refine reads_kind ((announces_tag formTag).append _) ?_
      exact (reads_expectTag formTag _).bind reads

end AuxiliaryData

instance : ProperCodec AuxiliaryData where
  announces data := by
    cases data with
    | shelley metadata =>
        refine ⟨_, announces_pairList _ _ _, ?_⟩
        split <;> exact ⟨nofun, nofun⟩
    | shelleyMa metadata scripts =>
        exact ⟨.array, ((announces_array 2).append _).append _, nofun, nofun⟩
    | postAlonzo parts => exact ⟨.tag, (announces_tag _).append _, nofun, nofun⟩

end UtxoLedger
