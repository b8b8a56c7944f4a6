import UtxoLedger.Cbor.Positional
import UtxoLedger.Cbor.Union
import UtxoLedger.Cbor.Wrapper
import UtxoLedger.Proofs.Cbor.Repetition

/-!
# Values that survive their wire form

A value survives when its own decoder reads it back from its own encoding.
Numbers and strings always do; lists, options, maps, sets and records do when
what they hold does.
-/

namespace UtxoLedger.Cbor

variable {α β : Type}

/-- The value is read back from its wire form. -/
def Survives [Codec α] (value : α) : Prop := Reads decode (encode value) value

/-- Every value of the type survives. -/
class LawfulCodec (α : Type) [Codec α] : Prop where
  survives (value : α) : Survives value

export LawfulCodec (survives)

/-- Every wire form of the type starts with an item that is no stop byte and not null. -/
class ProperCodec (α : Type) [Codec α] : Prop where
  announces (value : α) : ∃ kind, Announces (encode value) kind ∧ kind ≠ .stop ∧ kind ≠ .null

theorem ne_nil_encode [Codec α] [ProperCodec α] (value : α) : encode value ≠ [] := by
  obtain ⟨kind, announces, _⟩ := ProperCodec.announces value
  exact announces.ne_nil

/-- Bytes that a value is read from as a whole are decoded to it. -/
theorem decodeFragment_of_reads [Codec α] {bytes : Bytes} {value : α}
    (reads : Reads decode bytes value) (small : bytes.length < bound64) :
    decodeFragment α bytes = .ok value := by
  have run := reads small [] 0
  rw [List.append_nil] at run
  simp [decodeFragment, run]

/-- A value that survives is what its whole wire form is decoded to. -/
theorem decodeFragment_encode [Codec α] {value : α} (survives : Survives value)
    (small : (encode value).length < bound64) :
    decodeFragment α (encode value) = .ok value :=
  decodeFragment_of_reads survives small

/-- Reads a surviving value and goes on. -/
theorem Survives.bind [Codec α] {value : α} {next : α → Decoder β} {bytes : Bytes} {result : β}
    (survives : Survives value) (later : Reads (next value) bytes result) :
    Reads (decode >>= next) (encode value ++ bytes) result :=
  Reads.bind survives later

/-! ## Numbers and strings -/

instance : LawfulCodec UInt64 where
  survives word := by
    have reads := (reads_unsigned word.toNat_lt).map UInt64.ofNat
    rwa [UInt64.ofNat_toNat] at reads

instance : LawfulCodec UInt32 where
  survives word := by
    have word64 : word.toNat < bound64 := Nat.lt_trans word.toNat_lt (by decide)
    have reads := (reads_unsignedBelow word64 word.toNat_lt).map UInt32.ofNat
    rwa [UInt32.ofNat_toNat] at reads

instance : LawfulCodec Int64 where
  survives word := by
    have least := word.le_toInt
    have most := word.toInt_lt
    by_cases sign : 0 ≤ word.toInt
    · have small : word.toInt.toNat < bound63 := by unfold bound63; omega
      have same : Int64.ofInt (word.toInt.toNat : Int) = word := by
        rw [Int.toNat_of_nonneg sign, Int64.ofInt_toInt]
      change Reads decode (if 0 ≤ word.toInt then _ else _) word
      rw [if_pos sign]
      refine (reads_signed_unsigned (Nat.lt_trans small (by decide))).bind_last ?_
      simp only [if_pos small, Bool.false_eq_true, if_false, same]
      exact reads_pure word
    · have small : (-1 - word.toInt).toNat < bound63 := by unfold bound63; omega
      have same : Int64.ofInt (-1 - ((-1 - word.toInt).toNat : Int)) = word := by
        rw [Int.toNat_of_nonneg (by omega), Int.sub_sub_self, Int64.ofInt_toInt]
      change Reads decode (if 0 ≤ word.toInt then _ else _) word
      rw [if_neg sign]
      refine (reads_signed_negative (Nat.lt_trans small (by decide))).bind_last ?_
      simp only [if_pos small, if_true, same]
      exact reads_pure word

instance : LawfulCodec Bool := ⟨reads_bool⟩

instance : LawfulCodec String := ⟨reads_text⟩

instance : LawfulCodec Blob := ⟨fun blob => (reads_bytes blob.bytes).map Blob.mk⟩

instance : LawfulCodec WireInt where
  survives number := by
    cases number with
    | nonnegative word =>
        refine (reads_signed_unsigned word.toNat_lt).bind_last ?_
        simp only [UInt64.ofNat_toNat, Bool.false_eq_true, if_false]
        exact reads_pure _
    | negative word =>
        refine (reads_signed_negative word.toNat_lt).bind_last ?_
        simp only [UInt64.ofNat_toNat, if_true]
        exact reads_pure _

theorem ne_of_mem_wordKinds {kind : Kind} (listed : kind ∈ wordKinds) :
    kind ≠ .stop ∧ kind ≠ .null := by
  rcases mem_wordKinds.1 listed with rfl | rfl | rfl | rfl <;> exact ⟨nofun, nofun⟩

instance : ProperCodec UInt64 where
  announces word := by
    obtain ⟨kind, listed, announces⟩ := announces_unsigned word.toNat
    exact ⟨kind, announces, ne_of_mem_wordKinds listed⟩

instance : ProperCodec UInt32 where
  announces word := by
    obtain ⟨kind, listed, announces⟩ := announces_unsigned word.toNat
    exact ⟨kind, announces, ne_of_mem_wordKinds listed⟩

instance : ProperCodec String :=
  ⟨fun text => ⟨.text, announces_text text, nofun, nofun⟩⟩

instance : ProperCodec Blob :=
  ⟨fun blob => ⟨.bytes, announces_bytes blob.bytes, nofun, nofun⟩⟩

/-! ## Lists, options and pairs -/

section

variable [Codec α] [Codec β]

theorem survives_list [ProperCodec α] {list : List α} (each : ∀ value ∈ list, Survives value) :
    Survives list :=
  reads_listOf each fun value _ => ne_nil_encode value

instance [LawfulCodec α] [ProperCodec α] : LawfulCodec (List α) :=
  ⟨fun _ => survives_list fun value _ => survives value⟩

instance : ProperCodec (List α) :=
  ⟨fun list => ⟨.array, (announces_array list.length).append _, nofun, nofun⟩⟩

theorem survives_option [ProperCodec α] {option : Option α}
    (each : ∀ value ∈ option, Survives value) : Survives option := by
  cases option with
  | none => exact reads_kind announces_null ((reads_byte 0xf6).bind_last (reads_pure none))
  | some value =>
      obtain ⟨kind, announces, _, present⟩ := ProperCodec.announces value
      refine reads_kind announces ?_
      rw [if_neg present]
      exact Reads.map (each value rfl) some

instance [LawfulCodec α] [ProperCodec α] : LawfulCodec (Option α) :=
  ⟨fun _ => survives_option fun value _ => survives value⟩

theorem reads_tuple {length : Nat} (word : length < bound64) :
    Reads (Decoder.tuple length) (Encoder.array length) () := by
  refine (reads_array word).bind_last ?_
  rw [if_pos rfl]
  exact reads_pure ()

theorem survives_pair {pair : α × β} (first : Survives pair.1) (second : Survives pair.2) :
    Survives pair := by
  change Reads decode (Encoder.array 2 ++ encode pair.1 ++ encode pair.2) pair
  rw [List.append_assoc]
  exact (reads_tuple (by decide)).bind (first.bind (second.bind_last (reads_pure pair)))

instance [LawfulCodec α] [LawfulCodec β] : LawfulCodec (α × β) :=
  ⟨fun pair => survives_pair (survives pair.1) (survives pair.2)⟩

instance : ProperCodec (α × β) :=
  ⟨fun _ => ⟨.array, ((announces_array 2).append _).append _, nofun, nofun⟩⟩

/-! ## Maps and sets -/

theorem survives_orderedMap [Ranked α] [ProperCodec α] {map : OrderedMap α β}
    (keys : ∀ entry ∈ map.entries, Survives entry.1)
    (values : ∀ entry ∈ map.entries, Survives entry.2) : Survives map := by
  have reads := (reads_entriesOf keys values fun entry _ => ne_nil_encode entry.1).map
    OrderedMap.ofList
  rwa [OrderedMap.ofList_entries] at reads

instance [Ranked α] [ProperCodec α] [LawfulCodec α] [LawfulCodec β] :
    LawfulCodec (OrderedMap α β) :=
  ⟨fun _ => survives_orderedMap (fun entry _ => survives entry.1) fun entry _ => survives entry.2⟩

instance [Ranked α] : ProperCodec (OrderedMap α β) :=
  ⟨fun map => ⟨.map, (announces_map map.size).append _, nofun, nofun⟩⟩

theorem survives_wireSet [ProperCodec α] {set : WireSet α}
    (each : ∀ value ∈ set.items, Survives value) : Survives set := by
  obtain ⟨items, isTagged⟩ := set
  have reads : Survives items := survives_list each
  cases isTagged with
  | true =>
      refine reads_kind (announces_tag setTag |>.append _) ?_
      rw [if_pos rfl]
      exact (reads_expectTag setTag _).bind (reads.bind_last (reads_pure _))
  | false =>
      have announces : Announces (encode items) .array := (announces_array items.length).append _
      refine reads_kind announces ?_
      rw [if_neg nofun]
      exact reads.bind_last (reads_pure _)

instance [LawfulCodec α] [ProperCodec α] : LawfulCodec (WireSet α) :=
  ⟨fun _ => survives_wireSet fun value _ => survives value⟩

end

/-- Pairs are read back with their length form. -/
theorem reads_pairList {key : Decoder α} {value : Decoder β} {encodeKey : α → Bytes}
    {encodeValue : β → Bytes} {pairs : PairList α β}
    (left : ∀ entry ∈ pairs.entries, Reads key (encodeKey entry.1) entry.1)
    (right : ∀ entry ∈ pairs.entries, Reads value (encodeValue entry.2) entry.2)
    (goes : ∀ entry ∈ pairs.entries, ∃ kind, Announces (encodeKey entry.1) kind ∧ kind ≠ .stop) :
    Reads (PairList.decodeWith key value) (PairList.encodeWith encodeKey encodeValue pairs)
      pairs := by
  obtain ⟨entries, isDefinite⟩ := pairs
  cases isDefinite with
  | true =>
      refine reads_kind ((announces_map entries.length).append _) ?_
      refine (reads_entriesOf left right fun entry member => ?_).bind_last (reads_pure _)
      obtain ⟨kind, announces, _⟩ := goes entry member
      exact announces.ne_nil
  | false =>
      refine reads_kind ((announces_openMap.append _).append _) ?_
      exact (reads_entriesOf_open left right goes).bind_last (reads_pure _)

theorem announces_pairList (encodeKey : α → Bytes) (encodeValue : β → Bytes)
    (pairs : PairList α β) :
    Announces (PairList.encodeWith encodeKey encodeValue pairs)
      (if pairs.isDefinite then .map else .indefiniteMap) := by
  obtain ⟨entries, isDefinite⟩ := pairs
  cases isDefinite with
  | true => exact (announces_map entries.length).append _
  | false => exact (announces_openMap.append _).append _

/-! ## Records by position and unions -/

/-- The head and the code of a union announce its fields. -/
theorem reads_union {family : String} {fieldCount : Nat → Option Nat} {code : Nat}
    {fields : List Bytes} {next : Nat → Decoder β} {result : β}
    (known : fieldCount code = some fields.length) (low : code < 24)
    (few : fields.length < 24) (later : Reads (next code) fields.flatten result) :
    Reads (Union.decodeCode family fieldCount >>= next) (Union.encode code fields) result := by
  refine Reads.bind ?_ later
  have length : 1 + fields.length < bound64 := by unfold bound64; omega
  have word : code < bound64 := Nat.lt_trans low (by decide)
  refine reads_position fun start => (reads_array length).bind ((reads_unsigned word).bind_last ?_)
  simp only [known, if_true]
  exact reads_pure code

/-- An alternative with one field. -/
theorem reads_alternative {family : String} {fieldCount : Nat → Option Nat} {code : Nat}
    {decoder : Decoder α} {bytes : Bytes} {value : α} {next : Nat → Decoder β} {make : α → β}
    (known : fieldCount code = some 1) (low : code < 24) (reads : Reads decoder bytes value)
    (same : next code = make <$> decoder) :
    Reads (Union.decodeCode family fieldCount >>= next) (Union.encode code [bytes])
      (make value) := by
  refine reads_union known low (by simp) ?_
  rw [same, List.flatten_singleton]
  exact reads.map make

theorem announces_union (code : Nat) (fields : List Bytes) :
    Announces (Union.encode code fields) .array :=
  ((announces_array _).append _).append _

theorem reads_positional {fields : List Bytes} {next : Positional.Remaining → Decoder β}
    {result : β}
    (few : fields.length < 24)
    (later : Reads (next (some fields.length)) fields.flatten result) :
    Reads (Positional.start >>= next) (Positional.encode fields) result :=
  (reads_array (Nat.lt_trans few (by decide))).bind later

theorem announces_positional (fields : List Bytes) :
    Announces (Positional.encode fields) .array :=
  (announces_array _).append _

/-- The next field of a record. -/
theorem Survives.next [Codec α] {value : α} {index count : Nat}
    {next : α × Positional.Remaining → Decoder β} {bytes : Bytes} {result : β}
    (survives : Survives value) (later : Reads (next (value, some count)) bytes result) :
    Reads (Positional.next index (some (count + 1)) >>= next) (encode value ++ bytes) result :=
  Reads.bind (survives.bind_last (reads_pure (value, some count))) later

/-- A record ends behind its last field. -/
theorem reads_finish (value : α) :
    Reads (Positional.finish (some 0) >>= fun _ => pure value) [] value :=
  fun _ _ _ => rfl

/-! ## Tags and embedded values -/

/-- An embedded value is read from its own bytes. -/
theorem reads_embeddedBytes (content : Bytes) :
    Reads Decoder.embeddedBytes (Encoder.tag embeddedTag ++ Encoder.bytes content) content :=
  (reads_expectTag embeddedTag _).bind (reads_bytes content)

theorem survives_embedded [Codec α] {value : α} (survives : Survives value) :
    Survives (Embedded.mk value) := by
  refine Reads.of_fits (encode value).length ?_ fun small => ?_
  · change _ ≤ (Encoder.tag embeddedTag ++ Encoder.bytes (encode value)).length
    rw [Encoder.bytes, List.length_append, List.length_append]
    omega
  · refine (reads_embeddedBytes (encode value)).bind_last ?_
    have run := survives small [] 0
    rw [List.append_nil] at run
    simp only [run]
    exact reads_pure _

end UtxoLedger.Cbor
