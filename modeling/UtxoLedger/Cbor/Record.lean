import UtxoLedger.Cbor.Layout

/-!
# Keyed records

A keyed record is described once for both directions: every entry names a
field and says how to write it, when it is present, and how to read it into a
record. Writing gives the present fields in the order of the description;
reading goes through the layout of the same description.
-/

namespace UtxoLedger.Cbor

/-- How one field of a record is written and read. -/
structure RecordEntry (ρ : Type) where
  field : Field
  write : ρ → Option Bytes
  read : ρ → Decoder ρ

namespace RecordEntry

variable {ρ α : Type}

/-- A field that is always present. -/
def mandatory [Codec α] (key : UInt64) (name : String) (get : ρ → α) (set : ρ → α → ρ) :
    RecordEntry ρ where
  field := .mandatory key name
  write record := some (encode (get record))
  read record := set record <$> decode

/-- A field that may be absent. -/
def optional [Codec α] (key : UInt64) (name : String) (get : ρ → Option α)
    (set : ρ → Option α → ρ) : RecordEntry ρ where
  field := .optional key name
  write record := (get record).map encode
  read record := (fun value => set record (some value)) <$> decode

end RecordEntry

/-- A record written as a map with numeric keys. -/
structure Record (ρ : Type) where
  name : String
  entries : List (RecordEntry ρ)
  distinct : DistinctKeys (entries.map RecordEntry.field)

namespace Record

variable {ρ : Type}

/-- The layout of a description. -/
def layout (record : Record ρ) : MapLayout :=
  ⟨record.name, record.entries.map RecordEntry.field, record.distinct⟩

/-- The entry of a field. -/
def entry? (record : Record ρ) (field : Field) : Option (RecordEntry ρ) :=
  record.entries.find? (·.field.key = field.key)

/-- The keys and values of the present fields. -/
def present (record : Record ρ) (value : ρ) : List (UInt64 × Bytes) :=
  record.entries.filterMap fun entry =>
    (entry.write value).map fun bytes => (entry.field.key, bytes)

/-- Writes the present fields. -/
def encode (record : Record ρ) (value : ρ) : Bytes :=
  let fields := record.present value
  Encoder.map fields.length ++
    fields.flatMap fun field => Encoder.unsigned field.1.toNat ++ field.2

/-- Reads the value of a field into a record. -/
def visit (record : Record ρ) (field : Field) (value : ρ) : Decoder ρ :=
  match record.entry? field with
  | some entry => entry.read value
  | none => Decoder.fail (.unknownKey field.key record.name)

/-- Reads fields on top of a blank record. -/
def decode (record : Record ρ) (blank : ρ) : Decoder ρ :=
  record.layout.decodeEntries record.visit blank

end Record

end UtxoLedger.Cbor
