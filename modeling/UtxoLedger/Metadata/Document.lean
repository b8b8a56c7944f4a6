import UtxoLedger.Metadata.Basic
import UtxoLedger.Text.Decimal

/-!
# Metadata from JSON

Integers, strings, arrays and objects of a JSON value become metadata; other
values have no counterpart. An object keyed by labels becomes the metadata of
a transaction.
-/

namespace UtxoLedger

namespace Metadatum

/-- The integer that a JSON number is. -/
def ofJsonNumber : JsonNumber → Except MetadataError Metadatum
  | .unsigned word => .ok (int (.nonnegative word))
  | .negative word => .ok (ofInt64 word)
  | .float number => .error (.nonInteger (.float number))

mutual

/-- The metadatum of a JSON value. -/
def ofJson : Json → Except MetadataError Metadatum
  | .number number => ofJsonNumber number
  | .string content => ofText content
  | .array items => array <$> ofJsonItems items
  | .object members => (map · true) <$> ofJsonMembers members
  | .bool value => .error (.boolean value)
  | .null => .error .null

/-- The metadata of the items of an array, up to the first fault. -/
def ofJsonItems : List Json → Except MetadataError (List Metadatum)
  | [] => .ok []
  | first :: rest => do
      let item ← ofJson first
      let items ← ofJsonItems rest
      return item :: items

/-- The entries of the members of an object, up to the first fault. -/
def ofJsonMembers : List (String × Json) → Except MetadataError (List (Metadatum × Metadatum))
  | [] => .ok []
  | (key, value) :: rest => do
      let label ← ofText key
      let content ← ofJson value
      let entries ← ofJsonMembers rest
      return (label, content) :: entries

end

end Metadatum

namespace Metadata

/-- The entry of a member whose key is a label in decimal digits. -/
def entryOfMember (member : String × Json) : Except MetadataError (UInt64 × Metadatum) :=
  match Text.readWord? member.1 with
  | none => .error (.badLabel member.1)
  | some label => do return (label, ← Metadatum.ofJson member.2)

/-- The metadata of an object keyed by labels. -/
def ofJson : Json → Except MetadataError Metadata
  | .object members => Cbor.PairList.definite <$> members.mapM entryOfMember
  | _ => .error .notAnObject

end Metadata

end UtxoLedger
