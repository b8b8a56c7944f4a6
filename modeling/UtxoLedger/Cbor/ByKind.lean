import UtxoLedger.Cbor.Wrapper

/-!
# Unions told apart by kind

Some unions have no code: the kind of the next item tells which alternative
follows. Several alternatives may be single items; one may be an array of
fields, of which the head is read and the fields follow. The number in the
head is not compared with the number of fields.
-/

namespace UtxoLedger.Cbor

/-- An alternative that is one item of any of the given kinds. -/
structure KindCase (α : Type) where
  kinds : List Kind
  decode : Decoder α

/-- A union without codes. -/
structure KindUnion (α : Type) where
  name : String
  single : List (KindCase α)
  /-- Reads the fields of the alternative that is an array. -/
  fields : Option (Decoder α)

namespace KindUnion

variable {α : Type}

/-- The decoder of an alternative by the kind of the next item. -/
def decoder? (union : KindUnion α) (kind : Kind) : Option (Decoder α) :=
  match kind, union.fields with
  | .array, some fields => some (do let _ ← Decoder.array; fields)
  | _, _ => (union.single.find? (·.kinds.contains kind)).map KindCase.decode

def decode (union : KindUnion α) : Decoder α := do
  let kind ← Decoder.kind
  match union.decoder? kind with
  | some decoder => decoder
  | none => Decoder.fail (.unexpectedKind kind union.name)

end KindUnion

/-- A number, a text, or a number with a string of bytes. -/
inductive Mixed where
  | number (word : UInt64)
  | text (content : String)
  | pair (word : UInt64) (blob : Blob)
  deriving DecidableEq, Repr

namespace Mixed

def debug : Mixed → String
  | number word => s!"Number({word})"
  | text content => s!"Text({Text.quoted content})"
  | pair word blob => s!"Pair({word}, {blob.debug})"

def union : KindUnion Mixed where
  name := "Mixed"
  single :=
    [⟨[.u8, .u16, .u32, .u64], number <$> Codec.decode⟩, ⟨[.text], text <$> Codec.decode⟩]
  fields := some (do return pair (← Codec.decode) (← Codec.decode))

instance : Codec Mixed where
  encode
    | number word => Codec.encode word
    | text content => Codec.encode content
    | pair word blob => Encoder.array 2 ++ Codec.encode word ++ Codec.encode blob
  decode := union.decode

end Mixed

end UtxoLedger.Cbor
