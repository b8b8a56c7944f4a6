/-!
# Kinds of data items

The first byte of a data item, and for a negative number also the second one,
tells what kind of item it is. The kinds carry the names used in diagnostics.
-/

namespace UtxoLedger.Cbor

/-- What the first bytes of a data item announce. -/
inductive Kind where
  | u8 | u16 | u32 | u64
  | i8 | i16 | i32 | i64 | int
  | bytes | indefiniteBytes
  | text | indefiniteText
  | array | indefiniteArray
  | map | indefiniteMap
  | tag
  | simple | bool | null | undefined
  | f16 | f32 | f64
  | stop
  | unknown (byte : UInt8)
  deriving DecidableEq, Repr

namespace Kind

def name : Kind → String
  | u8 => "u8"
  | u16 => "u16"
  | u32 => "u32"
  | u64 => "u64"
  | i8 => "i8"
  | i16 => "i16"
  | i32 => "i32"
  | i64 => "i64"
  | int => "int"
  | bytes => "bytes"
  | indefiniteBytes => "indefinite bytes"
  | text => "string"
  | indefiniteText => "indefinite string"
  | array => "array"
  | indefiniteArray => "indefinite array"
  | map => "map"
  | indefiniteMap => "indefinite map"
  | tag => "tag"
  | simple => "simple"
  | bool => "bool"
  | null => "null"
  | undefined => "undefined"
  | f16 => "f16"
  | f32 => "f32"
  | f64 => "f64"
  | stop => "break"
  | unknown byte => "0x" ++ String.ofList (Nat.toDigits 16 byte.toNat)

/-- The kind told by a first byte alone, when it is enough. -/
def ofFirst? (first : UInt8) : Option Kind :=
  if first ≤ 0x18 then some u8
  else if first = 0x19 then some u16
  else if first = 0x1a then some u32
  else if first = 0x1b then some u64
  else if first ≤ 0x1f then some (unknown first)
  else if first ≤ 0x37 then some i8
  else if first ≤ 0x3b then none
  else if first ≤ 0x3f then some (unknown first)
  else if first ≤ 0x5b then some bytes
  else if first = 0x5f then some indefiniteBytes
  else if first ≤ 0x5f then some (unknown first)
  else if first ≤ 0x7b then some text
  else if first = 0x7f then some indefiniteText
  else if first ≤ 0x7f then some (unknown first)
  else if first ≤ 0x9b then some array
  else if first = 0x9f then some indefiniteArray
  else if first ≤ 0x9f then some (unknown first)
  else if first ≤ 0xbb then some map
  else if first = 0xbf then some indefiniteMap
  else if first ≤ 0xbf then some (unknown first)
  else if first ≤ 0xdb then some tag
  else if first ≤ 0xdf then some (unknown first)
  else if first ≤ 0xf3 then some simple
  else if first ≤ 0xf5 then some bool
  else if first = 0xf6 then some null
  else if first = 0xf7 then some undefined
  else if first = 0xf8 then some simple
  else if first = 0xf9 then some f16
  else if first = 0xfa then some f32
  else if first = 0xfb then some f64
  else if first = 0xff then some stop
  else some (unknown first)

/-- The kind of a long negative number: the byte after the first tells whether it fits a
signed word of the same width. -/
def ofNegative (first second : UInt8) : Kind :=
  if first = 0x38 then if second < 0x80 then i8 else i16
  else if first = 0x39 then if second < 0x80 then i16 else i32
  else if first = 0x3a then if second < 0x80 then i32 else i64
  else if second < 0x80 then i64 else int

/-- The kind told by the first two bytes; `none` when the second is needed and absent. -/
def ofBytes? (first : UInt8) (second : Option UInt8) : Option Kind :=
  match ofFirst? first with
  | some kind => some kind
  | none => second.map (ofNegative first)

end Kind

end UtxoLedger.Cbor
