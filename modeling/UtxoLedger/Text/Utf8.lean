import UtxoLedger.Bytes

/-!
# Text as UTF-8 bytes

Text on the wire is UTF-8. Strict reading refuses ill-formed bytes; lenient
reading puts the replacement character in the place of each ill-formed run.
-/

namespace UtxoLedger.Text

/-- The UTF-8 bytes of a text. -/
def toBytes (text : String) : Bytes := text.toUTF8.data.toList

/-- The text whose UTF-8 bytes are given, when they are well formed. -/
def ofBytes? (bytes : Bytes) : Option String := String.fromUTF8? bytes.toByteArray

theorem ofBytes?_toBytes (text : String) : ofBytes? (toBytes text) = some text := by
  have whole : (toBytes text).toByteArray = text.toUTF8 := by
    apply ByteArray.ext
    simp [toBytes]
  rw [ofBytes?, whole]
  exact dif_pos text.isValidUTF8

/-! ## Lenient reading -/

/-- The character put in the place of ill-formed bytes. -/
def replacement : Char := Char.ofNat 0xFFFD

/-- A byte that continues a multi-byte character. -/
def isContinuation (byte : UInt8) : Bool := 0x80 ≤ byte && byte ≤ 0xBF

/-- The second byte may follow the first one at the start of a longer character. -/
def opensWith (first second : UInt8) : Bool :=
  if first = 0xE0 then 0xA0 ≤ second && second ≤ 0xBF
  else if first = 0xED then 0x80 ≤ second && second ≤ 0x9F
  else if first = 0xF0 then 0x90 ≤ second && second ≤ 0xBF
  else if first = 0xF4 then 0x80 ≤ second && second ≤ 0x8F
  else isContinuation second

/-- The number of bytes announced by the first byte of a character, zero for none. -/
def announced (first : UInt8) : Nat :=
  if first < 0x80 then 1
  else if 0xC2 ≤ first && first ≤ 0xDF then 2
  else if 0xE0 ≤ first && first ≤ 0xEF then 3
  else if 0xF0 ≤ first && first ≤ 0xF4 then 4
  else 0

/-- How many of the bytes after `first` belong to its character, as far as they are well formed. -/
def followers (first : UInt8) (rest : Bytes) : Nat :=
  match rest with
  | [] => 0
  | second :: others =>
      if opensWith first second then
        1 + ((others.take (announced first - 2)).takeWhile isContinuation).length
      else 0

/-- The first character of a non-empty byte string and the number of bytes after the first
that it takes; an ill-formed start yields the replacement character. -/
def firstCharacter (first : UInt8) (rest : Bytes) : Char × Nat :=
  match announced first with
  | 0 => (replacement, 0)
  | 1 => (Char.ofNat first.toNat, 0)
  | size =>
      let taken := followers first rest
      if taken + 1 = size then
        let payload := (rest.take taken).foldl (fun total byte => 64 * total + byte.toNat % 64)
          (first.toNat % Nat.pow 2 (7 - size))
        (Char.ofNat payload, taken)
      else (replacement, taken)

/-- The characters of at most `fuel` leading characters of a byte string. -/
def lenientCharacters : (fuel : Nat) → Bytes → List Char
  | 0, _ => []
  | _ + 1, [] => []
  | fuel + 1, first :: rest =>
      let (character, taken) := firstCharacter first rest
      character :: lenientCharacters fuel (rest.drop taken)

/-- The text of any byte string; each ill-formed run becomes one replacement character. -/
def ofBytesLenient (bytes : Bytes) : String :=
  String.ofList (lenientCharacters bytes.length bytes)

end UtxoLedger.Text
