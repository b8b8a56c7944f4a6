import UtxoLedger.Text.Invisible

/-!
# Quoted characters and text

Diagnostic text shows a character between single quotes and a string between
double quotes. The quote in use, the backslash and a few controls have short
escapes; other invisible characters are given by number.
-/

namespace UtxoLedger.Text

/-- Lower-case hexadecimal digits of a number. -/
def hexadecimal (number : Nat) : String := String.ofList (Nat.toDigits 16 number)

/-- The character as it stands between the given quotes. -/
def escaped (quote character : Char) : String :=
  if character = '\x00' then "\\0"
  else if character = '\t' then "\\t"
  else if character = '\n' then "\\n"
  else if character = '\x0d' then "\\r"
  else if character = '\\' then "\\\\"
  else if character = quote then String.ofList ['\\', quote]
  else if isInvisible character then "\\u\x7b" ++ hexadecimal character.toNat ++ "\x7d"
  else String.singleton character

/-- A character between single quotes. -/
def quotedChar (character : Char) : String :=
  "'" ++ escaped '\'' character ++ "'"

/-- A text between double quotes. -/
def quoted (text : String) : String :=
  "\"" ++ String.join (text.toList.map (escaped '"')) ++ "\""

/-- A control character: one below the space, or from delete to the end of the second block. -/
def isControl (character : Char) : Bool :=
  character.toNat < 0x20 || (0x7F ≤ character.toNat && character.toNat < 0xA0)

end UtxoLedger.Text
