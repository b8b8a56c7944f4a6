import UtxoLedger.Number.Shortest

/-!
# JSON values

A number is an integer when it is written without fraction and exponent and
fits a 64-bit word, signed or unsigned; every other number is a floating
point one. Objects list their members; values read from text list them by
increasing key, each key once.
-/

namespace UtxoLedger

/-- A JSON number. -/
inductive JsonNumber where
  | unsigned (word : UInt64)
  /-- A number below zero. -/
  | negative (word : Int64)
  | float (number : Number.Binary64)
  deriving DecidableEq, Repr

namespace JsonNumber

def text : JsonNumber → String
  | unsigned word => toString word
  | negative word => toString word.toInt
  | float number => number.text

end JsonNumber

/-- A JSON value. -/
inductive Json where
  | null
  | bool (value : Bool)
  | number (value : JsonNumber)
  | string (value : String)
  | array (items : List Json)
  | object (members : List (String × Json))

namespace Json

def ofWord (word : UInt64) : Json := number (.unsigned word)

def ofInt (value : Int) : Json :=
  if 0 ≤ value then ofWord (UInt64.ofNat value.toNat) else number (.negative (Int64.ofInt value))

/-- A value or null. -/
def ofOption {α : Type} (toJson : α → Json) : Option α → Json
  | some value => toJson value
  | none => null

/-- Puts a member at its place by key, replacing one of the same key. -/
def insertMember (key : String) (value : Json) : List (String × Json) → List (String × Json)
  | [] => [(key, value)]
  | (other, old) :: rest =>
      if key < other then (key, value) :: (other, old) :: rest
      else if key = other then (key, value) :: rest
      else (other, old) :: insertMember key value rest

/-! ## Text -/

/-- Two hexadecimal digits of a number below 256. -/
def twoDigits (number : Nat) : List Char :=
  Nat.toDigits 16 (number / 16) ++ Nat.toDigits 16 (number % 16)

/-- A character inside a JSON string. -/
def escaped (character : Char) : List Char :=
  if character = '"' then ['\\', '"']
  else if character = '\\' then ['\\', '\\']
  else if character = '\x08' then ['\\', 'b']
  else if character = '\t' then ['\\', 't']
  else if character = '\n' then ['\\', 'n']
  else if character = '\x0c' then ['\\', 'f']
  else if character = '\x0d' then ['\\', 'r']
  else if character.toNat < 32 then ['\\', 'u', '0', '0'] ++ twoDigits character.toNat
  else [character]

/-- A JSON string with its quotes. -/
def quotedText (text : String) : String :=
  "\"" ++ String.ofList (text.toList.flatMap escaped) ++ "\""

mutual

/-- The compact text of a value. -/
def text : Json → String
  | null => "null"
  | bool value => if value then "true" else "false"
  | number value => value.text
  | string value => quotedText value
  | array items => "[" ++ ",".intercalate (itemTexts items) ++ "]"
  | object members => "\x7b" ++ ",".intercalate (memberTexts members) ++ "\x7d"

/-- The texts of the items of an array. -/
def itemTexts : List Json → List String
  | [] => []
  | first :: rest => text first :: itemTexts rest

/-- The texts of the members of an object. -/
def memberTexts : List (String × Json) → List String
  | [] => []
  | (key, value) :: rest => (quotedText key ++ ":" ++ text value) :: memberTexts rest

end

end Json

end UtxoLedger
