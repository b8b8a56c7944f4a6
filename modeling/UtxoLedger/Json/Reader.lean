import UtxoLedger.Json.Value
import UtxoLedger.Text.Utf8
import UtxoLedger.Width

/-!
# Reading JSON text

Readers consume UTF-8 bytes from the front and stop at the first fault: the
text is malformed, or it is well formed so far and does not describe the
value wanted. Typed values are read as the text goes by, so which of two
faults is reported depends on which comes first.
-/

namespace UtxoLedger

/-- Why a JSON text was refused. -/
inductive JsonError where
  /-- The text is not JSON. -/
  | malformed
  /-- The text is JSON of another shape or with a value out of range. -/
  | mismatch
  deriving DecidableEq, Repr

namespace Json

/-- A reader of one value from the front of a text. -/
def Reader (α : Type) := Bytes → Except JsonError (α × Bytes)

namespace Reader

variable {α β : Type}

instance : Monad Reader where
  pure value := fun rest => .ok (value, rest)
  bind reader next := fun rest =>
    match reader rest with
    | .ok (value, after) => next value after
    | .error error => .error error

def malformed : Reader α := fun _ => .error .malformed

def mismatch : Reader α := fun _ => .error .mismatch

/-- The next byte, which stays unread; `none` at the end. -/
def peek? : Reader (Option UInt8) := fun rest => .ok (rest.head?, rest)

/-- Reads a byte; the end of the text is a fault. -/
def byte : Reader UInt8
  | [] => .error .malformed
  | first :: rest => .ok (first, rest)

/-- Drops the byte that has been looked at. -/
def advance : Reader Unit := fun rest => .ok ((), rest.drop 1)

def isBlank (byte : UInt8) : Bool := byte = 32 || byte = 10 || byte = 9 || byte = 13

def isDigit (byte : UInt8) : Bool := 48 ≤ byte && byte ≤ 57

/-- Skips blanks and looks at the next byte; the end of the text is a fault. -/
def peekItem : Reader UInt8 := fun rest =>
  match rest.dropWhile isBlank with
  | [] => .error .malformed
  | first :: others => .ok (first, first :: others)

/-- Reads the given bytes. -/
def expect : Bytes → Reader Unit
  | [] => pure ()
  | wanted :: others => do
      if (← byte) = wanted then expect others else malformed

/-- The bytes left, which bound every repetition. -/
def remaining : Reader Nat := fun rest => .ok (rest.length, rest)

/-! ## Numbers -/

/-- The number that decimal digits stand for. -/
def decimalValue (digits : Bytes) : Nat :=
  digits.foldl (fun total digit => 10 * total + (digit.toNat - 48)) 0

/-- The significant digits of a number and its power of ten. -/
structure Scaled where
  significand : Nat
  exponent : Int

/-- Reads digits onto a significand while it fits a word; later digits are dropped, and each
one read moves the exponent by `step`, each one dropped by `dropStep`. -/
def digitsOnto (step dropStep : Int) : Scaled → Bytes → Scaled × Bytes
  | scaled, [] => (scaled, [])
  | scaled, first :: rest =>
      if isDigit first then
        let next := 10 * scaled.significand + (first.toNat - 48)
        if next < bound64 then digitsOnto step dropStep ⟨next, scaled.exponent + step⟩ rest
        else
          let dropped := (first :: rest).takeWhile isDigit
          (⟨scaled.significand, scaled.exponent + dropStep * dropped.length⟩,
            rest.dropWhile isDigit)
      else (scaled, first :: rest)

/-- The largest exponent that is taken as it is. -/
def exponentLimit : Nat := 2147483647

/-- The rounded value of a scaled number. -/
def rounded (isNegative : Bool) (scaled : Scaled) : Reader JsonNumber :=
  match Number.Magnitude.ofDecimal? scaled.significand scaled.exponent with
  | some magnitude => pure (.float ⟨isNegative, magnitude⟩)
  | none => malformed

/-- Reads what follows the letter of an exponent. -/
def exponentPart (isNegative : Bool) (scaled : Scaled) : Reader JsonNumber := do
  let isDown ← do
    match ← peek? with
    | some 43 => advance; pure false
    | some 45 => advance; pure true
    | _ => pure false
  let first ← byte
  if !isDigit first then malformed
  else fun rest =>
    let exponent := decimalValue (first :: rest.takeWhile isDigit)
    let after := rest.dropWhile isDigit
    if exponentLimit < exponent then
      if scaled.significand ≠ 0 && !isDown then .error .malformed
      else .ok (.float ⟨isNegative, .zero⟩, after)
    else
      let shift : Int := if isDown then -exponent else exponent
      rounded isNegative ⟨scaled.significand, scaled.exponent + shift⟩ after

/-- Reads an optional exponent behind the digits. -/
def afterDigits (isNegative : Bool) (scaled : Scaled) : Reader JsonNumber := do
  match ← peek? with
  | some 101 | some 69 => advance; exponentPart isNegative scaled
  | _ => rounded isNegative scaled

/-- Reads what follows the point of a fraction. -/
def fractionPart (isNegative : Bool) (scaled : Scaled) : Reader JsonNumber := do
  let first ← byte
  if !isDigit first then malformed
  else fun rest =>
    let (next, after) := digitsOnto (-1) 0 scaled (first :: rest)
    afterDigits isNegative next after

/-- The number of integer digits that fit a word, read without fraction or exponent. -/
def integer (isNegative : Bool) (significand : Nat) : JsonNumber :=
  if !isNegative then .unsigned (UInt64.ofNat significand)
  else if significand = 0 || bound63 < significand then
    match Number.Magnitude.ofNat? significand with
    | some magnitude => .float ⟨true, magnitude⟩
    | none => .float ⟨true, .zero⟩
  else .negative (Int64.ofInt (-significand))

/-- Reads the first digit of a number; a leading zero stands alone. -/
def leadingDigit : Reader UInt8 := do
  let first ← byte
  if !isDigit first then malformed
  else if first = 48 then
    match ← peek? with
    | some second => if isDigit second then malformed else pure first
    | none => pure first
  else pure first

/-- Reads the digits of a number behind its sign. -/
def digits (isNegative : Bool) : Reader JsonNumber := do
  let first ← leadingDigit
  fun rest =>
    let (scaled, after) :=
      if first = 48 then (⟨0, 0⟩, rest) else digitsOnto 0 1 ⟨0, 0⟩ (first :: rest)
    match after with
    | 46 :: others => fractionPart isNegative scaled others
    | 101 :: others => exponentPart isNegative scaled others
    | 69 :: others => exponentPart isNegative scaled others
    | others =>
        if scaled.exponent = 0 then .ok (integer isNegative scaled.significand, others)
        else rounded isNegative scaled others

/-- Reads a number of either sign. -/
def number : Reader JsonNumber := do
  match ← peek? with
  | some 45 => advance; digits true
  | _ => digits false

/-! ## Strings -/

def hexValue? (byte : UInt8) : Option Nat :=
  if isDigit byte then some (byte.toNat - 48)
  else if 97 ≤ byte && byte ≤ 102 then some (byte.toNat - 87)
  else if 65 ≤ byte && byte ≤ 70 then some (byte.toNat - 55)
  else none

/-- Reads four hexadecimal digits. -/
def fourDigits : Reader Nat := fun rest =>
  match rest with
  | first :: second :: third :: fourth :: others =>
      match hexValue? first, hexValue? second, hexValue? third, hexValue? fourth with
      | some a, some b, some c, some d => .ok (((a * 16 + b) * 16 + c) * 16 + d, others)
      | _, _, _, _ => .error .malformed
  | _ => .error .malformed

/-- The character of a short escape. -/
def shortEscape? (byte : UInt8) : Option UInt8 :=
  match byte with
  | 34 => some 34
  | 92 => some 92
  | 47 => some 47
  | 98 => some 8
  | 102 => some 12
  | 110 => some 10
  | 114 => some 13
  | 116 => some 9
  | _ => none

/-- Reads the rest of a numbered escape; a leading surrogate takes the trailing one with it. -/
def numberedEscape : Reader Char := do
  let first ← fourDigits
  if 0xDC00 ≤ first && first ≤ 0xDFFF then malformed
  else if 0xD800 ≤ first && first ≤ 0xDBFF then
    expect [92, 117]
    let second ← fourDigits
    if 0xDC00 ≤ second && second ≤ 0xDFFF then
      pure (Char.ofNat (0x10000 + (first - 0xD800) * 0x400 + (second - 0xDC00)))
    else malformed
  else pure (Char.ofNat first)

/-- Reads an escape behind its backslash as the bytes of its character. When the text is only
skipped, a numbered escape need not name a character. -/
def escape (isSkipped : Bool) : Reader Bytes := do
  let kind ← byte
  if kind = 117 then
    if isSkipped then
      let _ ← fourDigits
      pure []
    else return Text.toBytes (String.singleton (← numberedEscape))
  else
    match shortEscape? kind with
    | some plain => pure [plain]
    | none => malformed

/-- Reads the bytes of a string up to its closing quote. -/
def stringBytes (isSkipped : Bool) : (fuel : Nat) → Reader Bytes
  | 0 => malformed
  | fuel + 1 => do
      let first ← byte
      if first = 34 then pure []
      else if first = 92 then
        let content ← escape isSkipped
        return content ++ (← stringBytes isSkipped fuel)
      else if first < 32 then malformed
      else return first :: (← stringBytes isSkipped fuel)

/-- Reads a string behind its opening quote. -/
def stringRest : Reader String := do
  let content ← stringBytes false (← remaining)
  match Text.ofBytes? content with
  | some text => pure text
  | none => malformed

/-! ## Structure -/

/-- Whether another element of an array follows; `isFirst` tells that none has been read. -/
def hasElement (isFirst : Bool) : Reader Bool := do
  let next ← peekItem
  if next = 93 then pure false
  else if isFirst then pure true
  else if next = 44 then
    advance
    if (← peekItem) = 93 then malformed else pure true
  else malformed

/-- Reads the closing bracket of an array. -/
def endArray : Reader Unit := do
  if (← peekItem) = 93 then advance else malformed

/-- Whether another member of an object follows. Its opening quote is read then. -/
def hasMember (isFirst : Bool) : Reader Bool := do
  let next ← peekItem
  if next = 125 then pure false
  else if isFirst then
    if next = 34 then advance; pure true else malformed
  else if next = 44 then
    advance
    if (← peekItem) = 34 then advance; pure true else malformed
  else malformed

/-- Reads the closing brace of an object. -/
def endObject : Reader Unit := do
  if (← peekItem) = 125 then advance else malformed

/-- Reads the colon between a key and its value. -/
def colon : Reader Unit := do
  if (← peekItem) = 58 then advance else malformed

/-- Refuses the next item: a fault in a scalar is reported as such, and every other item does
not describe the value wanted. -/
def refuse : Reader α := do
  let next ← peekItem
  if next = 110 then expect [110, 117, 108, 108]; mismatch
  else if next = 116 then expect [116, 114, 117, 101]; mismatch
  else if next = 102 then expect [102, 97, 108, 115, 101]; mismatch
  else if next = 45 || isDigit next then
    let _ ← number
    mismatch
  else if next = 34 then
    advance
    let _ ← stringRest
    mismatch
  else if next = 91 || next = 123 then mismatch
  else malformed

/-! ## Any value -/

mutual

/-- Reads a value nested at most `depth` levels. -/
def valueWithin : (depth : Nat) → (fuel : Nat) → Reader Json
  | _, 0 => malformed
  | depth, fuel + 1 => do
      let next ← peekItem
      if next = 110 then expect [110, 117, 108, 108]; pure .null
      else if next = 116 then expect [116, 114, 117, 101]; pure (.bool true)
      else if next = 102 then expect [102, 97, 108, 115, 101]; pure (.bool false)
      else if next = 45 || isDigit next then return .number (← number)
      else if next = 34 then
        advance
        return .string (← stringRest)
      else if next = 91 then
        advance
        match depth with
        | 0 => malformed
        | depth + 1 =>
            let items ← itemsWithin depth fuel true
            endArray
            return .array items
      else if next = 123 then
        advance
        match depth with
        | 0 => malformed
        | depth + 1 =>
            let members ← membersWithin depth fuel true []
            endObject
            return .object members
      else malformed

/-- Reads the items of an array. -/
def itemsWithin : (depth : Nat) → (fuel : Nat) → (isFirst : Bool) → Reader (List Json)
  | _, 0, _ => malformed
  | depth, fuel + 1, isFirst => do
      if ← hasElement isFirst then
        let item ← valueWithin depth fuel
        return item :: (← itemsWithin depth fuel false)
      else pure []

/-- Reads the members of an object into a list in key order; the last one of a key is kept. -/
def membersWithin : (depth : Nat) → (fuel : Nat) → (isFirst : Bool) →
    List (String × Json) → Reader (List (String × Json))
  | _, 0, _, _ => malformed
  | depth, fuel + 1, isFirst, members => do
      if ← hasMember isFirst then
        let key ← stringRest
        colon
        let value ← valueWithin depth fuel
        membersWithin depth fuel false (insertMember key value members)
      else pure members

end

/-- The deepest nesting that is read. -/
def depthLimit : Nat := 127

/-- Reads any value. -/
def value : Reader Json := do
  valueWithin depthLimit ((← remaining) + 2)

/-- Skips digits, of which there may be none. -/
def skipDigits : Reader Unit := fun rest => .ok ((), rest.dropWhile isDigit)

/-- Skips digits, of which there has to be one. -/
def someDigits : Reader Unit := do
  if isDigit (← byte) then skipDigits else malformed

/-- Skips the digits, fraction and exponent of a number without computing it. -/
def skipNumber : Reader Unit := do
  let _ ← leadingDigit
  skipDigits
  if (← peek?) = some 46 then
    advance
    someDigits
  match ← peek? with
  | some 101 | some 69 =>
      advance
      match ← peek? with
      | some 43 | some 45 => advance
      | _ => pure ()
      someDigits
  | _ => pure ()

mutual

/-- Skips a value of any depth. -/
def skipWithin : (fuel : Nat) → Reader Unit
  | 0 => malformed
  | fuel + 1 => do
      let next ← peekItem
      if next = 110 then expect [110, 117, 108, 108]
      else if next = 116 then expect [116, 114, 117, 101]
      else if next = 102 then expect [102, 97, 108, 115, 101]
      else if next = 45 then advance; skipNumber
      else if isDigit next then skipNumber
      else if next = 34 then
        advance
        let _ ← stringBytes true (← remaining)
      else if next = 91 then
        advance
        skipItems fuel true
      else if next = 123 then
        advance
        skipMembers fuel true
      else malformed

/-- Skips the items of an array and its closing bracket. -/
def skipItems : (fuel : Nat) → (isFirst : Bool) → Reader Unit
  | 0, _ => malformed
  | fuel + 1, isFirst => do
      if ← hasElement isFirst then
        skipWithin fuel
        skipItems fuel false
      else endArray

/-- Skips the members of an object and its closing brace. -/
def skipMembers : (fuel : Nat) → (isFirst : Bool) → Reader Unit
  | 0, _ => malformed
  | fuel + 1, isFirst => do
      if ← hasMember isFirst then
        let _ ← stringBytes true (← remaining)
        colon
        skipWithin fuel
        skipMembers fuel false
      else endObject

end

/-- Skips any value. -/
def skip : Reader Unit := do
  skipWithin ((← remaining) + 2)

/-! ## Typed scalars -/

/-- A string. -/
def string : Reader String := do
  if (← peekItem) = 34 then advance; stringRest else refuse

/-- A number that is an integer accepted by `convert`. -/
def integerWith (convert : Int → Option α) : Reader α := do
  let next ← peekItem
  if next = 45 || isDigit next then
    match ← number with
    | .unsigned word =>
        match convert word.toNat with
        | some value => pure value
        | none => mismatch
    | .negative word =>
        match convert word.toInt with
        | some value => pure value
        | none => mismatch
    | .float _ => mismatch
  else refuse

/-- An unsigned word. -/
def word : Reader UInt64 :=
  integerWith fun number =>
    if 0 ≤ number && number < bound64 then some (UInt64.ofNat number.toNat) else none

/-- An unsigned word of 32 bits. -/
def word32 : Reader UInt32 :=
  integerWith fun number =>
    if 0 ≤ number && number < bound32 then some (UInt32.ofNat number.toNat) else none

/-- A byte. -/
def word8 : Reader UInt8 :=
  integerWith fun number =>
    if 0 ≤ number && number < 256 then some (UInt8.ofNat number.toNat) else none

/-- A signed word. -/
def signedWord : Reader Int64 :=
  integerWith fun number =>
    if -bound63 ≤ number && number < bound63 then some (Int64.ofInt number) else none

/-- An unsigned word as a count. -/
def count : Reader Nat := UInt64.toNat <$> word

/-- A truth value. -/
def bool : Reader Bool := do
  let next ← peekItem
  if next = 116 then expect [116, 114, 117, 101]; pure true
  else if next = 102 then expect [102, 97, 108, 115, 101]; pure false
  else refuse

/-- An integer written with digits only, of any size that 128 bits hold. -/
def wideInteger : Reader Int := do
  let isNegative ← do
    if (← peekItem) = 45 then advance; pure true else pure false
  let first ← leadingDigit
  fun rest =>
    let magnitude : Int := decimalValue (first :: rest.takeWhile isDigit)
    let value := if isNegative then -magnitude else magnitude
    if -bound127 ≤ value && value < bound127 then .ok (value, rest.dropWhile isDigit)
    else .error .malformed

/-- Null or a value. -/
def option (reader : Reader α) : Reader (Option α) := do
  if (← peekItem) = 110 then
    expect [110, 117, 108, 108]
    pure none
  else some <$> reader

/-- A value that the domain accepts. -/
def checked (convert : α → Option β) (reader : Reader α) : Reader β := do
  match convert (← reader) with
  | some value => pure value
  | none => mismatch

/-! ## Typed collections and records -/

/-- Reads elements up to the closing bracket. -/
def elementsWithin (element : Reader α) : (fuel : Nat) → (isFirst : Bool) → Reader (List α)
  | 0, _ => malformed
  | fuel + 1, isFirst => do
      if ← hasElement isFirst then
        let first ← element
        return first :: (← elementsWithin element fuel false)
      else pure []

/-- An array of values of one type. -/
def list (element : Reader α) : Reader (List α) := do
  if (← peekItem) = 91 then
    advance
    let items ← elementsWithin element ((← remaining) + 1) true
    endArray
    pure items
  else refuse

/-- An element that has to be there. -/
def elementAt (isFirst : Bool) (element : Reader α) : Reader α := do
  if ← hasElement isFirst then element else mismatch

/-- An array of exactly two values. -/
def pair (first : Reader α) (second : Reader β) : Reader (α × β) := do
  if (← peekItem) = 91 then
    advance
    let left ← elementAt true first
    let right ← elementAt false second
    endArray
    pure (left, right)
  else refuse

/-- An array of exactly three values. -/
def triple {γ : Type} (first : Reader α) (second : Reader β) (third : Reader γ) :
    Reader (α × β × γ) := do
  if (← peekItem) = 91 then
    advance
    let left ← elementAt true first
    let middle ← elementAt false second
    let right ← elementAt false third
    endArray
    pure (left, middle, right)
  else refuse

/-- A member of a record: its name, how its value is read into the record, and whether the
record may lack it. -/
structure Member (ρ : Type) where
  name : String
  read : ρ → Reader ρ
  isOptional : Bool

variable {ρ : Type}

/-- Reads the elements of a record written as an array; the members follow in order. -/
def memberElements (isFirst : Bool) (mayStopEarly : Bool) :
    List (Member ρ) → ρ → Reader ρ
  | [], record => pure record
  | member :: rest, record => do
      if ← hasElement isFirst then
        memberElements false mayStopEarly rest (← member.read record)
      else if mayStopEarly then pure record
      else mismatch

/-- Reads the members of a record written as an object. Unknown members are skipped and a
repeated one is refused. -/
def objectMembers (members : List (Member ρ)) :
    (fuel : Nat) → (isFirst : Bool) → (seen : List String) → ρ → Reader (ρ × List String)
  | 0, _, _, _ => malformed
  | fuel + 1, isFirst, seen, record => do
      if ← hasMember isFirst then
        let key ← stringRest
        match members.find? (·.name = key) with
        | none =>
            colon
            skip
            objectMembers members fuel false seen record
        | some member =>
            if seen.contains key then mismatch
            else
              colon
              let next ← member.read record
              objectMembers members fuel false (key :: seen) next
      else pure (record, seen)

/-- A record, written as an object or as an array of the members in order. With
`hasDefaults`, absent members keep the values of the blank record. -/
def record (members : List (Member ρ)) (hasDefaults : Bool) (blank : ρ) : Reader ρ := do
  let next ← peekItem
  if next = 91 then
    advance
    let found ← memberElements true hasDefaults members blank
    endArray
    pure found
  else if next = 123 then
    advance
    let (found, seen) ← objectMembers members ((← remaining) + 1) true [] blank
    if hasDefaults || members.all (fun member => member.isOptional || seen.contains member.name)
    then
      endObject
      pure found
    else mismatch
  else refuse

/-- The name of a member; nothing but a string can be one. -/
def memberName : Reader String := do
  if (← peekItem) = 34 then advance; stringRest else malformed

/-- A case of a tagged choice: its name and its content, `none` when it has none. -/
structure Choice (α : Type) where
  name : String
  content : Sum α (Reader α)

/-- A choice written as the name of a case without content, or as an object with the name of
a case and its content. -/
def choice (cases : List (Choice α)) : Reader α := do
  let next ← peekItem
  if next = 34 then
    advance
    let name ← stringRest
    match cases.find? (·.name = name) with
    | some ⟨_, .inl value⟩ => pure value
    | _ => mismatch
  else if next = 123 then
    advance
    let name ← memberName
    match cases.find? (·.name = name) with
    | none => mismatch
    | some case =>
        colon
        let value ← match case.content with
          | .inl value => do
              if (← peekItem) = 110 then expect [110, 117, 108, 108]; pure value
              else refuse
          | .inr reader => reader
        endObject
        pure value
  else malformed

/-- Reads the whole of a text. -/
def run (reader : Reader α) (text : String) : Except JsonError α :=
  match reader (Text.toBytes text) with
  | .ok (value, rest) => if rest.all isBlank then .ok value else .error .malformed
  | .error error => .error error

end Reader

/-- The value written by a text. -/
def parse (text : String) : Except JsonError Json := Reader.value.run text

end Json

end UtxoLedger
