import UtxoLedger.Width

/-!
# Decimal numbers in text

A label written in text is an optional plus sign and at least one decimal
digit, and stands for an unsigned 64-bit word.
-/

namespace UtxoLedger.Text

/-- The value of a run of decimal digits, when there are only digits. -/
def digitsValue? : (total : Nat) → List Char → Option Nat
  | total, [] => some total
  | total, character :: rest =>
      if character.isDigit then
        digitsValue? (10 * total + (character.toNat - '0'.toNat)) rest
      else none

/-- The word written by an optional plus sign and decimal digits. -/
def readWord? (text : String) : Option UInt64 :=
  let digits := match text.toList with
    | '+' :: rest => rest
    | all => all
  if digits.isEmpty then none
  else
    match digitsValue? 0 digits with
    | some value => if value < bound64 then some (UInt64.ofNat value) else none
    | none => none

end UtxoLedger.Text
