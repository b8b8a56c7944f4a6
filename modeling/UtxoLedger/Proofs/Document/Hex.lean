import UtxoLedger.Hex

/-!
# Hexadecimal text is read back

The digits that are written are characters of one byte each, and each digit
stands for the number it was written for. So bytes are read back from their
hexadecimal text.
-/

namespace UtxoLedger

/-- A text of one-byte characters is written as these bytes. -/
theorem Text.toBytes_ofList {characters : List Char}
    (short : ∀ character ∈ characters, character.utf8Size = 1) :
    toBytes (String.ofList characters) = characters.map fun character => character.val.toUInt8 := by
  have whole : toBytes (String.ofList characters) = characters.flatMap String.utf8EncodeChar := by
    rw [toBytes, String.toUTF8_eq_toByteArray, String.toByteArray_ofList, List.utf8Encode,
      List.data_toByteArray]
  rw [whole]
  clear whole
  induction characters with
  | nil => rfl
  | cons first rest ih =>
      obtain ⟨here, later⟩ := List.forall_mem_cons.1 short
      rw [List.flatMap_cons, String.utf8EncodeChar_eq_singleton here, ih later]
      rfl

namespace Hex

/-- A digit takes one byte, which stands for the number of the digit. -/
theorem digitValue?_digit {number : Nat} (small : number < 16) :
    (digit number).utf8Size = 1 ∧ digitValue? (digit number).val.toUInt8 = some number := by
  have table : ∀ number : Fin 16,
      (digit number).utf8Size = 1 ∧ digitValue? (digit number).val.toUInt8 = some number.val := by
    decide
  exact table ⟨number, small⟩

/-- The two digits of a byte. -/
def digits (byte : UInt8) : List Char := [digit (byte.toNat / 16), digit (byte.toNat % 16)]

theorem decodePairs_digits (bytes : Bytes) (position : Nat) :
    decodePairs position ((bytes.flatMap digits).map fun digit => digit.val.toUInt8) =
      .ok bytes := by
  induction bytes generalizing position with
  | nil => rfl
  | cons first rest ih =>
      have byte := first.toNat_lt
      have high := (digitValue?_digit (show first.toNat / 16 < 16 by omega)).2
      have low := (digitValue?_digit (Nat.mod_lt first.toNat (show 16 > 0 by decide))).2
      rw [List.flatMap_cons, List.map_append]
      change decodePairs position (_ :: _ :: List.map _ _) = _
      rw [decodePairs, high, low, ih]
      change Except.ok (UInt8.ofNat _ :: rest) = _
      rw [Nat.div_add_mod, UInt8.ofNat_toNat]

/-- Bytes are read back from their text. -/
theorem decode_encode (bytes : Bytes) : decode (encode bytes) = .ok bytes := by
  have short : ∀ character ∈ bytes.flatMap digits, character.utf8Size = 1 := by
    intro character listed
    obtain ⟨byte, -, written⟩ := List.mem_flatMap.1 listed
    have size := byte.toNat_lt
    simp only [digits, List.mem_cons, List.not_mem_nil, or_false] at written
    rcases written with rfl | rfl
    · exact (digitValue?_digit (by omega)).1
    · exact (digitValue?_digit (by omega)).1
  have even : (bytes.flatMap digits).length = bytes.length * 2 := by
    simp [List.length_flatMap, digits, List.map_const']
  rw [decode, show encode bytes = String.ofList (bytes.flatMap digits) from rfl,
    Text.toBytes_ofList short, List.length_map, even, Nat.mul_mod_left, if_neg nofun]
  exact decodePairs_digits bytes 0

end Hex

end UtxoLedger
