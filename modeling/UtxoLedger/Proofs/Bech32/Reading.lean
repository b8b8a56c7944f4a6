import Mathlib.Data.List.TakeWhile
import UtxoLedger.Proofs.Bech32.Checksum
import UtxoLedger.Proofs.Bech32.Regrouping
import UtxoLedger.Proofs.Outcome

/-!
# Text read and written

What is read from a text is written as the same text in lower case when its
checksum is of the older form. A text of the newer form has another checksum
over the same prefix and data, and is not written again.
-/

namespace UtxoLedger.Bech32

/-! ## Separator -/

theorem splitLast_append {before after : List Char} (absent : '1' ∉ after) :
    splitLast (before ++ '1' :: after) = some (before, after) := by
  have behind : ((before ++ '1' :: after).reverse.takeWhile (· ≠ '1')).reverse = after := by
    rw [List.reverse_append, List.reverse_cons, List.append_assoc, List.singleton_append,
      List.takeWhile_append_of_pos]
    · simp
    · intro character member
      have other : character ≠ '1' := fun same => absent (same ▸ List.mem_reverse.1 member)
      simpa using other
  have length : (before ++ '1' :: after).length = before.length + 1 + after.length := by
    simp [Nat.add_right_comm, Nat.add_assoc]
  unfold splitLast
  rw [behind, length, if_neg (by omega), Nat.add_sub_cancel, Nat.add_sub_cancel, List.take_left]

theorem splitLast_eq_some {characters before after : List Char}
    (split : splitLast characters = some (before, after)) :
    characters = before ++ '1' :: after ∧ '1' ∉ after := by
  by_cases present : '1' ∈ characters.reverse
  · obtain ⟨last, first, shape, absent⟩ := List.eq_append_cons_of_mem present
    have parts : characters = first.reverse ++ '1' :: last.reverse := by
      rw [← List.reverse_reverse characters, shape]
      simp
    have missing : '1' ∉ last.reverse := fun member => absent (List.mem_reverse.1 member)
    rw [parts, splitLast_append missing] at split
    cases split
    exact ⟨parts, missing⟩
  · have whole : characters.reverse.takeWhile (· ≠ '1') = characters.reverse := by
      refine List.takeWhile_eq_self_iff.2 fun character member => ?_
      have other : character ≠ '1' := fun same => present (same ▸ member)
      simpa using other
    unfold splitLast at split
    rw [whole, List.reverse_reverse, if_pos rfl] at split
    cases split

/-! ## Characters -/

theorem idxOf_digit {value : Nat} (small : value < 32) : alphabet.idxOf (digit value) = value := by
  have all : ∀ value < 32, alphabet.idxOf (digit value) = value := by decide
  exact all value small

theorem map_digit_injective {first second : List Nat} (small : ∀ value ∈ first, value < 32)
    (less : ∀ value ∈ second, value < 32) (same : first.map digit = second.map digit) :
    first = second := by
  have back {values : List Nat} (low : ∀ value ∈ values, value < 32) :
      (values.map digit).map (alphabet.idxOf ·) = values := by
    rw [List.map_map]
    exact (List.map_congr_left fun value member => idxOf_digit (low value member)).trans
      (List.map_id values)
  rw [← back small, same, back less]

/-- The separator is not a data character. -/
theorem separator_notMem_map_digit {values : List Nat} (small : ∀ value ∈ values, value < 32) :
    '1' ∉ values.map digit := by
  intro member
  obtain ⟨value, within, same⟩ := List.mem_map.1 member
  have others : ∀ value < 32, digit value ≠ '1' := by decide
  exact others value (small value within) same

theorem digitValue?_eq_some {character : Char} {value : Nat}
    (found : digitValue? character = some value) :
    value < 32 ∧ character.toLower = digit value := by
  obtain ⟨within, same, _⟩ := List.findIdx?_eq_some_iff_getElem.1 found
  refine ⟨within, ?_⟩
  rw [digit, List.getD_eq_getElem?_getD, List.getElem?_eq_getElem within]
  exact (of_decide_eq_true same).symm

/-- The characters are the digits of the values, each in either case. -/
structure Digits (characters : List Char) (values : List Nat) : Prop where
  small : ∀ value ∈ values, value < 32
  lower : characters.map Char.toLower = values.map digit
  valued : characters.mapM digitValue? = some values
  size : (String.ofList characters).utf8ByteSize = values.length

theorem digits_of_dataValues {seen : LetterCase} {characters : List Char} {values : List Nat}
    (read : dataValues seen characters = .ok values) : Digits characters values := by
  induction characters generalizing seen values with
  | nil =>
      cases read
      exact ⟨nofun, rfl, rfl, rfl⟩
  | cons character rest ih =>
      unfold dataValues at read
      split at read
      next => cases read
      next ascii =>
        obtain ⟨_, _, read⟩ := Except.bind_eq_ok.1 read
        split at read
        next => cases read
        next value found =>
          obtain ⟨later, rest_ok, result⟩ := Except.bind_eq_ok.1 read
          cases result
          obtain ⟨low, lower⟩ := digitValue?_eq_some found
          obtain ⟨small, lowers, valued, size⟩ := ih rest_ok
          have single : character.utf8Size = 1 := by
            rw [Char.utf8Size_eq_one_iff, UInt32.le_iff_toNat_le, Char.toNat_val]
            exact Nat.lt_succ_iff.1 (Nat.lt_of_not_le ascii)
          refine ⟨List.forall_mem_cons.2 ⟨low, small⟩, ?_, ?_, ?_⟩
          · rw [List.map_cons, List.map_cons, lower, lowers]
          · rw [List.mapM_cons, found, valued]
            rfl
          · rw [← List.singleton_append, String.ofList_append, String.utf8ByteSize_append, size,
              show String.ofList [character] = String.singleton character from rfl,
              String.utf8ByteSize_singleton, single, List.length_cons, Nat.add_comm]

/-- The residue of a text: of its prefix in lower case and of the values of its data. -/
def residueOf? (text : String) : Option Nat := do
  let (before, after) ← splitLast text.toList
  let values ← after.mapM digitValue?
  return residue (expandPrefix (Text.toBytes (String.ofList (before.map Char.toLower))) ++ values)

theorem toList_toLower (text : String) : text.toLower.toList = text.toList.map Char.toLower := by
  unfold String.toLower
  exact String.toList_map

/-- The text is a prefix, the separator and the digits of values, each in either case. -/
structure Spells (text humanPart : String) (values : List Nat) : Prop where
  small : ∀ value ∈ values, value < 32
  lower : text.toLower = humanPart ++ "1" ++ String.ofList (values.map digit)
  residue : residueOf? text = some (residue (expandPrefix (Text.toBytes humanPart) ++ values))

theorem spells_of_split {text : String} {before after : List Char} {values : List Nat}
    (split : splitLast text.toList = some (before, after)) (digits : Digits after values) :
    Spells text (String.ofList (before.map Char.toLower)) values := by
  refine ⟨digits.small, ?_, ?_⟩
  · rw [← String.toList_inj, toList_toLower, (splitLast_eq_some split).1]
    simp [digits.lower]
  · rw [residueOf?, split, Option.bind_eq_bind, Option.bind_some]
    dsimp only
    rw [digits.valued]
    rfl

/-- What is read is the prefix and all but the last six values, and the residue is valid. -/
theorem decode_eq_ok {text humanPart : String} {data : List Nat}
    (read : decode text = .ok (humanPart, data)) :
    ∃ last, last.length = 6 ∧ Spells text humanPart (data ++ last) ∧
      residue (expandPrefix (Text.toBytes humanPart) ++ (data ++ last)) ∈ validResidues := by
  unfold decode at read
  by_cases short : text.utf8ByteSize < 8
  · rw [if_pos short] at read
    cases read
  rw [if_neg short] at read
  dsimp only at read
  split at read
  next before after split =>
    by_cases few : (String.ofList after).utf8ByteSize < 6
    · rw [if_pos few] at read
      cases read
    rw [if_neg few] at read
    split at read
    next => cases read
    next =>
      obtain ⟨seen, _, read⟩ := Except.bind_eq_ok.1 read
      obtain ⟨values, valued, read⟩ := Except.bind_eq_ok.1 read
      split at read
      next valid =>
        cases read
        have digits := digits_of_dataValues valued
        have enough : 6 ≤ values.length := digits.size ▸ Nat.le_of_not_lt few
        refine ⟨values.drop (values.length - 6), ?_, ?_, ?_⟩
        · rw [List.length_drop, Nat.sub_sub_self enough]
        · rw [List.take_append_drop]
          exact spells_of_split split digits
        · rw [List.take_append_drop]
          exact List.contains_iff_mem.1 valid
      next => cases read
  next => cases read

/-- A text is written again, in lower case, from what is read of it when its residue is one,
and from nothing else. -/
theorem encode_eq_toLower_iff {text humanPart : String} {data : List Nat}
    (read : decode text = .ok (humanPart, data)) {named : String} {content : List Nat}
    (small : ∀ value ∈ content, value < 32) :
    encode named content = text.toLower ↔
      named = humanPart ∧ content = data ∧ residueOf? text = some 1 := by
  obtain ⟨last, six, spells, _⟩ := decode_eq_ok read
  rw [spells.lower, spells.residue, Option.some.injEq]
  have low : ∀ value ∈ last, value < 32 :=
    fun value member => spells.small value (List.mem_append_right _ member)
  have written : ∀ value ∈ content ++ checksum (Text.toBytes named) content, value < 32 := by
    intro value member
    rcases List.mem_append.1 member with held | summed
    · exact small value held
    · exact lt_of_mem_checksum summed
  rw [← checksum_eq_iff _ _ six low]
  constructor
  · intro same
    have characters := congrArg String.toList same
    simp only [encode, String.toList_append, String.toList_ofList, List.append_assoc,
      show "1".toList = ['1'] from rfl, List.singleton_append] at characters
    have halves : splitLast (named.toList ++ '1' :: _) = some (named.toList, _) :=
      splitLast_append (separator_notMem_map_digit written)
    rw [characters, splitLast_append (separator_notMem_map_digit spells.small)] at halves
    obtain ⟨names, digits⟩ := Prod.mk.inj (Option.some.inj halves)
    obtain rfl := String.toList_inj.1 names
    have values := map_digit_injective written spells.small digits.symm
    obtain ⟨rfl, summed⟩ := List.append_inj' values ((length_checksum _ _).trans six.symm)
    exact ⟨rfl, rfl, summed⟩
  · rintro ⟨rfl, rfl, same⟩
    rw [encode, same]

/-! ## Bytes -/

theorem decodeBytes_eq_ok {text humanPart : String} {bytes : Bytes}
    (read : decodeBytes text = .ok (humanPart, bytes)) :
    ∃ data, decode text = .ok (humanPart, data) ∧ bytesOfData data = .ok bytes := by
  obtain ⟨⟨name, data⟩, decoded, read⟩ := Except.bind_eq_ok.1 read
  obtain ⟨content, regrouped, read⟩ := Except.bind_eq_ok.1 read
  cases read
  exact ⟨data, decoded, regrouped⟩

/-- A text of bytes has one of the two valid residues. -/
theorem exists_residue_of_decodeBytes {text humanPart : String} {bytes : Bytes}
    (read : decodeBytes text = .ok (humanPart, bytes)) :
    ∃ valid ∈ validResidues, residueOf? text = some valid := by
  obtain ⟨_, decoded, _⟩ := decodeBytes_eq_ok read
  obtain ⟨_, _, spells, valid⟩ := decode_eq_ok decoded
  exact ⟨_, valid, spells.residue⟩

/-- A text of bytes is written again, in lower case, from its prefix and its bytes when its
residue is one, and from nothing else. -/
theorem encodeBytes_eq_toLower_iff {text humanPart : String} {bytes : Bytes}
    (read : decodeBytes text = .ok (humanPart, bytes)) (named : String) (content : Bytes) :
    encodeBytes named content = text.toLower ↔
      named = humanPart ∧ content = bytes ∧ residueOf? text = some 1 := by
  obtain ⟨data, decoded, regrouped⟩ := decodeBytes_eq_ok read
  obtain ⟨_, _, spells, _⟩ := decode_eq_ok decoded
  have held : Holds data bytes := holds_of_bytesOfData
    (fun value member => spells.small value (List.mem_append_left _ member)) regrouped
  have filled := holds_dataOfBytes content
  have same : dataOfBytes content = data ↔ content = bytes := by
    constructor
    · intro equal
      exact (equal ▸ filled).bytes_eq held
    · rintro rfl
      exact filled.data_eq held
  obtain ⟨_, groups⟩ := filled
  rw [encodeBytes, encode_eq_toLower_iff decoded groups.small, same]

end UtxoLedger.Bech32
