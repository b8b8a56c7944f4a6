import UtxoLedger.Bech32
import UtxoLedger.Proofs.Number.Positional

/-!
# What a checksum is

The residue takes its values in five bits at a time, and only the bits that
are shifted out above them select generators. The last six values of a text
therefore come out in the residue as they are: they are the checksum that is
written exactly when the residue of the whole is one.
-/

namespace UtxoLedger.Bech32

open Number (ofDigits)

/-! ## Carrying values -/

theorem testBit_five_bits {value : Nat} (small : value < 32) (carry place : Nat) :
    (32 * carry + value).testBit place =
      if place < 5 then value.testBit place else carry.testBit (place - 5) :=
  Nat.testBit_two_pow_mul_add carry (i := 5) small place

/-- A value fills the five bits that a shift has emptied. -/
theorem shiftLeft_xor {value : Nat} (small : value < 32) (carry : Nat) :
    (carry <<< 5) ^^^ value = 32 * carry + value := by
  apply Nat.eq_of_testBit_eq
  intro place
  rw [testBit_five_bits small, Nat.testBit_xor, Nat.testBit_shiftLeft]
  by_cases low : place < 5
  · simp [low, Nat.not_le.2 low]
  · have absent : value.testBit place = false :=
      Nat.testBit_lt_two_pow (Nat.lt_of_lt_of_le small (Nat.pow_le_pow_right (by decide)
        (Nat.le_of_not_lt low) : 2 ^ 5 ≤ 2 ^ place))
    simp [low, absent, Nat.le_of_not_lt low]

theorem foldl_xor (words : List (Nat × Nat)) (first second : Nat) :
    words.foldl (fun total entry => total ^^^ entry.1) (first ^^^ second) =
      words.foldl (fun total entry => total ^^^ entry.1) first ^^^ second := by
  induction words generalizing first with
  | nil => rfl
  | cons word rest ih =>
      rw [List.foldl_cons, List.foldl_cons, ← ih, Nat.xor_assoc, Nat.xor_comm second,
        ← Nat.xor_assoc]

/-- Bits that are not shifted out select no generator. -/
theorem residueStep_xor {carry value : Nat} (low : carry < 2 ^ 25) (small : value < 32)
    (residue : Nat) :
    residueStep (residue ^^^ carry) value = residueStep residue 0 ^^^ (32 * carry + value) := by
  have top : (residue ^^^ carry) >>> 25 = residue >>> 25 := by
    rw [Nat.shiftRight_xor_distrib, Nat.shiftRight_eq_zero carry 25 low, Nat.xor_zero]
  have kept : (residue ^^^ carry) % 2 ^ 25 = residue % 2 ^ 25 ^^^ carry := by
    rw [Nat.xor_mod_two_pow, Nat.mod_eq_of_lt low]
  have shifted : (((residue ^^^ carry) % 2 ^ 25) <<< 5) ^^^ value =
      (((residue % 2 ^ 25) <<< 5) ^^^ 0) ^^^ (32 * carry + value) := by
    rw [kept, Nat.shiftLeft_xor_distrib, Nat.xor_assoc, shiftLeft_xor small, Nat.xor_zero]
  change ((generators.zipIdx.filter fun entry => ((residue ^^^ carry) >>> 25).testBit
    entry.2).foldl (fun total entry => total ^^^ entry.1)
      ((((residue ^^^ carry) % 2 ^ 25) <<< 5) ^^^ value)) = _
  rw [top, shifted, foldl_xor]
  rfl

/-- Up to six values come out as the digits of a number on top of what zeros would give. -/
theorem foldl_residueStep (done : List Nat) {values : List Nat}
    (short : done.length + values.length ≤ 6) (small : ∀ value ∈ done ++ values, value < 32)
    (residue : Nat) :
    values.foldl residueStep (residue ^^^ ofDigits 32 done) =
      (List.replicate values.length 0).foldl residueStep residue ^^^
        ofDigits 32 (done ++ values) := by
  induction values generalizing done residue with
  | nil =>
      rw [List.append_nil]
      rfl
  | cons value rest ih =>
      rw [List.length_cons] at short
      have shape : done ++ value :: rest = (done ++ [value]) ++ rest := by simp
      have low : ofDigits 32 done < 2 ^ 25 := by
        have fits : 32 ^ done.length ≤ 32 ^ 5 := Nat.pow_le_pow_right (by decide) (by omega)
        have bounded : ofDigits 32 done < 32 ^ done.length :=
          Number.ofDigits_lt fun digit member => small digit (List.mem_append_left _ member)
        exact Nat.lt_of_lt_of_le bounded fits
      have first : value < 32 := small value (by simp)
      have step := residueStep_xor low first residue
      rw [← Number.ofDigits_append_singleton] at step
      rw [shape] at small ⊢
      rw [List.foldl_cons, step, ih (done ++ [value]) (by simp; omega) small]
      rfl

/-! ## Bounds -/

theorem xor_generators_lt {words : List (Nat × Nat)} (small : ∀ word ∈ words, word.1 < 2 ^ 30)
    {start : Nat} (low : start < 2 ^ 30) :
    words.foldl (fun total entry => total ^^^ entry.1) start < 2 ^ 30 := by
  induction words generalizing start with
  | nil => exact low
  | cons word rest ih =>
      refine ih (fun other member => small other (List.mem_cons_of_mem _ member)) ?_
      exact Nat.xor_lt_two_pow low (small word List.mem_cons_self)

theorem residueStep_lt (residue : Nat) {value : Nat} (small : value < 32) :
    residueStep residue value < 2 ^ 30 := by
  have words : ∀ word ∈ generators.zipIdx, word.1 < 2 ^ 30 := by decide
  refine xor_generators_lt (fun word member => words word (List.mem_filter.1 member).1) ?_
  have low : residue % 2 ^ 25 < 2 ^ 25 := Nat.mod_lt _ (by decide)
  change ((residue % 2 ^ 25) <<< 5) ^^^ value < 2 ^ 30
  rw [shiftLeft_xor small]
  omega

/-- The residue has six values' room. -/
theorem residue_append_zeros_lt (values : List Nat) :
    residue (values ++ List.replicate 6 0) < 2 ^ 30 := by
  rw [residue, show List.replicate 6 0 = List.replicate 5 0 ++ [0] from rfl, ← List.append_assoc,
    List.foldl_append]
  exact residueStep_lt _ (by decide)

/-! ## The last six values -/

/-- The last six values come out as the digits of a number. -/
theorem residue_append (values : List Nat) {last : List Nat} (six : last.length = 6)
    (small : ∀ value ∈ last, value < 32) :
    residue (values ++ last) = residue (values ++ List.replicate 6 0) ^^^ ofDigits 32 last := by
  have carried := foldl_residueStep [] (Nat.le_of_eq ((Nat.zero_add _).trans six)) small
    (residue values)
  rw [six, show ofDigits 32 [] = 0 from rfl, Nat.xor_zero, List.nil_append] at carried
  rw [residue, residue, List.foldl_append, List.foldl_append]
  exact carried

theorem ofDigits_checksum (humanPart : Bytes) (data : List Nat) :
    ofDigits 32 (checksum humanPart data) =
      residue (expandPrefix humanPart ++ data ++ List.replicate 6 0) ^^^ 1 := by
  have bounded : residue (expandPrefix humanPart ++ data ++ List.replicate 6 0) ^^^ 1 < 32 ^ 6 :=
    Nat.lt_of_lt_of_eq (Nat.xor_lt_two_pow (residue_append_zeros_lt _) (by decide : 1 < 2 ^ 30))
      (by decide)
  have digits := Number.ofDigits_range 32
    (residue (expandPrefix humanPart ++ data ++ List.replicate 6 0) ^^^ 1) 6
  rw [Nat.mod_eq_of_lt bounded] at digits
  rw [← digits]
  refine congrArg (ofDigits 32) (List.map_congr_left fun place _ => ?_)
  rw [Nat.shiftRight_eq_div_pow, Nat.pow_mul]

theorem lt_of_mem_checksum {humanPart : Bytes} {data : List Nat} {value : Nat}
    (member : value ∈ checksum humanPart data) : value < 32 := by
  obtain ⟨place, _, rfl⟩ := List.mem_map.1 member
  exact Nat.mod_lt _ (by decide)

theorem length_checksum (humanPart : Bytes) (data : List Nat) :
    (checksum humanPart data).length = 6 := rfl

/-- Six values are the checksum that is written exactly when the residue of the whole is one. -/
theorem checksum_eq_iff (humanPart : Bytes) (data : List Nat) {last : List Nat}
    (six : last.length = 6) (small : ∀ value ∈ last, value < 32) :
    checksum humanPart data = last ↔
      residue (expandPrefix humanPart ++ (data ++ last)) = 1 := by
  have written := ofDigits_checksum humanPart data
  rw [← List.append_assoc, residue_append _ six small]
  constructor
  · rintro rfl
    rw [written, ← Nat.xor_assoc, Nat.xor_self, Nat.zero_xor]
  · intro one
    refine Number.ofDigits_injective six.symm (fun _ => lt_of_mem_checksum) small ?_
    rw [written, ← one, ← Nat.xor_assoc, Nat.xor_self, Nat.zero_xor]

end UtxoLedger.Bech32
