import Mathlib.Data.List.Induction
import UtxoLedger.VarUint

/-!
# Spellings of a variable-length integer

The shortest form of an integer is its digits in base 128. A reader takes
them with any number of zero groups in front, since it looks at the number
denoted so far and not at how many groups there were. These are all that it
takes: what is read as an integer is its shortest form behind zero groups.
-/

namespace UtxoLedger.VarUint

open Number (ofDigits digits)

/-! ## Groups -/

/-- The groups of the shortest form: the digits of the number, and one for zero. -/
def groups (number : Nat) : List Nat :=
  if number = 0 then [0] else digits 128 number

theorem write_eq (number : UInt64) : write number = marked (groups number.toNat) := by
  unfold write groups
  by_cases zero : number = 0
  · rw [if_pos zero, zero]
    rfl
  · have positive : number.toNat ≠ 0 := fun nothing => zero (UInt64.toNat_inj.1 nothing)
    rw [if_neg zero, if_neg positive]

theorem groups_of_lt {number : Nat} (small : number < 128) : groups number = [number] := by
  unfold groups
  by_cases zero : number = 0
  · rw [if_pos zero, zero]
  · rw [if_neg zero, Number.digits_of_pos (by decide) (by omega),
      show number / 128 = 0 by omega, show number % 128 = number by omega]
    rfl

theorem groups_of_le {number : Nat} (large : 128 ≤ number) :
    groups number = groups (number / 128) ++ [number % 128] := by
  unfold groups
  rw [if_neg (by omega), if_neg (by omega), Number.digits_of_pos (by decide) (by omega)]

theorem groups_ne_nil (number : Nat) : groups number ≠ [] := by
  by_cases small : number < 128
  · simp [groups_of_lt small]
  · simp [groups_of_le (Nat.le_of_not_lt small)]

theorem lt_of_mem_groups {number group : Nat} (member : group ∈ groups number) : group < 128 := by
  induction number using Nat.strongRecOn with
  | ind number ih =>
      by_cases small : number < 128
      · rw [groups_of_lt small] at member
        rwa [List.mem_singleton.1 member]
      · rw [groups_of_le (Nat.le_of_not_lt small)] at member
        rcases List.mem_append.1 member with earlier | last
        · exact ih (number / 128) (by omega) earlier
        · rw [List.mem_singleton.1 last]
          omega

theorem ofDigits_groups (number : Nat) : ofDigits 128 (groups number) = number := by
  induction number using Nat.strongRecOn with
  | ind number ih =>
      by_cases small : number < 128
      · rw [groups_of_lt small]
        simp [ofDigits]
      · rw [groups_of_le (Nat.le_of_not_lt small), Number.ofDigits_append_singleton,
          ih (number / 128) (by omega)]
        omega

/-- A group holds seven bits. -/
theorem length_groups_le (number : Nat) : (groups number).length ≤ number.log2 / 7 + 1 := by
  induction number using Nat.strongRecOn with
  | ind number ih =>
      by_cases small : number < 128
      · rw [groups_of_lt small]
        exact Nat.le_add_left 1 _
      · have left : number / 128 ≠ 0 := by omega
        have bits : 2 ^ (number / 128).log2 ≤ number / 128 := (Nat.le_log2 left).1 (Nat.le_refl _)
        have more : (number / 128).log2 + 7 ≤ number.log2 := by
          refine (Nat.le_log2 (by omega)).2 ?_
          rw [Nat.pow_add]
          omega
        have fewer := ih (number / 128) (by omega)
        rw [groups_of_le (Nat.le_of_not_lt small), List.length_append, List.length_singleton]
        omega

/-- Groups that denote a number are its shortest ones behind groups of zero. -/
theorem eq_replicate_append_groups {list : List Nat} (proceeds : list ≠ [])
    (small : ∀ group ∈ list, group < 128) :
    ∃ zeros, list = List.replicate zeros 0 ++ groups (ofDigits 128 list) := by
  induction list using List.reverseRecOn with
  | nil => exact absurd rfl proceeds
  | append_singleton before last ih =>
      have low := small last (by simp)
      rw [Number.ofDigits_append_singleton]
      by_cases alone : before = []
      · subst alone
        refine ⟨0, ?_⟩
        rw [groups_of_lt (by simpa [ofDigits] using low)]
        simp [ofDigits]
      · obtain ⟨zeros, shape⟩ := ih alone fun group member =>
          small group (List.mem_append_left _ member)
        by_cases nothing : ofDigits 128 before = 0
        · refine ⟨zeros + 1, ?_⟩
          rw [nothing, groups_of_lt (by omega : 128 * 0 + last < 128)]
          rw [nothing, groups_of_lt (by decide : 0 < 128)] at shape
          rw [shape, List.replicate_succ']
          simp
        · refine ⟨zeros, ?_⟩
          rw [groups_of_le (by omega),
            show (128 * ofDigits 128 before + last) / 128 = ofDigits 128 before by omega,
            show (128 * ofDigits 128 before + last) % 128 = last by omega, ← List.append_assoc,
            ← shape]

/-! ## Reading groups -/

theorem marked_cons (group : Nat) {rest : List Nat} (proceeds : rest ≠ []) :
    marked (group :: rest) = UInt8.ofNat (128 + group) :: marked rest := by
  cases rest with
  | nil => exact absurd rfl proceeds
  | cons next rest => rfl

theorem marked_replicate {list : List Nat} (proceeds : list ≠ []) (zeros : Nat) :
    marked (List.replicate zeros 0 ++ list) = List.replicate zeros 0x80 ++ marked list := by
  induction zeros with
  | zero => rfl
  | succ zeros ih =>
      rw [List.replicate_succ, List.cons_append, marked_cons 0 (by simp [proceeds]), ih]
      rfl

theorem length_marked (list : List Nat) : (marked list).length = list.length := by
  induction list with
  | nil => rfl
  | cons group rest ih =>
      cases rest with
      | nil => rfl
      | cons next more => exact congrArg (· + 1) ih

/-- A word takes ten bytes at most. -/
theorem length_write_le (number : UInt64) : (write number).length ≤ 10 := by
  have groups := length_groups_le number.toNat
  have word : number.toNat.log2 < 64 := by
    by_cases zero : number.toNat = 0
    · rw [zero]
      decide
    · exact (Nat.log2_lt zero).2 number.toNat_lt
  rw [write_eq, length_marked]
  omega

theorem marked_ne_nil {list : List Nat} (proceeds : list ≠ []) : marked list ≠ [] := by
  cases list with
  | nil => exact absurd rfl proceeds
  | cons group rest => cases rest <;> exact List.cons_ne_nil _ _

/-- Groups are read behind the groups before them, when the number that they denote fits. -/
theorem readFrom_marked (done : List Nat) {list : List Nat} (proceeds : list ≠ [])
    (small : ∀ group ∈ list, group < 128) (fits : ofDigits 128 (done ++ list) < bound64)
    (rest : Bytes) :
    readFrom (ofDigits 128 done) (marked list ++ rest) =
      .ok (UInt64.ofNat (ofDigits 128 (done ++ list)), rest) := by
  induction list generalizing done with
  | nil => exact absurd rfl proceeds
  | cons group later ih =>
      have low := small group List.mem_cons_self
      have split : done ++ group :: later = (done ++ [group]) ++ later := by simp
      rw [split] at fits ⊢
      have bounded := Number.le_ofDigits_append (by decide : 0 < 128) (done ++ [group]) later
      have denoted := Number.ofDigits_append_singleton 128 done group
      cases later with
      | nil =>
          have byte : (UInt8.ofNat group).toNat = group := by
            rw [UInt8.toNat_ofNat']
            omega
          have stops : UInt8.ofNat group < 128 := by
            rw [UInt8.lt_iff_toNat_lt, byte]
            exact low
          rw [List.append_nil] at fits ⊢
          rw [marked, List.singleton_append, readFrom, byte, Nat.mod_eq_of_lt low, ← denoted]
          simp only [if_neg (Nat.not_le.2 fits), if_pos stops]
      | cons next more =>
          have byte : (UInt8.ofNat (128 + group)).toNat = 128 + group := by
            rw [UInt8.toNat_ofNat']
            omega
          have goes : ¬ UInt8.ofNat (128 + group) < 128 := by
            rw [UInt8.lt_iff_toNat_lt, byte]
            simp
          have read := ih (done ++ [group]) (List.cons_ne_nil next more)
            (fun other member => small other (List.mem_cons_of_mem _ member)) fits
          rw [marked_cons group (List.cons_ne_nil next more), List.cons_append, readFrom, byte,
            show (128 + group) % 128 = group by omega, ← denoted]
          simp only [if_neg (by omega : ¬ bound64 ≤ ofDigits 128 (done ++ [group])), if_neg goes]
          exact read

/-- What is read behind some groups is marked groups that denote a number that fits. -/
theorem exists_groups_of_readFrom (done : List Nat) {bytes rest : Bytes} {number : UInt64}
    (read : readFrom (ofDigits 128 done) bytes = .ok (number, rest)) :
    ∃ list, list ≠ [] ∧ (∀ group ∈ list, group < 128) ∧ bytes = marked list ++ rest ∧
      number.toNat = ofDigits 128 (done ++ list) := by
  induction bytes generalizing done with
  | nil => cases read
  | cons byte later ih =>
      have denoted := Number.ofDigits_append_singleton 128 done (byte.toNat % 128)
      have low : byte.toNat % 128 < 128 := Nat.mod_lt _ (by decide)
      have most := byte.toNat_lt
      rw [readFrom, ← denoted] at read
      split at read
      next => cases read
      next fits =>
        split at read
        next stops =>
          have last : byte.toNat < 128 := UInt8.lt_iff_toNat_lt.1 stops
          rw [Except.ok.injEq, Prod.mk.injEq] at read
          obtain ⟨rfl, rfl⟩ := read
          refine ⟨[byte.toNat % 128], List.cons_ne_nil _ _, by simpa using low, ?_, ?_⟩
          · rw [Nat.mod_eq_of_lt last, marked, UInt8.ofNat_toNat]
            rfl
          · exact UInt64.toNat_ofNat_of_lt' (Nat.not_le.1 fits)
        next goes =>
          have marks : ¬ byte.toNat < 128 := fun small => goes (UInt8.lt_iff_toNat_lt.2 small)
          obtain ⟨list, proceeds, small, rfl, same⟩ := ih (done ++ [byte.toNat % 128]) read
          refine ⟨byte.toNat % 128 :: list, List.cons_ne_nil _ _, ?_, ?_, ?_⟩
          · intro group member
            rcases List.mem_cons.1 member with rfl | other
            · exact low
            · exact small group other
          · rw [marked_cons _ proceeds, show 128 + byte.toNat % 128 = byte.toNat by omega,
              UInt8.ofNat_toNat]
            rfl
          · rw [same, List.append_assoc]
            rfl

/-! ## Padded integers -/

/-- An integer behind groups of zero. -/
def padded (zeros : Nat) (number : UInt64) : Bytes := List.replicate zeros 0x80 ++ write number

theorem padded_zero (number : UInt64) : padded 0 number = write number := rfl

theorem write_ne_nil (number : UInt64) : write number ≠ [] := by
  rw [write_eq]
  exact marked_ne_nil (groups_ne_nil _)

theorem padded_ne_nil (zeros : Nat) (number : UInt64) : padded zeros number ≠ [] := by
  intro nothing
  exact write_ne_nil number (List.append_eq_nil_iff.1 nothing).2

/-- Exactly the padded forms of an integer are read as it. -/
theorem read_eq_ok_iff {bytes rest : Bytes} {number : UInt64} :
    read bytes = .ok (number, rest) ↔ ∃ zeros, bytes = padded zeros number ++ rest := by
  have shape (zeros : Nat) :
      padded zeros number = marked (List.replicate zeros 0 ++ groups number.toNat) := by
    rw [padded, write_eq, marked_replicate (groups_ne_nil _)]
  constructor
  · intro read
    obtain ⟨list, proceeds, small, rfl, same⟩ := exists_groups_of_readFrom [] read
    obtain ⟨zeros, form⟩ := eq_replicate_append_groups proceeds small
    rw [List.nil_append] at same
    rw [← same] at form
    exact ⟨zeros, by rw [shape, ← form]⟩
  · rintro ⟨zeros, rfl⟩
    have denoted : ofDigits 128 ([] ++ (List.replicate zeros 0 ++ groups number.toNat)) =
        number.toNat := by
      rw [List.nil_append, Number.ofDigits_replicate_zero_append, ofDigits_groups]
    have small : ∀ group ∈ List.replicate zeros 0 ++ groups number.toNat, group < 128 := by
      intro group member
      rcases List.mem_append.1 member with padding | kept
      · rw [List.eq_of_mem_replicate padding]
        decide
      · exact lt_of_mem_groups kept
    have read := readFrom_marked [] (by simp [groups_ne_nil]) small
      (by rw [denoted]; exact number.toNat_lt) rest
    rw [denoted, UInt64.ofNat_toNat] at read
    rw [shape]
    exact read

theorem read_padded (zeros : Nat) (number : UInt64) (rest : Bytes) :
    read (padded zeros number ++ rest) = .ok (number, rest) :=
  read_eq_ok_iff.2 ⟨zeros, rfl⟩

end UtxoLedger.VarUint
