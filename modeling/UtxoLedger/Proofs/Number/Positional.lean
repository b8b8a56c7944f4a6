import Mathlib.Algebra.Group.Nat.Defs
import UtxoLedger.Number.Digits

/-!
# Digit strings of one length

A digit string denotes a number below the power of its length, each number
there is denoted by one string of that length, and the digits are what is left
of the number behind each place.
-/

namespace UtxoLedger.Number

/-! ## Joining digit strings -/

theorem foldl_digits (base total : Nat) (digits : List Nat) :
    digits.foldl (fun total digit => base * total + digit) total =
      total * base ^ digits.length + ofDigits base digits := by
  unfold ofDigits
  induction digits generalizing total with
  | nil => simp
  | cons digit rest ih =>
      rw [List.foldl_cons, List.foldl_cons, ih (base * total + digit), ih (base * 0 + digit),
        List.length_cons, Nat.pow_succ, Nat.mul_zero, Nat.zero_add, Nat.add_mul, Nat.mul_comm base,
        Nat.mul_assoc total, Nat.mul_comm base, Nat.add_assoc]

theorem ofDigits_cons (base digit : Nat) (rest : List Nat) :
    ofDigits base (digit :: rest) = digit * base ^ rest.length + ofDigits base rest := by
  rw [ofDigits, List.foldl_cons, foldl_digits, Nat.mul_zero, Nat.zero_add]

theorem ofDigits_append (base : Nat) (first more : List Nat) :
    ofDigits base (first ++ more) =
      ofDigits base first * base ^ more.length + ofDigits base more := by
  rw [ofDigits, List.foldl_append, foldl_digits]
  rfl

theorem ofDigits_lt {base : Nat} {digits : List Nat} (small : ∀ digit ∈ digits, digit < base) :
    ofDigits base digits < base ^ digits.length := by
  induction digits with
  | nil => exact Nat.one_pos
  | cons digit rest ih =>
      have first := small digit List.mem_cons_self
      have later := ih fun other member => small other (List.mem_cons_of_mem _ member)
      have product := Nat.mul_le_mul_right (base ^ rest.length) (Nat.succ_le_of_lt first)
      rw [Nat.succ_mul] at product
      rw [ofDigits_cons, List.length_cons, Nat.pow_succ, Nat.mul_comm _ base]
      omega

/-- Digit strings of one length denote different numbers. -/
theorem ofDigits_injective {base : Nat} {first second : List Nat}
    (length : first.length = second.length) (small : ∀ digit ∈ first, digit < base)
    (less : ∀ digit ∈ second, digit < base) (same : ofDigits base first = ofDigits base second) :
    first = second := by
  induction first generalizing second with
  | nil => exact (List.length_eq_zero_iff.1 length.symm).symm
  | cons digit rest ih =>
      cases second with
      | nil => cases length
      | cons other later =>
          have sizes : rest.length = later.length := Nat.succ.inj length
          have low := ofDigits_lt fun digit member => small digit (List.mem_cons_of_mem _ member)
          have high := ofDigits_lt fun digit member => less digit (List.mem_cons_of_mem _ member)
          rw [ofDigits_cons, ofDigits_cons, ← sizes] at same
          rw [← sizes] at high
          have positive := Nat.zero_lt_of_lt low
          have leading := congrArg (· / base ^ rest.length) same
          have remaining := congrArg (· % base ^ rest.length) same
          simp only [Nat.mul_comm _ (base ^ rest.length), Nat.mul_add_div positive,
            Nat.div_eq_of_lt low, Nat.div_eq_of_lt high, Nat.add_zero] at leading
          simp only [Nat.mul_comm _ (base ^ rest.length), Nat.mul_add_mod, Nat.mod_eq_of_lt low,
            Nat.mod_eq_of_lt high] at remaining
          rw [leading, ih sizes (fun digit member => small digit (List.mem_cons_of_mem _ member))
            (fun digit member => less digit (List.mem_cons_of_mem _ member)) remaining]

/-! ## Cutting out digits -/

/-- The lowest digits of a number, written from the highest of them on. -/
theorem ofDigits_range (base number width : Nat) :
    ofDigits base ((List.range width).map fun place =>
      number / base ^ (width - 1 - place) % base) = number % base ^ width := by
  induction width generalizing number with
  | zero => simp [ofDigits, Nat.mod_one]
  | succ width ih =>
      have earlier : (List.range width).map (fun place =>
          number / base ^ (width + 1 - 1 - place) % base) =
          (List.range width).map fun place =>
            number / base / base ^ (width - 1 - place) % base := by
        refine List.map_congr_left fun place member => ?_
        have within := List.mem_range.1 member
        rw [Nat.div_div_eq_div_mul, ← Nat.pow_succ',
          show width + 1 - 1 - place = (width - 1 - place).succ by omega]
      rw [List.range_succ, List.map_append, List.map_singleton, ofDigits_append_singleton, earlier,
        ih, show width + 1 - 1 - width = 0 by omega, Nat.pow_zero, Nat.div_one, Nat.pow_succ',
        Nat.mod_mul, Nat.add_comm]

end UtxoLedger.Number
