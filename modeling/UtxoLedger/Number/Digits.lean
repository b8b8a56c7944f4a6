/-!
# Positional digits

The digits of a natural number in any base, most significant first and
without leading zeros; zero has no digits.
-/

namespace UtxoLedger.Number

/-- The value of a digit string, most significant digit first. -/
def ofDigits (base : Nat) (digits : List Nat) : Nat :=
  digits.foldl (fun total digit => base * total + digit) 0

/-- The lowest `fuel` digits of a number put in front of others, stopping at zero. -/
def digitsOnto (base : Nat) : (fuel : Nat) → Nat → List Nat → List Nat
  | 0, _, others => others
  | fuel + 1, number, others =>
      if number = 0 then others
      else digitsOnto base fuel (number / base) (number % base :: others)

/-- The digits of a number in a base of at least two, most significant first. -/
def digits (base number : Nat) : List Nat :=
  digitsOnto base (number.log2 + 1) number []

/-! ## Appending digits -/

theorem ofDigits_append_singleton (base : Nat) (digits : List Nat) (digit : Nat) :
    ofDigits base (digits ++ [digit]) = base * ofDigits base digits + digit := by
  simp [ofDigits]

theorem ofDigits_replicate_zero_append (base zeros : Nat) (digits : List Nat) :
    ofDigits base (List.replicate zeros 0 ++ digits) = ofDigits base digits := by
  have nothing : ofDigits base (List.replicate zeros 0) = 0 := by
    induction zeros with
    | zero => rfl
    | succ zeros ih =>
        rw [List.replicate_succ', ofDigits_append_singleton, ih, Nat.mul_zero, Nat.add_zero]
  unfold ofDigits at nothing ⊢
  rw [List.foldl_append, nothing]

/-- More digits never denote less. -/
theorem le_ofDigits_append {base : Nat} (positive : 0 < base) (first more : List Nat) :
    ofDigits base first ≤ ofDigits base (first ++ more) := by
  induction more generalizing first with
  | nil => exact Nat.le_of_eq (congrArg _ (List.append_nil first).symm)
  | cons digit rest ih =>
      have step := ih (first ++ [digit])
      rw [List.append_assoc, List.singleton_append, ofDigits_append_singleton] at step
      have grown := Nat.le_mul_of_pos_left (ofDigits base first) positive
      omega

/-! ## Quotient and remainder -/

theorem digitsOnto_append (base fuel number : Nat) (others : List Nat) :
    digitsOnto base fuel number others = digitsOnto base fuel number [] ++ others := by
  induction fuel generalizing number others with
  | zero => rfl
  | succ fuel ih =>
      unfold digitsOnto
      split
      · rfl
      · rw [ih (number / base) (number % base :: others), ih (number / base) [number % base],
          List.append_assoc]
        rfl

@[simp]
theorem digitsOnto_zero (base fuel : Nat) (others : List Nat) :
    digitsOnto base fuel 0 others = others := by
  cases fuel <;> rfl

/-- A quotient that is left has fewer bits than its number. -/
theorem log2_div_lt {base number : Nat} (two : 2 ≤ base) (left : number / base ≠ 0) :
    (number / base).log2 < number.log2 := by
  have halved : number / base ≤ number / 2 := Nat.div_le_div_left two (by decide)
  have bits : number < 2 ^ (number.log2 + 1) := Nat.lt_log2_self
  exact (Nat.log2_lt left).2 (by omega)

/-- Fuel beyond the bits of a number changes nothing. -/
theorem digitsOnto_of_log2_lt {base : Nat} (two : 2 ≤ base) {fuel enough number : Nat}
    (first : number.log2 < fuel) (second : number.log2 < enough) (others : List Nat) :
    digitsOnto base fuel number others = digitsOnto base enough number others := by
  induction fuel generalizing enough number others with
  | zero => exact absurd first (Nat.not_lt_zero _)
  | succ fuel ih =>
      cases enough with
      | zero => exact absurd second (Nat.not_lt_zero _)
      | succ enough =>
          by_cases last : number / base = 0
          · simp [digitsOnto, last]
          · have fewer := log2_div_lt two last
            unfold digitsOnto
            split
            · rfl
            · exact ih (by omega) (by omega) _

/-- The last digit is the remainder, and the digits before it are those of the quotient. -/
theorem digits_of_pos {base : Nat} (two : 2 ≤ base) {number : Nat} (positive : 0 < number) :
    digits base number = digits base (number / base) ++ [number % base] := by
  unfold digits
  rw [digitsOnto, if_neg (by omega), digitsOnto_append]
  by_cases last : number / base = 0
  · rw [last, digitsOnto_zero, digitsOnto_zero]
  · rw [digitsOnto_of_log2_lt two (log2_div_lt two last) (Nat.lt_add_one _)]

end UtxoLedger.Number
