import UtxoLedger.Width

/-!
# Saturating machine words

Coin amounts are unsigned 64-bit words and token quantities are signed ones.
Sums that leave the range stop at its end. Each operation is the exact
integer result followed by `saturate`, whose value is stated over the
integers.
-/

namespace UtxoLedger

/-- The largest unsigned 64-bit word, as a number. -/
abbrev wordMax : Nat := bound64 - 1

/-- The largest signed 64-bit word, as a number. -/
abbrev signedMax : Int := bound63 - 1

/-- The least signed 64-bit word, as a number. -/
abbrev signedMin : Int := -bound63

end UtxoLedger

namespace UInt64

/-- The word nearest to a natural number. -/
def saturate (number : Nat) : UInt64 :=
  if number < UtxoLedger.bound64 then UInt64.ofNat number else UInt64.ofNat UtxoLedger.wordMax

theorem toNat_saturate (number : Nat) :
    (saturate number).toNat = min number UtxoLedger.wordMax := by
  unfold saturate UtxoLedger.wordMax UtxoLedger.bound64
  split <;> simp only [UInt64.toNat_ofNat'] <;> omega

theorem saturate_mono {first second : Nat} (least : first ≤ second) :
    saturate first ≤ saturate second := by
  rw [UInt64.le_iff_toNat_le, toNat_saturate, toNat_saturate]
  omega

/-- Sum of two words, at most the largest word. -/
def saturatingAdd (first second : UInt64) : UInt64 :=
  saturate (first.toNat + second.toNat)

/-- Difference of two words, at least zero. -/
def saturatingSub (first second : UInt64) : UInt64 :=
  saturate (first.toNat - second.toNat)

/-- Product of two words, at most the largest word. -/
def saturatingMul (first second : UInt64) : UInt64 :=
  saturate (first.toNat * second.toNat)

theorem toNat_saturatingAdd (first second : UInt64) :
    (first.saturatingAdd second).toNat = min (first.toNat + second.toNat) UtxoLedger.wordMax :=
  toNat_saturate _

theorem toNat_saturatingSub (first second : UInt64) :
    (first.saturatingSub second).toNat = first.toNat - second.toNat := by
  have bound := first.toNat_lt
  rw [saturatingSub, toNat_saturate, UtxoLedger.wordMax, UtxoLedger.bound64]
  omega

theorem toNat_saturatingMul (first second : UInt64) :
    (first.saturatingMul second).toNat = min (first.toNat * second.toNat) UtxoLedger.wordMax :=
  toNat_saturate _

theorem saturatingAdd_mono {first second third fourth : UInt64} (left : first ≤ second)
    (right : third ≤ fourth) : first.saturatingAdd third ≤ second.saturatingAdd fourth :=
  saturate_mono (Nat.add_le_add (UInt64.le_iff_toNat_le.1 left) (UInt64.le_iff_toNat_le.1 right))

@[simp]
theorem zero_saturatingAdd (word : UInt64) : saturatingAdd 0 word = word := by
  have bound := word.toNat_lt
  apply UInt64.toNat_inj.1
  rw [toNat_saturatingAdd, UInt64.toNat_zero, UtxoLedger.wordMax, UtxoLedger.bound64]
  omega

/-- The words that are added may change places. -/
theorem saturatingAdd_right_comm (first second third : UInt64) :
    (first.saturatingAdd second).saturatingAdd third =
      (first.saturatingAdd third).saturatingAdd second := by
  apply UInt64.toNat_inj.1
  simp only [toNat_saturatingAdd]
  omega

theorem saturatingMul_mono (factor : UInt64) {first second : UInt64} (least : first ≤ second) :
    factor.saturatingMul first ≤ factor.saturatingMul second :=
  saturate_mono (Nat.mul_le_mul_left _ (UInt64.le_iff_toNat_le.1 least))

theorem max_of_lt {first second : UInt64} (above : second < first) : max first second = first :=
  if_neg (UInt64.not_le.2 above)

theorem max_of_le {first second : UInt64} (below : first ≤ second) : max first second = second :=
  if_pos below

@[simp]
theorem max_same (word : UInt64) : max word word = word :=
  ite_self word

end UInt64

namespace Int64

/-- The signed word nearest to an integer. -/
def saturate (number : Int) : Int64 :=
  Int64.ofInt (max UtxoLedger.signedMin (min number UtxoLedger.signedMax))

theorem toInt_saturate (number : Int) :
    (saturate number).toInt = max UtxoLedger.signedMin (min number UtxoLedger.signedMax) := by
  unfold saturate UtxoLedger.signedMin UtxoLedger.signedMax UtxoLedger.bound63
  rw [Int64.toInt_ofInt_of_le] <;> omega

/-- Sum of two signed words, kept inside the range. -/
def saturatingAdd (first second : Int64) : Int64 :=
  saturate (first.toInt + second.toInt)

/-- Negation of a signed word; the least word becomes the greatest. -/
def saturatingNeg (word : Int64) : Int64 :=
  saturate (-word.toInt)

theorem toInt_saturatingAdd (first second : Int64) :
    (first.saturatingAdd second).toInt =
      max UtxoLedger.signedMin (min (first.toInt + second.toInt) UtxoLedger.signedMax) :=
  toInt_saturate _

theorem toInt_saturatingNeg (word : Int64) :
    word.saturatingNeg.toInt =
      max UtxoLedger.signedMin (min (-word.toInt) UtxoLedger.signedMax) :=
  toInt_saturate _

/-- An integer in the range of signed words is its own nearest one. -/
theorem toInt_saturate_of_mem {number : Int} (least : UtxoLedger.signedMin ≤ number)
    (most : number ≤ UtxoLedger.signedMax) : (saturate number).toInt = number := by
  rw [toInt_saturate, Int.min_eq_left most, Int.max_eq_right least]

theorem signedMin_le_toInt (word : Int64) : UtxoLedger.signedMin ≤ word.toInt :=
  word.le_toInt

theorem toInt_le_signedMax (word : Int64) : word.toInt ≤ UtxoLedger.signedMax := by
  have bound := word.toInt_lt
  unfold UtxoLedger.signedMax UtxoLedger.bound63
  omega

@[simp]
theorem saturate_toInt (word : Int64) : saturate word.toInt = word :=
  Int64.toInt_inj.1 (toInt_saturate_of_mem word.signedMin_le_toInt word.toInt_le_signedMax)

@[simp]
theorem saturatingAdd_zero (word : Int64) : word.saturatingAdd 0 = word := by
  simp [saturatingAdd]

@[simp]
theorem zero_saturatingAdd (word : Int64) : saturatingAdd 0 word = word := by
  simp [saturatingAdd]

/-- Words that are not negative may change places: the sum stops at the upper end only. -/
theorem saturatingAdd_right_comm (first : Int64) {second third : Int64} (left : 0 ≤ second.toInt)
    (right : 0 ≤ third.toInt) :
    (first.saturatingAdd second).saturatingAdd third =
      (first.saturatingAdd third).saturatingAdd second := by
  have least := first.signedMin_le_toInt
  apply Int64.toInt_inj.1
  simp only [toInt_saturatingAdd]
  omega

@[simp]
theorem saturatingNeg_zero : saturatingNeg 0 = 0 := by decide

end Int64
