import Mathlib.Algebra.Order.BigOperators.Group.List
import Mathlib.Algebra.Order.Ring.Int
import UtxoLedger.Proofs.Value.Quantities
import UtxoLedger.Build.Amounts

/-!
# Exact sums

Sums of words are exact as long as the total is a word, and sums of signed
words as long as no partial sum leaves their range. A value is seen through
its coin as a natural number and its quantities as integers.
-/

namespace UtxoLedger

/-! ## Words -/

/-- The sum of words as a number. -/
def coinTotal (words : List UInt64) : Nat := (words.map UInt64.toNat).sum

@[simp]
theorem coinTotal_nil : coinTotal [] = 0 := rfl

@[simp]
theorem coinTotal_cons (first : UInt64) (rest : List UInt64) :
    coinTotal (first :: rest) = first.toNat + coinTotal rest := by
  simp [coinTotal]

@[simp]
theorem coinTotal_append (first second : List UInt64) :
    coinTotal (first ++ second) = coinTotal first + coinTotal second := by
  simp [coinTotal]

theorem toNat_add_of_lt {first second : UInt64} (fits : first.toNat + second.toNat < bound64) :
    (first + second).toNat = first.toNat + second.toNat := by
  rw [UInt64.toNat_add]
  exact Nat.mod_eq_of_lt fits

theorem toNat_saturatingAdd_of_lt {first second : UInt64}
    (fits : first.toNat + second.toNat < bound64) :
    (first.saturatingAdd second).toNat = first.toNat + second.toNat := by
  rw [UInt64.toNat_saturatingAdd, wordMax]
  omega

theorem toNat_foldl_add (words : List UInt64) (start : UInt64)
    (fits : start.toNat + coinTotal words < bound64) :
    (words.foldl (· + ·) start).toNat = start.toNat + coinTotal words := by
  induction words generalizing start with
  | nil => rfl
  | cons first rest ih =>
      rw [coinTotal_cons] at fits ⊢
      have step : (start + first).toNat = start.toNat + first.toNat := toNat_add_of_lt (by omega)
      rw [List.foldl_cons, ih (start + first) (by omega), step]
      omega

/-- A sum of words is exact when the total is a word. -/
theorem toNat_wordSum {words : List UInt64} (fits : coinTotal words < bound64) :
    (wordSum words).toNat = coinTotal words := by
  rw [wordSum, toNat_foldl_add words 0 (by simpa using fits)]
  simp

/-! ## Signed words -/

/-- An integer in the range of signed words. -/
def IsSigned (number : Int) : Prop := signedMin ≤ number ∧ number ≤ signedMax

theorem isSigned_toInt (word : Int64) : IsSigned word.toInt :=
  ⟨word.signedMin_le_toInt, word.toInt_le_signedMax⟩

theorem isSigned_zero : IsSigned 0 := isSigned_toInt 0

/-- No partial sum leaves the range of signed words. -/
def SumsExactly (quantities : List Int) : Prop :=
  ∀ count, IsSigned (quantities.take count).sum

theorem toInt_saturatingAdd_of_isSigned {first second : Int64}
    (fits : IsSigned (first.toInt + second.toInt)) :
    (first.saturatingAdd second).toInt = first.toInt + second.toInt :=
  Int64.toInt_saturate_of_mem fits.1 fits.2

/-- The opposite of a signed word is exact unless it is the least one. -/
theorem toInt_saturatingNeg_of_ne {word : Int64} (above : word.toInt ≠ signedMin) :
    word.saturatingNeg.toInt = -word.toInt := by
  have least := word.signedMin_le_toInt
  have most := word.toInt_le_signedMax
  have lower : signedMin ≤ -word.toInt := by
    unfold signedMin signedMax bound63 at *
    omega
  have upper : -word.toInt ≤ signedMax := by
    unfold signedMin signedMax bound63 at *
    omega
  exact Int64.toInt_saturate_of_mem lower upper

theorem toInt_foldl_saturatingAdd (words : List Int64) (start : Int64)
    (exact : ∀ count, IsSigned (start.toInt + ((words.map Int64.toInt).take count).sum)) :
    (words.foldl Int64.saturatingAdd start).toInt =
      start.toInt + (words.map Int64.toInt).sum := by
  induction words generalizing start with
  | nil => simp
  | cons first rest ih =>
      have step : (start.saturatingAdd first).toInt = start.toInt + first.toInt :=
        toInt_saturatingAdd_of_isSigned (by simpa using exact 1)
      have later : ∀ count,
          IsSigned ((start.saturatingAdd first).toInt +
            ((rest.map Int64.toInt).take count).sum) := by
        intro count
        have next := exact (count + 1)
        simp only [List.map_cons, List.take_succ_cons, List.sum_cons] at next
        rw [step]
        simpa [Int.add_assoc] using next
      rw [List.foldl_cons, ih _ later, step, List.map_cons, List.sum_cons, Int.add_assoc]

/-- A sum of signed words is exact when no partial sum leaves their range. -/
theorem toInt_signedSum {words : List Int64} (exact : SumsExactly (words.map Int64.toInt)) :
    (words.foldl Int64.saturatingAdd 0).toInt = (words.map Int64.toInt).sum := by
  rw [toInt_foldl_saturatingAdd words 0 fun count => by simpa using exact count]
  simp

/-- Partial sums fit when the magnitudes add up to less than a signed word holds. -/
theorem sumsExactly_of_magnitudes {quantities : List Int}
    (small : (quantities.map Int.natAbs).sum < bound63) : SumsExactly quantities := by
  have bounded (list : List Int) : list.sum.natAbs ≤ (list.map Int.natAbs).sum := by
    induction list with
    | nil => simp
    | cons first rest ih =>
        rw [List.sum_cons, List.map_cons, List.sum_cons]
        omega
  intro count
  have part := bounded (quantities.take count)
  have whole : ((quantities.take count).map Int.natAbs).sum ≤ (quantities.map Int.natAbs).sum := by
    conv => rhs; rw [← List.take_append_drop count quantities, List.map_append, List.sum_append]
    omega
  unfold IsSigned signedMin signedMax
  omega

/-- A sum of what is not negative is exact, or the greatest word where that is less. -/
theorem toInt_foldl_saturatingAdd_of_nonneg (words : List Int64) (start : Int64)
    (all : ∀ word ∈ words, 0 ≤ word.toInt) (before : 0 ≤ start.toInt) :
    (words.foldl Int64.saturatingAdd start).toInt =
      min (start.toInt + (words.map Int64.toInt).sum) signedMax := by
  induction words generalizing start with
  | nil =>
      have most := start.toInt_le_signedMax
      simp only [List.foldl_nil, List.map_nil, List.sum_nil, Int.add_zero]
      omega
  | cons first rest ih =>
      have here := all first List.mem_cons_self
      have later : ∀ word ∈ rest, 0 ≤ word.toInt := fun word member =>
        all word (List.mem_cons_of_mem _ member)
      have more : 0 ≤ (rest.map Int64.toInt).sum := by
        refine List.sum_nonneg fun quantity member => ?_
        obtain ⟨word, listed, rfl⟩ := List.mem_map.1 member
        exact later word listed
      have step : (start.saturatingAdd first).toInt =
          max signedMin (min (start.toInt + first.toInt) signedMax) :=
        Int64.toInt_saturatingAdd _ _
      have range : signedMin ≤ 0 ∧ 0 ≤ signedMax := by decide
      rw [List.foldl_cons, ih _ later (by omega), step, List.map_cons, List.sum_cons]
      omega

/-! ## Bundles and values -/

namespace MultiAsset

/-- The quantity of an asset as an integer. -/
def quantity (bundle : MultiAsset) (asset : Asset) : Int := (bundle.get asset).toInt

theorem isEmpty_iff_quantity (bundle : MultiAsset) :
    bundle.isEmpty = true ↔ ∀ asset, bundle.quantity asset = 0 := by
  rw [isEmpty_iff]
  exact forall_congr' fun asset => Int64.toInt_inj.symm

theorem quantity_plus {first second : MultiAsset} {asset : Asset}
    (fits : IsSigned (first.quantity asset + second.quantity asset)) :
    (first + second).quantity asset = first.quantity asset + second.quantity asset := by
  rw [quantity, get_plus]
  exact toInt_saturatingAdd_of_isSigned fits

theorem quantity_neg {bundle : MultiAsset} {asset : Asset}
    (above : bundle.quantity asset ≠ signedMin) :
    (-bundle).quantity asset = -bundle.quantity asset := by
  rw [quantity, get_neg]
  exact toInt_saturatingNeg_of_ne above

theorem quantity_sub {first second : MultiAsset} {asset : Asset}
    (above : second.quantity asset ≠ signedMin)
    (fits : IsSigned (first.quantity asset - second.quantity asset)) :
    (first - second).quantity asset = first.quantity asset - second.quantity asset := by
  have opposite : (second.get asset).saturatingNeg.toInt = -second.quantity asset :=
    toInt_saturatingNeg_of_ne above
  rw [quantity, get_sub, toInt_saturatingAdd_of_isSigned] <;> rw [opposite]
  · rfl
  · exact fits

theorem quantity_filter (bundle : MultiAsset) (accepts : Asset → Int64 → Bool) (asset : Asset) :
    (bundle.filter accepts).quantity asset =
      if accepts asset (bundle.get asset) then bundle.quantity asset else 0 := by
  rw [quantity, get_filter]
  split <;> rfl

/-- A bundle of one entry holds a single asset. -/
theorem quantity_add_empty (asset other : Asset) (quantity : Int64) :
    (empty.add asset quantity).quantity other = if other = asset then quantity.toInt else 0 := by
  rw [MultiAsset.quantity, get_add]
  split
  · rw [get_empty, Int64.zero_saturatingAdd]
  · rfl

theorem quantity_positive (bundle : MultiAsset) (asset : Asset) :
    bundle.positive.quantity asset = max (bundle.quantity asset) 0 := by
  rw [positive, quantity_filter]
  simp only [decide_eq_true_eq, Int64.lt_iff_toInt_lt]
  change (if 0 < bundle.quantity asset then _ else _) = _
  split <;> omega

theorem quantity_negative (bundle : MultiAsset) (asset : Asset) :
    bundle.negative.quantity asset = min (bundle.quantity asset) 0 := by
  rw [negative, quantity_filter]
  simp only [decide_eq_true_eq, Int64.lt_iff_toInt_lt]
  change (if bundle.quantity asset < 0 then _ else _) = _
  split <;> omega

/-- Nothing is below zero. -/
theorem negative_isEmpty_iff (bundle : MultiAsset) :
    bundle.negative.isEmpty = true ↔ ∀ asset, 0 ≤ bundle.quantity asset := by
  rw [isEmpty_iff_quantity]
  exact forall_congr' fun asset => by rw [quantity_negative]; omega

end MultiAsset

namespace Value

/-- The quantity of an asset in a value. -/
def quantity (value : Value) (asset : Asset) : Int := value.assets.quantity asset

theorem quantity_filter (accepts : Asset → Int64 → Bool) (value : Value) (asset : Asset) :
    (value.filter accepts).quantity asset =
      if accepts asset (value.assets.get asset) then value.quantity asset else 0 :=
  MultiAsset.quantity_filter value.assets accepts asset

/-- Values without negative quantities may be added in any order. -/
theorem add_right_comm (start : Value) {first second : Value}
    (left : ∀ asset, 0 ≤ first.quantity asset) (right : ∀ asset, 0 ≤ second.quantity asset) :
    start + first + second = start + second + first := by
  have coin : (start + first + second).coin = (start + second + first).coin :=
    UInt64.saturatingAdd_right_comm _ _ _
  have assets : (start + first + second).assets = (start + second + first).assets := by
    apply MultiAsset.ext_get
    intro asset
    change (start.assets + first.assets + second.assets).get asset =
      (start.assets + second.assets + first.assets).get asset
    simp only [MultiAsset.get_plus]
    exact Int64.saturatingAdd_right_comm _ (left asset) (right asset)
  exact congrArg₂ Value.mk coin assets

theorem coin_foldl_add (values : List Value) (start : Value) :
    (values.foldl (· + ·) start).coin.toNat =
      min (start.coin.toNat + coinTotal (values.map coin)) wordMax := by
  induction values generalizing start with
  | nil => exact (Nat.min_eq_left (Nat.le_pred_of_lt start.coin.toNat_lt)).symm
  | cons first rest ih =>
      have step : (start + first).coin.toNat =
          min (start.coin.toNat + first.coin.toNat) wordMax :=
        UInt64.toNat_saturatingAdd _ _
      rw [List.foldl_cons, ih, step, List.map_cons, coinTotal_cons]
      omega

/-- A sum of values holds the sum of the coin, or the largest word where that is less. -/
theorem coin_sum_eq_min (values : List Value) :
    (sum values).coin.toNat = min (coinTotal (values.map coin)) wordMax := by
  rw [sum, coin_foldl_add]
  simp [zero, ofCoin]

theorem coin_sum {values : List Value} (fits : coinTotal (values.map coin) < bound64) :
    (sum values).coin.toNat = coinTotal (values.map coin) := by
  rw [coin_sum_eq_min]
  exact Nat.min_eq_left (Nat.le_pred_of_lt fits)

theorem get_foldl_add (values : List Value) (start : Value) (asset : Asset) :
    (values.foldl (· + ·) start).assets.get asset =
      (values.map fun value => value.assets.get asset).foldl Int64.saturatingAdd
        (start.assets.get asset) := by
  induction values generalizing start with
  | nil => rfl
  | cons first rest ih =>
      have step : (start + first).assets.get asset =
          (start.assets.get asset).saturatingAdd (first.assets.get asset) :=
        MultiAsset.get_plus _ _ _
      rw [List.foldl_cons, ih, step]
      rfl

/-- A sum of values holds the sum of quantities that are not negative, or the greatest word where
that is less. -/
theorem quantity_sum_eq_min {values : List Value} {asset : Asset}
    (all : ∀ value ∈ values, 0 ≤ value.quantity asset) :
    (sum values).quantity asset =
      min (values.map fun value => value.quantity asset).sum signedMax := by
  have words : ∀ word ∈ values.map fun value => value.assets.get asset, 0 ≤ word.toInt := by
    intro word member
    obtain ⟨value, listed, rfl⟩ := List.mem_map.1 member
    exact all value listed
  have folded := toInt_foldl_saturatingAdd_of_nonneg _ 0 words (by decide)
  rw [Int64.toInt_zero, Int.zero_add, List.map_map] at folded
  rw [quantity, MultiAsset.quantity, sum, get_foldl_add]
  exact folded

/-- The sum of values and one more bundle holds the sum of the quantities. -/
theorem quantity_sum_plus {values : List Value} {bundle : MultiAsset} {asset : Asset}
    (exact : SumsExactly
      (values.map (fun value => value.quantity asset) ++ [bundle.quantity asset])) :
    ((sum values).assets + bundle).quantity asset =
      (values.map fun value => value.quantity asset).sum + bundle.quantity asset := by
  have folded : ((sum values).assets + bundle).get asset =
      ((values.map fun value => value.assets.get asset) ++ [bundle.get asset]).foldl
        Int64.saturatingAdd 0 := by
    rw [MultiAsset.get_plus, sum, get_foldl_add, List.foldl_append]
    rfl
  have shown : ((values.map fun value => value.assets.get asset) ++ [bundle.get asset]).map
      Int64.toInt = values.map (fun value => value.quantity asset) ++ [bundle.quantity asset] := by
    simp [quantity, MultiAsset.quantity]
  rw [MultiAsset.quantity, folded, toInt_signedSum (shown ▸ exact), shown, List.sum_append]
  simp

end Value

end UtxoLedger
