import UtxoLedger.Proofs.Value.Sums

/-!
# The order of values

A value stands below another one when it has no more coin and no more of any
asset. An asset that a value does not list counts as zero, so what is listed
below zero on one side stands below what is absent on the other. Comparing
looks at listed entries alone and still gives this partial order.
-/

namespace UtxoLedger

namespace MultiAsset

theorem covers_iff (first second : MultiAsset) :
    first.covers second = true ↔ ∀ asset, second.quantity asset ≤ first.quantity asset := by
  unfold covers
  simp only [Bool.and_eq_true, List.all_eq_true, decide_eq_true_eq]
  constructor
  · rintro ⟨asked, held⟩ asset
    by_cases absent : second.get asset = 0
    · by_cases nothing : first.get asset = 0
      · simp only [quantity, absent, nothing, Int.le_refl]
      · have listed := (mem_entries_iff first asset (first.get asset)).2 ⟨rfl, nothing⟩
        have least : second.get asset ≤ first.get asset :=
          held (asset, first.get asset) listed
        exact Int64.le_iff_toInt_le.1 least
    · have listed := (mem_entries_iff second asset (second.get asset)).2 ⟨rfl, absent⟩
      have least : second.get asset ≤ first.get asset :=
        asked (asset, second.get asset) listed
      exact Int64.le_iff_toInt_le.1 least
  · intro above
    constructor
    · rintro ⟨asset, quantity⟩ listed
      obtain ⟨rfl, _⟩ := (mem_entries_iff second asset quantity).1 listed
      exact Int64.le_iff_toInt_le.2 (above asset)
    · rintro ⟨asset, quantity⟩ listed
      obtain ⟨rfl, _⟩ := (mem_entries_iff first asset quantity).1 listed
      exact Int64.le_iff_toInt_le.2 (above asset)

end MultiAsset

namespace Value

variable {first second third : Value}

/-! ## Part by part -/

theorem atMost_iff :
    first.atMost second = true ↔
      first.coin ≤ second.coin ∧ ∀ asset, first.assets.get asset ≤ second.assets.get asset := by
  rw [atMost, Bool.and_eq_true, decide_eq_true_eq, MultiAsset.covers_iff]
  exact and_congr_right fun _ => forall_congr' fun asset => Int64.le_iff_toInt_le.symm

theorem atMost_refl (value : Value) : value.atMost value = true :=
  atMost_iff.2 ⟨UInt64.le_rfl, fun _ => Int64.le_refl _⟩

theorem atMost_antisymm (left : first.atMost second = true) (right : second.atMost first = true) :
    first = second := by
  obtain ⟨coin, assets⟩ := atMost_iff.1 left
  obtain ⟨coinBack, assetsBack⟩ := atMost_iff.1 right
  have sameCoin : first.coin = second.coin := UInt64.le_antisymm coin coinBack
  have sameAssets : first.assets = second.assets :=
    MultiAsset.ext_get fun asset => Int64.le_antisymm (assets asset) (assetsBack asset)
  exact congrArg₂ Value.mk sameCoin sameAssets

theorem atMost_trans (left : first.atMost second = true) (right : second.atMost third = true) :
    first.atMost third = true := by
  obtain ⟨coin, assets⟩ := atMost_iff.1 left
  obtain ⟨furtherCoin, furtherAssets⟩ := atMost_iff.1 right
  refine atMost_iff.2 ⟨UInt64.le_trans coin furtherCoin, fun asset => ?_⟩
  exact Int64.le_trans (assets asset) (furtherAssets asset)

/-! ## Places -/

/-- The first value is placed below the second one or level with it. -/
def Precedes (first second : Value) : Prop :=
  first.compare? second = some .lt ∨ first.compare? second = some .eq

theorem precedes_iff_atMost : first.Precedes second ↔ first.atMost second = true := by
  unfold Precedes compare?
  cases first.atMost second <;> cases second.atMost first <;> simp

theorem compare?_eq_eq_iff_atMost :
    first.compare? second = some .eq ↔
      first.atMost second = true ∧ second.atMost first = true := by
  unfold compare?
  cases first.atMost second <;> cases second.atMost first <;> simp

theorem compare?_eq_lt_iff_atMost :
    first.compare? second = some .lt ↔
      first.atMost second = true ∧ ¬ second.atMost first = true := by
  unfold compare?
  cases first.atMost second <;> cases second.atMost first <;> simp

theorem compare?_swap (first second : Value) :
    second.compare? first = (first.compare? second).map Ordering.swap := by
  unfold compare?
  cases first.atMost second <;> cases second.atMost first <;> rfl

theorem compare?_eq_eq_iff : first.compare? second = some .eq ↔ first = second := by
  rw [compare?_eq_eq_iff_atMost]
  constructor
  · rintro ⟨left, right⟩
    exact atMost_antisymm left right
  · rintro rfl
    exact ⟨atMost_refl first, atMost_refl first⟩

theorem compare?_lt_trans (left : first.compare? second = some .lt)
    (right : second.compare? third = some .lt) : first.compare? third = some .lt := by
  obtain ⟨below, notAbove⟩ := compare?_eq_lt_iff_atMost.1 left
  obtain ⟨further, _⟩ := compare?_eq_lt_iff_atMost.1 right
  refine compare?_eq_lt_iff_atMost.2 ⟨atMost_trans below further, fun back => ?_⟩
  exact notAbove (atMost_trans further back)

/-- Comparing values is comparing them part by part, a partial order. -/
theorem compare?_componentwise (first second third : Value) :
    (first.Precedes second ↔
        first.coin ≤ second.coin ∧ ∀ asset, first.assets.get asset ≤ second.assets.get asset) ∧
      (first.compare? second = some .eq ↔ first = second) ∧
      (first.Precedes second → second.Precedes first → first = second) ∧
      (first.Precedes second → second.Precedes third → first.Precedes third) ∧
      (first.compare? second = some .lt → second.compare? third = some .lt →
        first.compare? third = some .lt) ∧
      second.compare? first = (first.compare? second).map Ordering.swap := by
  refine ⟨precedes_iff_atMost.trans atMost_iff, compare?_eq_eq_iff, ?_, ?_, compare?_lt_trans,
    compare?_swap first second⟩
  · intro left right
    exact atMost_antisymm (precedes_iff_atMost.1 left) (precedes_iff_atMost.1 right)
  · intro left right
    exact precedes_iff_atMost.2
      (atMost_trans (precedes_iff_atMost.1 left) (precedes_iff_atMost.1 right))

/-! ### Less than nothing, nothing, and something of another asset -/

namespace Sample

def asset : Asset := ⟨⟨.replicate 28 1⟩, .empty⟩

def other : Asset := ⟨⟨.replicate 28 2⟩, .empty⟩

/-- Three of an asset are owed. -/
def owing : Value := ⟨1, MultiAsset.empty.add asset (-3)⟩

def coinOnly : Value := .ofCoin 1

/-- The debt again, as what is left after three are taken away. -/
def lowered : Value := coinOnly - ⟨0, MultiAsset.empty.add asset 3⟩

def holding : Value := ⟨2, MultiAsset.empty.add other 4⟩

end Sample

theorem compare?_componentwise_owing :
    Sample.owing.compare? Sample.holding = some .lt ∧
      Sample.holding.compare? Sample.owing = some .gt ∧
      Sample.owing.Precedes Sample.holding ∧
      (∀ asset, Sample.owing.assets.get asset ≤ Sample.holding.assets.get asset) ∧
      Sample.owing = Sample.lowered := by
  have left : Sample.owing.compare? Sample.coinOnly = some .lt := by decide +kernel
  have right : Sample.coinOnly.compare? Sample.holding = some .lt := by decide +kernel
  obtain ⟨_, _, _, precedes, below, _⟩ :=
    compare?_componentwise Sample.owing Sample.coinOnly Sample.holding
  have placed := below left right
  have between : Sample.owing.Precedes Sample.holding := precedes (.inl left) (.inl right)
  obtain ⟨parts, _, _, _, _, swapped⟩ :=
    compare?_componentwise Sample.owing Sample.holding Sample.holding
  have level : Sample.owing.Precedes Sample.lowered := .inr (by decide +kernel)
  have back : Sample.lowered.Precedes Sample.owing := .inr (by decide +kernel)
  obtain ⟨_, _, antisymm, _⟩ := compare?_componentwise Sample.owing Sample.lowered Sample.owing
  refine ⟨placed, ?_, between, (parts.1 between).2, antisymm level back⟩
  rw [swapped, placed]
  rfl

end Value

end UtxoLedger
