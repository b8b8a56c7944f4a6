import UtxoLedger.Proofs.Build.MinimumCoin

/-!
# Coin that is filled in

The coin that an output gets is a price for its length, in which four bytes
are assumed for the coin itself. It is the least coin of the filled output
when it takes those four bytes. Coin that takes fewer is more than the least,
and coin that takes more is less than it: such outputs are refused when they
are filled again.
-/

namespace UtxoLedger

open Cbor

namespace TransactionOutput

/-! ## One output -/

/-- The coin to fill in takes the four bytes that are assumed for it, or these do not matter:
bytes cost nothing, or their price is cut off at the largest word. -/
def FillsExactly (output : TransactionOutput) (parameters : ProtocolParameters) : Prop :=
  let least := (output.minCoin parameters).toNat
  least = 0 ∨ bound16 ≤ least ∧ least < bound32 ∨ least = wordMax

/-- The coin to fill in takes more than the four bytes that are assumed for it. -/
def FillsShort (output : TransactionOutput) (parameters : ProtocolParameters) : Prop :=
  let least := (output.minCoin parameters).toNat
  bound32 ≤ least ∧ least < wordMax

instance (output : TransactionOutput) (parameters : ProtocolParameters) :
    Decidable (output.FillsShort parameters) :=
  inferInstanceAs (Decidable (_ ∧ _))

/-- A price for a length with four bytes for the paid word is more than the price for the true
length when the word is shorter. -/
theorem price_lt_iff {base price paid : Nat} (assumed : paid = min ((base + 5) * price) wordMax) :
    min ((base + Encoder.headLength paid) * price) wordMax < paid ↔ 0 < paid ∧ paid < bound16 := by
  constructor
  · intro dearer
    refine ⟨by omega, ?_⟩
    by_contra wide
    have long : 5 ≤ Encoder.headLength paid := Encoder.headLength_mono (Nat.not_lt.1 wide)
    have least := Nat.mul_le_mul_right price (Nat.add_le_add_left long base)
    omega
  · rintro ⟨charged, narrow⟩
    have short : Encoder.headLength paid ≤ 3 := by
      have most : paid ≤ bound16 - 1 := Nat.le_sub_one_of_lt narrow
      exact Encoder.headLength_mono most
    have least := Nat.mul_le_mul_right price (Nat.add_le_add_left short base)
    have priced : price ≠ 0 := by
      rintro rfl
      omega
    have cheaper : (base + 5) * price = (base + 3) * price + 2 * price :=
      Nat.add_mul (base + 3) 2 price
    unfold bound16 at narrow
    unfold wordMax bound64 at assumed ⊢
    omega

section

variable {output : TransactionOutput} (parameters : ProtocolParameters)

theorem filled_of_coinless (coinless : output.amount.coin = 0) :
    output.filled parameters = output.withCoin (output.minCoin parameters) := by
  rw [filled, if_pos coinless, withCoin]

/-- Nothing is left to fill in. -/
theorem filled_filled :
    (output.filled parameters).filled parameters = output.filled parameters := by
  by_cases coinless : output.amount.coin = 0
  · by_cases free : output.minCoin parameters = 0
    · have same : output.filled parameters = output := by
        rw [filled_of_coinless parameters coinless, free, withCoin, ← coinless]
      rw [same, same]
    · refine filled_of_coin ?_
      rwa [filled_of_coinless parameters coinless]
  · rw [filled_of_coin coinless, filled_of_coin coinless]

theorem coin_lt_minCoin_filled_iff (coinless : output.amount.coin = 0) :
    (output.filled parameters).amount.coin < (output.filled parameters).minCoin parameters ↔
      output.FillsShort parameters := by
  rw [← UInt64.not_le]
  exact (not_congr (meetsMinimum_filled_iff coinless)).trans not_not

theorem minCoin_filled_lt_coin_iff (coinless : output.amount.coin = 0) :
    (output.filled parameters).minCoin parameters < (output.filled parameters).amount.coin ↔
      0 < (output.minCoin parameters).toNat ∧ (output.minCoin parameters).toNat < bound16 := by
  obtain ⟨base, least⟩ := output.exists_minCoin_withCoin parameters
  have before : output.withCoin 0 = output := by rw [withCoin, ← coinless]
  have assumed := least 0
  rw [before, if_pos rfl] at assumed
  rw [UInt64.lt_iff_toNat_lt, filled_of_coinless parameters coinless, least]
  change _ < (output.minCoin parameters).toNat ↔ _
  by_cases free : output.minCoin parameters = 0
  · rw [free]
    exact iff_of_false (Nat.not_lt_zero _) (by decide)
  · rw [if_neg free]
    exact price_lt_iff assumed

theorem coin_eq_minCoin_filled_iff (coinless : output.amount.coin = 0) :
    (output.filled parameters).amount.coin = (output.filled parameters).minCoin parameters ↔
      output.FillsExactly parameters := by
  have below := coin_lt_minCoin_filled_iff parameters coinless
  have above := minCoin_filled_lt_coin_iff parameters coinless
  have most := (output.minCoin parameters).toNat_lt
  rw [UInt64.lt_iff_toNat_lt] at below above
  rw [← UInt64.toNat_inj]
  generalize (output.filled parameters).amount.coin.toNat = coin at below above ⊢
  generalize ((output.filled parameters).minCoin parameters).toNat = least at below above ⊢
  unfold FillsShort bound32 wordMax bound64 at below
  unfold bound16 at above
  unfold FillsExactly bound16 bound32 wordMax bound64
  dsimp only at below ⊢
  omega

end

end TransactionOutput

namespace Draft

/-! ## All outputs -/

variable {parameters : ProtocolParameters} {place : Nat} {outputs filled : List TransactionOutput}

/-- Outputs that have coin pass when they have enough. -/
theorem fillOutputs_of_enough
    (enough : ∀ output ∈ outputs, output.amount.coin = 0 ∨ output.MeetsMinimum parameters) :
    fillOutputs parameters place outputs = .ok (outputs.map (·.filled parameters)) := by
  induction outputs generalizing place with
  | nil => rfl
  | cons output rest ih =>
      obtain ⟨here, later⟩ := List.forall_mem_cons.1 enough
      have passes :
          ¬ (output.amount.coin ≠ 0 && output.amount.coin < output.minCoin parameters) := by
        rcases here with coinless | meets
        · simp [coinless]
        · simp [UInt64.not_lt.2 meets]
      rw [fillOutputs, if_neg passes, ih later]
      rfl

/-- Filled outputs may be filled again when none of them got too little. -/
theorem forall_filled_enough_iff
    (enough : ∀ output ∈ outputs, output.amount.coin = 0 ∨ output.MeetsMinimum parameters) :
    (∀ output ∈ outputs.map (·.filled parameters),
        output.amount.coin = 0 ∨ output.MeetsMinimum parameters) ↔
      ∀ given ∈ outputs, given.amount.coin = 0 → ¬ given.FillsShort parameters := by
  rw [List.forall_mem_map]
  refine forall₂_congr fun given member => ?_
  by_cases coinless : given.amount.coin = 0
  · have meets := @TransactionOutput.meetsMinimum_filled_iff given parameters coinless
    rw [TransactionOutput.filled_of_coinless parameters coinless] at meets ⊢
    have free : (given.withCoin (given.minCoin parameters)).amount.coin = 0 →
        ¬ given.FillsShort parameters := by
      intro (least : given.minCoin parameters = 0)
      unfold TransactionOutput.FillsShort
      rw [least]
      decide
    constructor
    · rintro (nothing | sound) -
      · exact free nothing
      · exact meets.1 sound
    · exact fun supplied => .inr (meets.2 (supplied coinless))
  · rw [TransactionOutput.filled_of_coin coinless]
    exact iff_of_true (enough given member) fun nothing => absurd nothing coinless

/-- Outputs with coin stay as they are. The others get the least coin of the filled output exactly
when that coin takes the bytes assumed for it, and filling a second time succeeds, without any
change, exactly when none of them got too little. -/
theorem fillOutputs_exact_iff (filling : fillOutputs parameters place outputs = .ok filled) :
    List.Forall₂ (fun given output =>
        (given.amount.coin ≠ 0 → output = given) ∧
        (given.amount.coin = 0 →
          output = given.withCoin (given.minCoin parameters) ∧
          (output.amount.coin = output.minCoin parameters ↔ given.FillsExactly parameters) ∧
          (output.amount.coin < output.minCoin parameters ↔ given.FillsShort parameters)))
      outputs filled ∧
    (fillOutputs parameters place filled = .ok filled ↔
      ∀ given ∈ outputs, given.amount.coin = 0 → ¬ given.FillsShort parameters) ∧
    ∀ again, fillOutputs parameters place filled = .ok again → again = filled := by
  obtain ⟨rfl, enough⟩ := fillOutputs_eq_ok filling
  have unchanged : (outputs.map (·.filled parameters)).map (·.filled parameters) =
      outputs.map (·.filled parameters) := by
    rw [List.map_map]
    exact List.map_congr_left fun _ _ => TransactionOutput.filled_filled parameters
  refine ⟨?_, ?_, fun again refilling => ?_⟩
  · rw [List.forall₂_map_right_iff, List.forall₂_same]
    intro given _
    refine ⟨TransactionOutput.filled_of_coin, fun coinless => ?_⟩
    exact ⟨TransactionOutput.filled_of_coinless parameters coinless,
      TransactionOutput.coin_eq_minCoin_filled_iff parameters coinless,
      TransactionOutput.coin_lt_minCoin_filled_iff parameters coinless⟩
  · rw [← forall_filled_enough_iff enough]
    constructor
    · exact fun refilling => (fillOutputs_eq_ok refilling).2
    · intro passes
      rw [fillOutputs_of_enough passes, unchanged]
  · rw [(fillOutputs_eq_ok refilling).1, unchanged]

/-- With the preset price for a byte the coin takes four bytes. -/
theorem fillOutputs_exact_preset :
    ∃ filled,
      fillOutputs .preset 0 (.plain (Sample.address 7) .zero :: Sample.outputs) = .ok filled ∧
      fillOutputs .preset 0 filled = .ok filled := by
  have enough : ∀ output ∈ .plain (Sample.address 7) .zero :: Sample.outputs,
      output.amount.coin = 0 ∨ output.minCoin .preset ≤ output.amount.coin := by decide +kernel
  have filling := @fillOutputs_of_enough .preset 0 _ enough
  refine ⟨_, filling, (fillOutputs_exact_iff filling).2.1.2 ?_⟩
  decide +kernel

/-- Every byte of an output costs 22000000. -/
def Sample.dear : ProtocolParameters :=
  { ProtocolParameters.preset with coinsPerUtxoByte := 22000000 }

/-- At a high price for a byte the coin takes eight bytes, which the output does not pay for. -/
theorem fillOutputs_falls_short :
    ∃ output, fillOutputs Sample.dear 0 [.plain (Sample.address 7) .zero] = .ok [output] ∧
      output.amount.coin = 4378000000 ∧ output.minCoin Sample.dear = 4466000000 ∧
      fillOutputs Sample.dear 0 [output] =
        .error (.outputBelowMinimum 0 4378000000 4466000000) := by
  have coin : ((TransactionOutput.plain (Sample.address 7) .zero).filled Sample.dear).amount.coin =
      4378000000 := by decide +kernel
  have least : ((TransactionOutput.plain (Sample.address 7) .zero).filled Sample.dear).minCoin
      Sample.dear = 4466000000 := by decide +kernel
  refine ⟨_, fillOutputs_of_enough ?_, coin, least, ?_⟩
  · exact fun output member => .inl (by rw [List.mem_singleton.1 member]; rfl)
  · rw [fillOutputs, coin, least]
    rfl

end Draft

end UtxoLedger
