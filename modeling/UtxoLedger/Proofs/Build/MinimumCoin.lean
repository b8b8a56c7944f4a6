import UtxoLedger.Proofs.Build.Conservation
import UtxoLedger.Proofs.Wire.Lengths

/-!
# Outputs and their least coin

An output has to carry coin in proportion to its own length, which its coin
is a part of. The outputs of a build carry enough with two exceptions. Coin
that is filled in takes more room than was assumed once it does not fit four
bytes, and an output that change is merged into grows by the assets of the
change, whatever coin comes with them.
-/

namespace UtxoLedger

/-! ## Lengths of outputs -/

namespace Value

/-- The length of a value depends on its coin through the head of the coin alone. -/
theorem exists_length_encode (assets : MultiAsset) :
    ∃ base, ∀ coin, (Cbor.encode (⟨coin, assets⟩ : Value)).length =
      base + Cbor.Encoder.headLength coin.toNat := by
  have word (coin : UInt64) :
      (Cbor.encode coin).length = Cbor.Encoder.headLength coin.toNat :=
    Cbor.Encoder.length_head 0 coin.toNat
  by_cases pure : assets.isEmpty = true
  · refine ⟨0, fun coin => ?_⟩
    rw [encode_of_isEmpty pure, word, Nat.zero_add]
  · refine ⟨(Cbor.Encoder.array 2).length + (Cbor.encode assets).length, fun coin => ?_⟩
    rw [encode_of_not_isEmpty pure, List.length_append, List.length_append, word]
    omega

end Value

namespace TransactionOutput

/-- The output with other coin. -/
def withCoin (output : TransactionOutput) (coin : UInt64) : TransactionOutput :=
  { output with amount := { output.amount with coin := coin } }

/-- The length of an output depends on its coin through the head of the coin alone. -/
theorem exists_length_encode (output : TransactionOutput) :
    ∃ base, ∀ coin, (Cbor.encode (output.withCoin coin).inMapForm).length =
      base + Cbor.Encoder.headLength coin.toNat := by
  obtain ⟨valueBase, value⟩ := Value.exists_length_encode output.amount.assets
  obtain ⟨base, length⟩ := output.exists_length_encode_inMapForm
  refine ⟨base + valueBase, fun coin => ?_⟩
  rw [withCoin, length, value, Nat.add_assoc]

/-! ## Filled coin -/

/-- The least coin of outputs that differ in their coin is a price for their length. -/
theorem exists_minCoin_withCoin (output : TransactionOutput) (parameters : ProtocolParameters) :
    ∃ base, ∀ coin, ((output.withCoin coin).minCoin parameters).toNat =
      min ((base + Cbor.Encoder.headLength (if coin = 0 then assumedCoin else coin).toNat) *
        parameters.coinsPerUtxoByte.toNat) wordMax := by
  obtain ⟨base, length⟩ := output.exists_length_encode
  refine ⟨160 + base, fun coin => ?_⟩
  have charged : (output.withCoin coin).charged =
      (output.withCoin (if coin = 0 then assumedCoin else coin)).inMapForm := rfl
  rw [minCoin, charged, UInt64.toNat_saturate, length, Nat.add_assoc]

/-- A price for a length that the paid word is a part of, with four bytes assumed for it. -/
theorem price_le_iff {base price paid : Nat}
    (assumed : paid = min ((base + 5) * price) wordMax) :
    min ((base + Cbor.Encoder.headLength paid) * price) wordMax ≤ paid ↔
      ¬ (bound32 ≤ paid ∧ paid < wordMax) := by
  by_cases narrow : paid < bound32
  · have short : Cbor.Encoder.headLength paid ≤ 5 :=
      Cbor.Encoder.headLength_mono (Nat.le_of_lt_succ narrow)
    have least := Nat.mul_le_mul_right price (Nat.add_le_add_left short base)
    exact iff_of_true (by omega) (by omega)
  · have long := Cbor.Encoder.headLength_of_ge (Nat.not_lt.1 narrow)
    have dearer : (base + 9) * price = (base + 5) * price + 4 * price :=
      Nat.add_mul (base + 5) 4 price
    have priced : price ≠ 0 := by
      rintro rfl
      unfold bound32 at narrow
      omega
    rw [long, dearer]
    omega

/-- The coin of an output is filled in from an assumed one that takes four bytes. -/
theorem meetsMinimum_filled_iff {output : TransactionOutput} {parameters : ProtocolParameters}
    (coinless : output.amount.coin = 0) :
    (output.filled parameters).MeetsMinimum parameters ↔
      ¬ (bound32 ≤ (output.minCoin parameters).toNat ∧
        (output.minCoin parameters).toNat < wordMax) := by
  obtain ⟨base, least⟩ := output.exists_minCoin_withCoin parameters
  have filled : output.filled parameters = output.withCoin (output.minCoin parameters) := by
    rw [TransactionOutput.filled, if_pos coinless, withCoin]
  have before : output.withCoin 0 = output := by rw [withCoin, ← coinless]
  have assumed := least 0
  rw [before, if_pos rfl] at assumed
  rw [MeetsMinimum, UInt64.le_iff_toNat_le, filled, least]
  by_cases free : output.minCoin parameters = 0
  · rw [if_pos free, ← assumed, free]
    exact iff_of_true (Nat.le_refl 0) (by decide)
  · rw [if_neg free]
    exact price_le_iff assumed

end TransactionOutput

/-! ## Outputs of a build -/

namespace Draft

/-- The ways in which an output of a build comes by less coin than it needs. -/
inductive LacksCoin (draft : Draft) (plan : Plan) (inputs : List Utxo) (fee : UInt64) :
    TransactionOutput → Prop where
  /-- Coin is filled in that takes more bytes than the assumed coin. -/
  | filled {given : TransactionOutput} (member : given ∈ draft.outputs)
      (coinless : given.amount.coin = 0)
      (wide : bound32 ≤ (given.minCoin plan.parameters).toNat)
      (exact : (given.minCoin plan.parameters).toNat < wordMax) :
      LacksCoin draft plan inputs fee (given.filled plan.parameters)
  /-- Change is merged into the first output at its address, which then needs more coin than both
  bring. -/
  | merged {address : Address} {change : Value} {output : TransactionOutput}
      (addressed : plan.changeAddress = some address) (merges : plan.mergesChange = true)
      (left : changeOf (plan.provided inputs)
        { plan.requested with coin := plan.requested.coin.saturatingAdd fee } = .ok change)
      (finding : plan.draft.outputs.find? (fun output => decide (output.address = address)) =
        some output)
      (short : output.amount.coin.toNat + change.coin.toNat <
        (TransactionOutput.minCoin { output with amount := output.amount + change }
          plan.parameters).toNat) :
      LacksCoin draft plan inputs fee { output with amount := output.amount + change }

section

variable {draft : Draft} {context : ChainContext} {selectors : List Selector}
  {changeAddress : Option Address} {plan : Plan} {inputs : List Utxo} {balance : Plan.Balance}
  {result : Result} {fee : UInt64} {output : TransactionOutput}

theorem LacksCoin.not_meetsMinimum (lacks : draft.LacksCoin plan inputs fee output) :
    ¬ output.MeetsMinimum plan.parameters := by
  cases lacks with
  | filled member coinless wide exact =>
      exact fun meets =>
        (TransactionOutput.meetsMinimum_filled_iff coinless).1 meets ⟨wide, exact⟩
  | @merged address change output addressed merges left finding short =>
      have sum : (output.amount + change).coin.toNat =
          min (output.amount.coin.toNat + change.coin.toNat) wordMax :=
        UInt64.toNat_saturatingAdd _ _
      rw [TransactionOutput.MeetsMinimum, UInt64.le_iff_toNat_le]
      simp only
      omega

/-- A sum of coin that stops at the largest word is always enough, so below the minimum the coin is
the exact sum. -/
theorem lacksCoin_of_merged {address : Address} {change : Value}
    (addressed : plan.changeAddress = some address) (merges : plan.mergesChange = true)
    (left : changeOf (plan.provided inputs)
      { plan.requested with coin := plan.requested.coin.saturatingAdd fee } = .ok change)
    (finding : plan.draft.outputs.find? (fun output => decide (output.address = address)) =
      some output)
    (below : ¬ TransactionOutput.MeetsMinimum { output with amount := output.amount + change }
      plan.parameters) :
    draft.LacksCoin plan inputs fee { output with amount := output.amount + change } := by
  have sum : (output.amount + change).coin.toNat =
      min (output.amount.coin.toNat + change.coin.toNat) wordMax :=
    UInt64.toNat_saturatingAdd _ _
  refine .merged addressed merges left finding ?_
  have most : (TransactionOutput.minCoin { output with amount := output.amount + change }
      plan.parameters).toNat ≤ wordMax := Nat.le_of_lt_succ (UInt64.toNat_lt _)
  rw [TransactionOutput.MeetsMinimum, UInt64.le_iff_toNat_le] at below
  simp only at below
  omega

/-- The outputs of a prepared draft carry enough unless too little is filled in. -/
theorem lacksCoin_of_prepared
    (run : draft.Run context selectors changeAddress plan inputs balance result)
    (member : output ∈ plan.draft.outputs) (below : ¬ output.MeetsMinimum plan.parameters) :
    draft.LacksCoin plan inputs fee output := by
  obtain ⟨_, _, _, _, _, outputs, filling, made⟩ := prepare_eq_ok run.prepared
  obtain ⟨filled, enough⟩ := fillOutputs_eq_ok filling
  have same : plan.draft.outputs = draft.outputs.map (·.filled plan.parameters) := by
    rw [made, ← filled]
  rw [same] at member
  obtain ⟨given, inside, rfl⟩ := List.mem_map.1 member
  by_cases coinless : given.amount.coin = 0
  · rw [TransactionOutput.meetsMinimum_filled_iff coinless, not_not] at below
    exact .filled inside coinless below.1 below.2
  · rw [TransactionOutput.filled_of_coin coinless] at below
    exact absurd ((enough given inside).resolve_left coinless) below

/-- An output of a balance carries enough unless it lacks coin in one of the two ways. -/
theorem lacksCoin_of_balance
    (run : draft.Run context selectors changeAddress plan inputs balance result)
    (member : output ∈ balance.outputs) (below : ¬ output.MeetsMinimum plan.parameters) :
    draft.LacksCoin plan inputs balance.fee output := by
  cases addressed : plan.changeAddress with
  | none =>
      have balanced := run.balanced
      rw [Plan.result_balance_of_none inputs addressed] at balanced
      obtain ⟨fee, _, rfl⟩ := Except.map_eq_ok.1 balanced
      exact lacksCoin_of_prepared run member below
  | some address =>
      obtain ⟨change, left, placed⟩ :=
        Except.bind_eq_ok.1 (Plan.outputsAt_of_balance addressed run.balanced)
      generalize balance.outputs = outputs at member placed
      cases Plan.placeChange_eq_ok placed with
      | nowhere nothing => exact lacksCoin_of_prepared run member below
      | @merged before after first merges finding split =>
          rcases List.mem_append.1 member with earlier | here
          · exact lacksCoin_of_prepared run (split ▸ List.mem_append_left _ earlier) below
          · rcases List.mem_cons.1 here with rfl | later
            · exact lacksCoin_of_merged addressed merges left finding below
            · have kept : output ∈ plan.draft.outputs :=
                split ▸ List.mem_append_right _ (List.mem_cons_of_mem _ later)
              exact lacksCoin_of_prepared run kept below
      | added enough =>
          rcases List.mem_append.1 member with earlier | last
          · exact lacksCoin_of_prepared run earlier below
          · rw [List.mem_singleton.1 last] at below
            exact absurd enough below

end

/-- The outputs of a built transaction carry the least coin they need, except for those that lack
coin in one of two ways. -/
theorem build_meets_minimum_iff {draft : Draft} {context : ChainContext}
    {selectors : List Selector} {changeAddress : Option Address} {result : Result}
    (built : (draft.build context selectors changeAddress).result = .ok result) :
    ∃ plan inputs balance,
      draft.Run context selectors changeAddress plan inputs balance result ∧
      ∀ output ∈ result.built.body.outputs, output.MeetsMinimum plan.parameters ↔
        ¬ draft.LacksCoin plan inputs result.built.body.fee output := by
  obtain ⟨plan, inputs, balance, run⟩ := exists_run built
  have body := (Plan.finish_eq_ok run.finished).1
  refine ⟨plan, inputs, balance, run, ?_⟩
  rw [body]
  intro output member
  constructor
  · exact fun meets lacks => lacks.not_meetsMinimum meets
  · intro supplied
    by_contra below
    exact supplied (lacksCoin_of_balance run member below)

/-! ### Tokens that are merged into an output -/

/-- Spends tokens and pays the change address, so that the tokens join the output that is there. -/
def Sample.merging (coin : UInt64) : Draft :=
  { (empty.addInput (utxo coin 5)).addOutput (.plain (address 7) (.ofCoin 900000)) with
    options := { BuildOptions.preset with mergeChange := true } }

/-- Enough coin comes with the tokens. -/
theorem build_meets_minimum_merged :
    ∃ plan inputs balance result,
      ((Sample.merging 3000000).build Sample.context [] (some (Sample.address 7))).result =
        .ok result ∧
      (Sample.merging 3000000).Run Sample.context [] (some (Sample.address 7)) plan inputs balance
        result ∧
      ∀ output ∈ result.built.body.outputs,
        ¬ (Sample.merging 3000000).LacksCoin plan inputs result.built.body.fee output := by
  have succeeds : ((Sample.merging 3000000).build Sample.context []
      (some (Sample.address 7))).result.toOption.map (fun result =>
        result.built.body.outputs.all fun output =>
          output.minCoin .preset ≤ output.amount.coin) = some true := by decide +kernel
  cases built : ((Sample.merging 3000000).build Sample.context []
      (some (Sample.address 7))).result with
  | error error => simp [built, Except.toOption] at succeeds
  | ok result =>
      have meets : ∀ output ∈ result.built.body.outputs, output.MeetsMinimum .preset := by
        simpa [built, Except.toOption, TransactionOutput.MeetsMinimum] using succeeds
      obtain ⟨plan, inputs, balance, run, iff⟩ := build_meets_minimum_iff built
      have parameters : plan.parameters = .preset := (Except.ok.inj run.parameters).symm
      refine ⟨plan, inputs, balance, result, rfl, run, fun output member => ?_⟩
      exact (iff output member).1 (parameters ▸ meets output member)

/-- The tokens make the output longer than its coin pays for. -/
theorem build_misses_minimum_merged :
    ∃ result,
      ((Sample.merging 1070000).build Sample.context [] (some (Sample.address 7))).result =
        .ok result ∧
      ∃ output ∈ result.built.body.outputs,
        output.amount.coin < output.minCoin .preset := by
  have succeeds : ((Sample.merging 1070000).build Sample.context []
      (some (Sample.address 7))).result.toOption.map (fun result =>
        result.built.body.outputs.any fun output =>
          output.amount.coin < output.minCoin .preset) = some true := by decide +kernel
  cases built : ((Sample.merging 1070000).build Sample.context []
      (some (Sample.address 7))).result with
  | error error => simp [built, Except.toOption] at succeeds
  | ok result =>
      have short : ∃ output ∈ result.built.body.outputs,
          output.amount.coin < output.minCoin .preset := by
        simpa [built, Except.toOption] using succeeds
      exact ⟨result, rfl, short⟩

end Draft

end UtxoLedger
