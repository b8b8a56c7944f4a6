import Mathlib.Data.UInt
import UtxoLedger.Proofs.Build.Conservation
import UtxoLedger.Proofs.Selection.Coverage

/-!
# The funding check and the balance

Before a draft is balanced, a check asks whether its inputs suffice, and a
selection fills up what they lack. What passes the check covers all that is
asked for with the fee that the check assumes. That fee leaves out the change
output and the inputs still to be selected, so the balance may need more: it
succeeds exactly when every fee that it tries leaves room for its change.
-/

namespace UtxoLedger

/-- The inputs do not reach for the outputs and the fee, or for the change. -/
def BuildError.IsShortfall : BuildError → Prop
  | insufficientFunds _ => True
  | insufficientChange _ _ => True
  | _ => False

namespace Plan

section

variable {plan : Plan} {context : ChainContext} {selected inputs : List Utxo} {address : Address}

/-! ## What is checked -/

/-- The fee that the check assumes. -/
def checkedFee (plan : Plan) : UInt64 := (plan.firstEstimate plan.draft.inputs).2

/-- Further inputs add what they hold. -/
theorem coinIn_append (plan : Plan) (given selected : List Utxo) :
    plan.coinIn (given ++ selected) = plan.coinIn given + Utxo.coinHeld selected := by
  have held := Utxo.coinHeld_append given selected
  unfold Utxo.coinHeld at held
  unfold coinIn Utxo.coinHeld
  omega

theorem assetIn_append (plan : Plan) (given selected : List Utxo) (asset : Asset) :
    plan.assetIn (given ++ selected) asset =
      plan.assetIn given asset + Utxo.assetHeld selected asset := by
  have held := Utxo.assetHeld_append given selected asset
  unfold Utxo.assetHeld at held
  unfold assetIn Utxo.assetHeld
  omega

theorem coinIn_perm (plan : Plan) {first second : List Utxo} (same : first.Perm second) :
    plan.coinIn first = plan.coinIn second := by
  have held := Utxo.coinHeld_perm same
  unfold Utxo.coinHeld at held
  unfold coinIn
  rw [held]

theorem assetIn_perm (plan : Plan) {first second : List Utxo} (same : first.Perm second)
    (asset : Asset) : plan.assetIn first asset = plan.assetIn second asset := by
  have held := Utxo.assetHeld_perm same asset
  unfold Utxo.assetHeld at held
  unfold assetIn
  rw [held]

/-- No sum of the check leaves its range. -/
structure CheckFits (plan : Plan) : Prop where
  provided : plan.SumsInFit plan.draft.inputs
  requested : plan.SumsOutFit
  fee : plan.coinOut + plan.checkedFee.toNat < bound64
  lacking : ∀ asset, IsSigned (plan.assetOut asset - plan.assetIn plan.draft.inputs asset)

/-- What is provided of the assets that are asked for, and all the coin. -/
def wanted (plan : Plan) : Value :=
  (plan.provided plan.draft.inputs).filter fun asset _ => plan.requested.assets.get asset ≠ 0

/-- The coin to select makes up for what is missing. -/
theorem le_coinToSelect {missing : Int} (leastChange : UInt64) (fits : missing ≤ wordMax) :
    missing ≤ (coinToSelect missing leastChange).toNat := by
  unfold wordMax bound64 at fits
  unfold coinToSelect
  by_cases surplus : missing < 0
  · omega
  · simp only [if_neg surplus, UInt64.toNat_ofNat']
    omega

/-- What is not covered makes up for the coin that is missing. -/
theorem coin_unfulfilled (fits : plan.CheckFits) :
    plan.coinOut + plan.checkedFee.toNat ≤
      plan.coinIn plan.draft.inputs + (plan.unfulfilled plan.draft.inputs).coin.toNat := by
  have provided := coin_provided fits.provided
  have sum : (plan.requested.coin + plan.checkedFee).toNat =
      plan.coinOut + plan.checkedFee.toNat := by
    have requested := coin_requested fits.requested
    have bound := fits.fee
    rw [toNat_add_of_lt, requested]
    omega
  have bound := fits.fee
  unfold bound64 at bound
  have enough := @le_coinToSelect
    ((plan.requested.coin + plan.checkedFee).toNat - (plan.provided plan.draft.inputs).coin.toNat)
    (plan.leastChange (plan.provided plan.draft.inputs - plan.wanted))
    (by rw [sum]; unfold wordMax bound64; omega)
  rw [sum, provided] at enough
  have coin : (plan.unfulfilled plan.draft.inputs).coin = coinToSelect
      ((plan.requested.coin + plan.checkedFee).toNat -
        (plan.provided plan.draft.inputs).coin.toNat)
      (plan.leastChange (plan.provided plan.draft.inputs - plan.wanted)) := rfl
  rw [coin, sum, provided]
  omega

theorem quantity_wanted (fits : plan.CheckFits) (asset : Asset) :
    plan.wanted.quantity asset =
      if plan.assetOut asset = 0 then 0 else plan.assetIn plan.draft.inputs asset := by
  have provided := quantity_provided fits.provided asset
  have zero : plan.requested.assets.get asset = 0 ↔ plan.assetOut asset = 0 := by
    rw [← quantity_requested fits.requested asset]
    exact Int64.toInt_inj.symm
  rw [wanted, Value.quantity_filter, provided]
  by_cases nothing : plan.assetOut asset = 0
  · have absent := zero.2 nothing
    simp [nothing, absent]
  · have present := mt zero.1 nothing
    simp [nothing, present]

theorem assets_of_unfulfilled (plan : Plan) :
    (plan.unfulfilled plan.draft.inputs).assets =
      (plan.requested.assets - plan.wanted.assets).positive := by
  simp only [unfulfilled, wanted]

/-- What is not covered of an asset. -/
theorem quantity_unfulfilled (fits : plan.CheckFits)
    (all : Utxo.Nonnegative plan.draft.inputs) (asset : Asset) :
    (plan.unfulfilled plan.draft.inputs).quantity asset =
      max (plan.assetOut asset - plan.wanted.quantity asset) 0 := by
  have least : signedMin < 0 := by decide
  have requested : plan.requested.assets.quantity asset = plan.assetOut asset :=
    quantity_requested fits.requested asset
  have wanted : plan.wanted.assets.quantity asset =
      if plan.assetOut asset = 0 then 0 else plan.assetIn plan.draft.inputs asset :=
    quantity_wanted fits asset
  have held : 0 ≤ plan.assetIn plan.draft.inputs asset := by
    have given := Utxo.assetHeld_nonneg all asset
    unfold Utxo.assetHeld at given
    unfold assetIn
    omega
  have difference : (plan.requested.assets - plan.wanted.assets).quantity asset =
      plan.assetOut asset - plan.wanted.quantity asset := by
    rw [MultiAsset.quantity_sub, requested]
    · rfl
    · rw [wanted]
      split <;> omega
    · rw [requested, wanted]
      split
      next nothing =>
        rw [nothing]
        exact ⟨by decide, by decide⟩
      next => exact fits.lacking asset
  rw [Value.quantity, assets_of_unfulfilled, MultiAsset.quantity_positive, difference]

/-- What is not covered makes up for the assets that are missing. -/
theorem assets_unfulfilled (fits : plan.CheckFits)
    (all : Utxo.Nonnegative plan.draft.inputs) (asset : Asset) :
    plan.assetOut asset ≤ plan.assetIn plan.draft.inputs asset +
      (plan.unfulfilled plan.draft.inputs).quantity asset := by
  have held : 0 ≤ plan.assetIn plan.draft.inputs asset := by
    have given := Utxo.assetHeld_nonneg all asset
    unfold Utxo.assetHeld at given
    unfold assetIn
    omega
  rw [quantity_unfulfilled fits all, quantity_wanted fits]
  split <;> omega

/-! ## What passes the check -/

/-- The request asks for what is not covered. -/
theorem total_request (plan : Plan) (address : Address) (unfulfilled : Value) :
    ((plan.request address unfulfilled).total plan.parameters).coin = unfulfilled.coin ∧
      ∀ asset, ((plan.request address unfulfilled).total plan.parameters).quantity asset =
        unfulfilled.quantity asset := by
  change (Value.zero + unfulfilled).coin = _ ∧ ∀ asset, (Value.zero + unfulfilled).quantity asset = _
  constructor
  · exact UInt64.zero_saturatingAdd _
  · intro asset
    change ((MultiAsset.empty + unfulfilled.assets).get asset).toInt = _
    rw [MultiAsset.get_plus, MultiAsset.get_empty, Int64.zero_saturatingAdd]
    rfl

/-- What is selected covers what the inputs of the draft do not. -/
theorem Selects.covers (selects : plan.Selects context selected) :
    (plan.unfulfilled plan.draft.inputs).coin.toNat ≤ Utxo.coinHeld selected ∧
      (Utxo.Nonnegative selected → ∀ asset,
        (plan.unfulfilled plan.draft.inputs).quantity asset ≤ Utxo.assetHeld selected asset) := by
  cases selects with
  | nothing fulfilled =>
      have empty : (plan.unfulfilled plan.draft.inputs).coin = 0 ∧
          (plan.unfulfilled plan.draft.inputs).assets.isEmpty = true := by
        simpa [Value.isZero] using fulfilled
      rw [empty.1]
      refine ⟨Nat.zero_le _, fun _ asset => ?_⟩
      exact Int.le_of_eq ((MultiAsset.isEmpty_iff_quantity _).1 empty.2 asset)
  | selection _ _ answer =>
      have cover := Selector.select_covers answer
      obtain ⟨coin, quantity⟩ := total_request plan _ (plan.unfulfilled plan.draft.inputs)
      refine ⟨coin ▸ cover.coin, fun all asset => ?_⟩
      rw [← quantity]
      exact cover.assets all asset

/-- The inputs that pass the check cover what is asked for with the fee of the check, and all
assets when none of them is negative. -/
theorem Selects.suffices (selects : plan.Selects context selected) (fits : plan.CheckFits)
    (distinct : (plan.draft.inputs.map (·.input)).Nodup) :
    plan.coinOut + plan.checkedFee.toNat ≤
        plan.coinIn (distinctInputs (plan.draft.inputs ++ selected)) ∧
      (Utxo.Nonnegative (plan.draft.inputs ++ selected) → ∀ asset, plan.assetOut asset ≤
        plan.assetIn (distinctInputs (plan.draft.inputs ++ selected)) asset) := by
  have same := distinctInputs_perm (selects.nodup distinct)
  obtain ⟨coin, assets⟩ := selects.covers
  constructor
  · have checked := coin_unfulfilled fits
    rw [coinIn_perm plan same, coinIn_append]
    omega
  · intro all asset
    have checked := assets_unfulfilled fits all.of_append_left asset
    have held := assets all.of_append_right asset
    rw [assetIn_perm plan same, assetIn_append]
    omega

/-! ## What the balance tries -/

/-- The fees for which the balance makes outputs: the estimates up to the last pass, and the
larger of the last two. -/
inductive Tries (plan : Plan) (inputs : List Utxo) (address : Address) : UInt64 → Prop where
  | pass {count : Nat} {fee : UInt64} (early : count ≤ laterPasses)
      (estimated : plan.passEstimate inputs address count = .ok fee) : Tries plan inputs address fee
  | last {before next : UInt64} (estimated : plan.passEstimate inputs address laterPasses = .ok before)
      (again : plan.passEstimate inputs address (laterPasses + 1) = .ok next) :
      Tries plan inputs address (max next before)

/-- The outputs with the change are made when a fee is paid. -/
def Places (plan : Plan) (inputs : List Utxo) (address : Address) (fee : UInt64) : Prop :=
  ∃ outputs, plan.outputsAt inputs address fee = .ok outputs

theorem passEstimate_succ_of_places {count : Nat} {fee : UInt64}
    (estimated : plan.passEstimate inputs address count = .ok fee)
    (places : plan.Places inputs address fee) :
    ∃ next, plan.passEstimate inputs address (count + 1) = .ok next := by
  obtain ⟨outputs, made⟩ := places
  refine ⟨(plan.draft.estimate plan.parameters inputs outputs fee).2, ?_⟩
  rw [passEstimate_succ, estimated]
  exact reestimate_of_outputsAt made

theorem places_of_passEstimate_succ {count : Nat} {next : UInt64}
    (estimated : plan.passEstimate inputs address (count + 1) = .ok next) :
    ∃ fee, plan.passEstimate inputs address count = .ok fee ∧ plan.Places inputs address fee := by
  rw [passEstimate_succ] at estimated
  obtain ⟨fee, before, again⟩ := Except.bind_eq_ok.1 estimated
  obtain ⟨outputs, made, _⟩ := Except.map_eq_ok.1 again
  exact ⟨fee, before, outputs, made⟩

/-- A pass is reached when the passes before it make their outputs. -/
theorem exists_passEstimate {count : Nat}
    (places : ∀ earlier < count, ∀ fee, plan.passEstimate inputs address earlier = .ok fee →
      plan.Places inputs address fee) :
    ∃ fee, plan.passEstimate inputs address count = .ok fee := by
  induction count with
  | zero => exact ⟨_, rfl⟩
  | succ count ih =>
      obtain ⟨fee, estimated⟩ := ih fun earlier before =>
        places earlier (Nat.lt_succ_of_lt before)
      exact passEstimate_succ_of_places estimated
        (places count (Nat.lt_succ_self count) fee estimated)

/-- The passes before one that is reached make their outputs. -/
theorem places_of_lt {count earlier : Nat} {last fee : UInt64}
    (reached : plan.passEstimate inputs address count = .ok last) (before : earlier < count)
    (estimated : plan.passEstimate inputs address earlier = .ok fee) :
    plan.Places inputs address fee := by
  induction count generalizing last with
  | zero => exact absurd before (Nat.not_lt_zero _)
  | succ count ih =>
      obtain ⟨previous, there, places⟩ := places_of_passEstimate_succ reached
      rcases Nat.lt_succ_iff_lt_or_eq.1 before with sooner | rfl
      · exact ih there sooner
      · obtain rfl : previous = fee := Except.ok.inj (there.symm.trans estimated)
        exact places

/-- A balance is found when the outputs are made for every fee that is tried. -/
theorem balance_isOk_iff (addressed : plan.changeAddress = some address) :
    (∃ balance, (plan.balance inputs).result = .ok balance) ↔
      ∀ fee, plan.Tries inputs address fee → plan.Places inputs address fee := by
  rw [result_balance_of_address inputs addressed]
  constructor
  · rintro ⟨balance, balanced⟩ fee tries
    obtain ⟨before, fourth, settled⟩ := Except.bind_eq_ok.1 balanced
    obtain ⟨next, again, final⟩ := Except.bind_eq_ok.1 settled
    obtain ⟨outputs, made, _⟩ := Except.map_eq_ok.1 final
    have fifth : plan.passEstimate inputs address (laterPasses + 1) = .ok next := by
      rw [passEstimate_succ, fourth]
      exact again
    cases tries with
    | pass early estimated => exact places_of_lt fifth (Nat.lt_succ_of_le early) estimated
    | last estimated another =>
        obtain rfl := Except.ok.inj (estimated.symm.trans fourth)
        obtain rfl := Except.ok.inj (another.symm.trans fifth)
        exact ⟨outputs, made⟩
  · intro places
    obtain ⟨before, fourth⟩ := exists_passEstimate fun earlier sooner fee estimated =>
      places fee (.pass (Nat.le_of_lt sooner) estimated)
    obtain ⟨next, fifth⟩ := passEstimate_succ_of_places fourth
      (places before (.pass (Nat.le_refl _) fourth))
    obtain ⟨outputs, made⟩ := places _ (.last fourth fifth)
    rw [passEstimate_succ, fourth] at fifth
    have again : plan.reestimate inputs address before = .ok next := fifth
    exact ⟨⟨outputs, max next before⟩, by
      simp only [fourth, Except.bind, settle, again, made, Except.map]⟩

/-! ## Room for the change -/

/-- What a fee leaves of the inputs. -/
def surplus (plan : Plan) (inputs : List Utxo) (fee : UInt64) : Value :=
  ⟨(plan.provided inputs).coin - plan.requested.coin.saturatingAdd fee,
    (plan.provided inputs).assets - plan.requested.assets⟩

/-- A fee leaves nothing at all, or at least the coin that an output with the change needs. -/
structure LeavesRoom (plan : Plan) (inputs : List Utxo) (address : Address) (fee : UInt64) :
    Prop where
  coin : plan.coinOut + fee.toNat ≤ plan.coinIn inputs
  change : (plan.coinOut + fee.toNat = plan.coinIn inputs ∧
      ∀ asset, plan.assetOut asset = plan.assetIn inputs asset) ∨
    plan.coinOut + fee.toNat +
        ((TransactionOutput.plain address (plan.surplus inputs fee)).minCoin
          plan.parameters).toNat ≤
      plan.coinIn inputs

/-- No sum of the balance leaves its range, whichever fee is tried. -/
structure BalanceFits (plan : Plan) (inputs : List Utxo) (address : Address) : Prop where
  provided : plan.SumsInFit inputs
  requested : plan.SumsOutFit
  difference : ∀ asset, IsSigned (plan.assetIn inputs asset - plan.assetOut asset)
  fees : ∀ fee, plan.Tries inputs address fee → plan.coinOut + fee.toNat < bound64

theorem BalanceFits.quantity_surplus (fits : plan.BalanceFits inputs address) (fee : UInt64)
    (asset : Asset) : (plan.surplus inputs fee).quantity asset =
      plan.assetIn inputs asset - plan.assetOut asset := by
  have provided : (plan.provided inputs).assets.quantity asset = plan.assetIn inputs asset :=
    quantity_provided fits.provided asset
  have requested : plan.requested.assets.quantity asset = plan.assetOut asset :=
    quantity_requested fits.requested asset
  rw [Value.quantity, surplus, MultiAsset.quantity_sub, provided, requested]
  · exact requested ▸ fits.requested.total asset
  · rw [provided, requested]
    exact fits.difference asset

theorem placeChange_isOk_iff {change : Value} (separate : plan.mergesChange = false) :
    (∃ outputs, plan.placeChange address change = .ok outputs) ↔
      change.isZero = true ∨
        (TransactionOutput.plain address change).minCoin plan.parameters ≤ change.coin := by
  unfold placeChange
  by_cases nothing : change.isZero = true
  · simp [nothing]
  · by_cases short :
        change.coin < (TransactionOutput.plain address change).minCoin plan.parameters
    · simp [nothing, separate, short, UInt64.not_le.2 short]
    · simp [nothing, separate, short, UInt64.not_lt.1 short]

/-- The outputs are made when nothing of the surplus is below zero and it can be placed. -/
theorem places_iff_placeChange {fee : UInt64} :
    plan.Places inputs address fee ↔
      (plan.requested.coin.saturatingAdd fee).toNat ≤ (plan.provided inputs).coin.toNat ∧
      (∀ asset, 0 ≤ (plan.surplus inputs fee).quantity asset) ∧
      ∃ outputs, plan.placeChange address (plan.surplus inputs fee) = .ok outputs := by
  unfold Places outputsAt
  constructor
  · rintro ⟨outputs, made⟩
    obtain ⟨change, left, placed⟩ := Except.bind_eq_ok.1 made
    obtain ⟨enough, nonnegative, rfl⟩ := changeOf_eq_ok_iff.1 left
    exact ⟨enough, nonnegative, outputs, placed⟩
  · rintro ⟨enough, nonnegative, outputs, placed⟩
    exact ⟨outputs, Except.bind_eq_ok.2
      ⟨_, changeOf_eq_ok_iff.2 ⟨enough, nonnegative, rfl⟩, placed⟩⟩

namespace BalanceFits

variable {fee : UInt64}

theorem toNat_requested (fits : plan.BalanceFits inputs address)
    (tries : plan.Tries inputs address fee) :
    (plan.requested.coin.saturatingAdd fee).toNat = plan.coinOut + fee.toNat := by
  have requested := coin_requested fits.requested
  have bound := fits.fees fee tries
  rw [toNat_saturatingAdd_of_lt, requested]
  omega

theorem coin_surplus (fits : plan.BalanceFits inputs address)
    (tries : plan.Tries inputs address fee)
    (enough : plan.coinOut + fee.toNat ≤ plan.coinIn inputs) :
    (plan.surplus inputs fee).coin.toNat = plan.coinIn inputs - (plan.coinOut + fee.toNat) := by
  have provided := coin_provided fits.provided
  have asked := fits.toNat_requested tries
  rw [surplus, UInt64.toNat_sub_of_le, provided, asked]
  rw [UInt64.le_iff_toNat_le, provided, asked]
  exact enough

/-- There is no surplus when all that flows in is asked for. -/
theorem isZero_surplus_iff (fits : plan.BalanceFits inputs address) :
    (plan.surplus inputs fee).isZero = true ↔
      (plan.surplus inputs fee).coin = 0 ∧
        ∀ asset, plan.assetOut asset = plan.assetIn inputs asset := by
  have empty : (plan.surplus inputs fee).assets.isEmpty = true ↔
      ∀ asset, plan.assetOut asset = plan.assetIn inputs asset := by
    rw [MultiAsset.isEmpty_iff_quantity]
    refine forall_congr' fun asset => ?_
    have held := fits.quantity_surplus fee asset
    unfold Value.quantity at held
    omega
  rw [Value.isZero, Bool.and_eq_true, decide_eq_true_eq, empty]

end BalanceFits

/-- The outputs are made when the assets are covered and the fee leaves room for the change. -/
theorem places_iff (fits : plan.BalanceFits inputs address) (separate : plan.mergesChange = false)
    {fee : UInt64} (tries : plan.Tries inputs address fee) :
    plan.Places inputs address fee ↔
      (∀ asset, plan.assetOut asset ≤ plan.assetIn inputs asset) ∧
        plan.LeavesRoom inputs address fee := by
  have covered : (∀ asset, 0 ≤ (plan.surplus inputs fee).quantity asset) ↔
      ∀ asset, plan.assetOut asset ≤ plan.assetIn inputs asset := by
    refine forall_congr' fun asset => ?_
    rw [fits.quantity_surplus]
    omega
  rw [places_iff_placeChange, covered, placeChange_isOk_iff separate, fits.toNat_requested tries,
    coin_provided fits.provided, fits.isZero_surplus_iff, UInt64.le_iff_toNat_le,
    ← UInt64.toNat_inj, UInt64.toNat_zero]
  constructor
  · rintro ⟨enough, assets, ⟨zero, same⟩ | room⟩
    · have coin := fits.coin_surplus tries enough
      exact ⟨assets, enough, .inl ⟨by omega, same⟩⟩
    · have coin := fits.coin_surplus tries enough
      exact ⟨assets, enough, .inr (by omega)⟩
  · rintro ⟨assets, enough, ⟨zero, same⟩ | room⟩
    · have coin := fits.coin_surplus tries enough
      exact ⟨enough, assets, .inl ⟨by omega, same⟩⟩
    · have coin := fits.coin_surplus tries enough
      exact ⟨enough, assets, .inr (by omega)⟩

/-! ## Agreement -/

theorem isShortfall_of_outputsAt {fee : UInt64} {error : BuildError}
    (failed : plan.outputsAt inputs address fee = .error error) : error.IsShortfall := by
  unfold outputsAt at failed
  cases left : changeOf (plan.provided inputs)
      { plan.requested with coin := plan.requested.coin.saturatingAdd fee } with
  | error shortage =>
      simp only [left, Except.bind, Except.error.injEq] at failed
      subst failed
      unfold changeOf at left
      split at left
      · obtain rfl := Except.error.inj left
        trivial
      · simp only at left
        split at left
        · cases left
        · obtain rfl := Except.error.inj left
          trivial
  | ok change =>
      simp only [left, Except.bind] at failed
      unfold placeChange at failed
      simp only at failed
      split at failed
      · cases failed
      · split at failed
        · cases failed
        · split at failed
          · obtain rfl := Except.error.inj failed
            trivial
          · cases failed

theorem isShortfall_of_reestimate {fee : UInt64} {error : BuildError}
    (failed : plan.reestimate inputs address fee = .error error) : error.IsShortfall := by
  unfold reestimate at failed
  cases made : plan.outputsAt inputs address fee with
  | error shortage =>
      simp only [made, Except.map, Except.error.injEq] at failed
      exact failed ▸ isShortfall_of_outputsAt made
  | ok outputs => simp [made, Except.map] at failed

theorem isShortfall_of_passEstimate {count : Nat} {error : BuildError}
    (failed : plan.passEstimate inputs address count = .error error) : error.IsShortfall := by
  induction count with
  | zero => cases failed
  | succ count ih =>
      rw [passEstimate_succ] at failed
      cases before : plan.passEstimate inputs address count with
      | error shortage =>
          simp only [before, Except.bind, Except.error.injEq] at failed
          exact ih (failed ▸ before)
      | ok fee =>
          simp only [before, Except.bind] at failed
          exact isShortfall_of_reestimate failed

/-- Balancing with a change address fails for lack of funds alone. -/
theorem isShortfall_of_balance {error : BuildError} (addressed : plan.changeAddress = some address)
    (failed : (plan.balance inputs).result = .error error) : error.IsShortfall := by
  rw [result_balance_of_address inputs addressed] at failed
  cases before : plan.passEstimate inputs address laterPasses with
  | error shortage =>
      simp only [before, Except.bind, Except.error.injEq] at failed
      exact failed ▸ isShortfall_of_passEstimate before
  | ok last =>
      simp only [before, Except.bind, settle] at failed
      cases again : plan.reestimate inputs address last with
      | error shortage =>
          simp only [again, Except.error.injEq] at failed
          exact failed ▸ isShortfall_of_reestimate again
      | ok next =>
          cases made : plan.outputsAt inputs address (max next last) with
          | error shortage =>
              simp only [again, made, Except.map, Except.error.injEq] at failed
              exact failed ▸ isShortfall_of_outputsAt made
          | ok outputs => simp [again, made, Except.map] at failed

/-- Inputs that pass the check, or that a selection adds to, cover what is asked for with the fee
of the check. The balance then does not fall short exactly when the assets are covered, which
they are when none is held negatively, and every fee that is tried leaves room for its change. -/
theorem balance_agrees_iff (selects : plan.Selects context selected)
    (distinct : (plan.draft.inputs.map (·.input)).Nodup)
    (addressed : plan.changeAddress = some address) (separate : plan.mergesChange = false)
    (checkFits : plan.CheckFits)
    (balanceFits : plan.BalanceFits (distinctInputs (plan.draft.inputs ++ selected)) address) :
    let inputs := distinctInputs (plan.draft.inputs ++ selected)
    plan.coinOut + plan.checkedFee.toNat ≤ plan.coinIn inputs ∧
      (Utxo.Nonnegative (plan.draft.inputs ++ selected) →
        ∀ asset, plan.assetOut asset ≤ plan.assetIn inputs asset) ∧
      ((∀ error, (plan.balance inputs).result = .error error → ¬ error.IsShortfall) ↔
        (∀ asset, plan.assetOut asset ≤ plan.assetIn inputs asset) ∧
          ∀ fee, plan.Tries inputs address fee → plan.LeavesRoom inputs address fee) := by
  intro inputs
  obtain ⟨coin, assets⟩ := selects.suffices checkFits distinct
  refine ⟨coin, assets, ?_⟩
  have succeeds : (∀ error, (plan.balance inputs).result = .error error → ¬ error.IsShortfall) ↔
      ∃ balance, (plan.balance inputs).result = .ok balance := by
    cases balanced : (plan.balance inputs).result with
    | error error =>
        have short := isShortfall_of_balance addressed balanced
        simp [short]
    | ok balance => simp
  rw [succeeds, balance_isOk_iff addressed]
  have first : plan.Tries inputs address (plan.firstEstimate inputs).2 :=
    .pass (Nat.zero_le laterPasses) rfl
  constructor
  · intro places
    exact ⟨((places_iff balanceFits separate first).1 (places _ first)).1, fun fee tries =>
      ((places_iff balanceFits separate tries).1 (places fee tries)).2⟩
  · rintro ⟨covered, rooms⟩ fee tries
    exact (places_iff balanceFits separate tries).2 ⟨covered, rooms fee tries⟩

end

/-! ### A payer without outputs -/

namespace Alone

def address : Address := .shelley ⟨.testnet, .key ⟨.replicate 28 7⟩, .none⟩

def utxo (coin : UInt64) : Utxo := ⟨⟨⟨.replicate 32 5⟩, 0⟩, .plain address (.ofCoin coin)⟩

/-- The chain reports one output. -/
def context : ChainContext := ⟨.ok .preset, .testnet, .ok 0, fun _ => .ok [utxo 8000000]⟩

/-- All that is asked for is a fee; the rest is change. -/
def plan (inputs : List Utxo) : Plan :=
  ⟨{ Draft.empty with inputs := inputs, inputAddresses := [address] }, .preset, some address⟩

theorem sumsInFit : (plan []).SumsInFit [utxo 8000000] where
  coin := by decide
  assets _ := sumsExactly_of_magnitudes (show 0 < bound63 by decide)

theorem sumsInFit_nil : (plan []).SumsInFit [] where
  coin := by decide
  assets _ := sumsExactly_of_magnitudes (show 0 < bound63 by decide)

theorem sumsOutFit : (plan []).SumsOutFit where
  coin := by decide
  assets _ := sumsExactly_of_magnitudes (show 0 < bound63 by decide)
  mint _ := show (0 : Int) ≠ signedMin by decide
  total _ := show (0 : Int) ≠ signedMin by decide

theorem checkFits : (plan []).CheckFits where
  provided := sumsInFit_nil
  requested := sumsOutFit
  fee := by decide +kernel
  lacking _ := isSigned_zero

/-- The fees that are tried are small. -/
theorem balanceFits : (plan []).BalanceFits [utxo 8000000] address where
  provided := sumsInFit
  requested := sumsOutFit
  difference _ := isSigned_zero
  fees fee tries := by
    have small : ∀ count < 5, (((plan []).passEstimate [utxo 8000000] address count).toOption.all
        (· < 1000000)) = true := by decide +kernel
    have bounded {count : Nat} {fee : UInt64} (early : count < 5)
        (estimated : (plan []).passEstimate [utxo 8000000] address count = .ok fee) :
        fee.toNat < 1000000 := by
      have below := small count early
      rw [estimated] at below
      exact UInt64.lt_iff_toNat_lt.1 (of_decide_eq_true below)
    have nothing : (plan []).coinOut = 0 := by decide
    rw [nothing]
    unfold bound64
    cases tries with
    | pass early estimated =>
        have bound := bounded (Nat.lt_of_le_of_lt early (by decide)) estimated
        omega
    | last estimated again =>
        have before := bounded (by decide) estimated
        have next := bounded (by decide) again
        rw [UInt64.toNat_max]
        omega

theorem distinctInputs_utxo (coin : UInt64) : distinctInputs [utxo coin] = [utxo coin] := by
  simp [distinctInputs, Ranked.sort, dropRepeated]

end Alone

/-- The output that the chain reports is selected, and leaves room for the change whatever fee is
tried. -/
theorem balance_agrees_alone :
    (Alone.plan []).coinOut + (Alone.plan []).checkedFee.toNat ≤
        (Alone.plan []).coinIn [Alone.utxo 8000000] ∧
      ∀ fee, (Alone.plan []).Tries [Alone.utxo 8000000] Alone.address fee →
        (Alone.plan []).LeavesRoom [Alone.utxo 8000000] Alone.address fee := by
  have pooled : poolFrom (Alone.plan []).draft Alone.context []
      (Alone.plan []).draft.inputAddresses = .ok [Alone.utxo 8000000] := rfl
  have picks : (Selector.largestFirst.select (Alone.plan []).parameters
      ((Alone.plan []).request Alone.address ((Alone.plan []).unfulfilled []))
      [Alone.utxo 8000000]).1.toOption.map (·.selected) = some [Alone.utxo 8000000] := by
    decide +kernel
  have succeeds : ((Alone.plan []).balance [Alone.utxo 8000000]).result.toOption.isSome := by
    decide +kernel
  cases answer : Selector.largestFirst.select (Alone.plan []).parameters
      ((Alone.plan []).request Alone.address ((Alone.plan []).unfulfilled []))
      [Alone.utxo 8000000] with
  | mk result next =>
      cases result with
      | error error => simp [answer, Except.toOption] at picks
      | ok selection =>
          have taken : selection.selected = [Alone.utxo 8000000] := by
            simpa [answer, Except.toOption] using picks
          have selects : (Alone.plan []).Selects Alone.context [Alone.utxo 8000000] :=
            taken ▸ .selection pooled rfl answer
          have inputs : distinctInputs ((Alone.plan []).draft.inputs ++ [Alone.utxo 8000000]) =
              [Alone.utxo 8000000] := Alone.distinctInputs_utxo 8000000
          obtain ⟨coin, _, agrees⟩ := balance_agrees_iff selects List.nodup_nil rfl rfl
            Alone.checkFits (inputs.symm ▸ Alone.balanceFits)
          rw [inputs] at coin agrees
          refine ⟨coin, (agrees.1 fun error failed => ?_).2⟩
          simp [failed, Except.toOption] at succeeds

/-- An input that passes the check may still leave too little for the change output. -/
theorem balance_disagrees_alone :
    (Alone.plan [Alone.utxo 1020000]).mergesChange = false ∧
      ((Alone.plan [Alone.utxo 1020000]).unfulfilled [Alone.utxo 1020000]).isZero = true ∧
      ∃ available required,
        ((Alone.plan [Alone.utxo 1020000]).balance (distinctInputs [Alone.utxo 1020000])).result =
          .error (.insufficientChange available required) := by
  have passes : ((Alone.plan [Alone.utxo 1020000]).unfulfilled [Alone.utxo 1020000]).isZero =
      true := by decide +kernel
  have short : (match ((Alone.plan [Alone.utxo 1020000]).balance
      (distinctInputs [Alone.utxo 1020000])).result with
    | .error (.insufficientChange _ _) => true
    | _ => false) = true := by decide +kernel
  refine ⟨rfl, passes, ?_⟩
  split at short
  next available required failed => exact ⟨available, required, failed⟩
  next => cases short

end Plan

end UtxoLedger
