import UtxoLedger.Proofs.Build.Inputs
import UtxoLedger.Proofs.Build.Passes
import UtxoLedger.Proofs.Build.Preparation
import UtxoLedger.Proofs.Value.Sums

/-!
# Conservation of value

What flows into a built transaction flows out of it: coin counted in natural
numbers, and every asset counted in integers. The change is what is left, and
none of the ways to place it adds to it or takes from it.
-/

namespace UtxoLedger

/-! ## Amounts of a body -/

/-- The amount that a certificate carries. -/
def Certificate.carried : Certificate → UInt64
  | register _ deposit => deposit
  | deregister _ deposit => deposit
  | registerStakeDelegation _ _ deposit => deposit
  | registerVoteDelegation _ _ deposit => deposit
  | registerStakeVoteDelegation _ _ _ deposit => deposit
  | registerDRep _ deposit _ => deposit
  | deregisterDRep _ deposit => deposit
  | _ => 0

namespace TransactionBody

def withdrawn (body : TransactionBody) : Nat :=
  coinTotal ((body.withdrawals.map OrderedMap.values).getD [])

/-- The certificates of a body in order. -/
def certificateList (body : TransactionBody) : List Certificate :=
  (body.certificates.map (·.items)).getD []

def refunded (body : TransactionBody) (parameters : ProtocolParameters) : Nat :=
  coinTotal (body.certificateList.map (·.refund parameters))

def deposited (body : TransactionBody) (parameters : ProtocolParameters) (chargesPool : Bool) :
    Nat :=
  coinTotal (body.certificateList.map (·.deposit parameters chargesPool))

/-- The certificates of a body whose code is one of these. -/
def coded (body : TransactionBody) (codes : List Nat) : List Certificate :=
  body.certificateList.filter fun certificate => certificate.code ∈ codes

/-- What certificates charge and give back, by their codes: the deposit of a key to register (0)
and back (1), that of a pool on demand (3), and the amount that a registration (7, 11, 12, 13, 16)
or a deregistration (8, 17) carries. No other certificate moves coin. -/
theorem amounts_by_code (body : TransactionBody) (parameters : ProtocolParameters)
    (chargesPool : Bool) :
    body.deposited parameters chargesPool =
        (body.coded [0]).length * parameters.keyDeposit.toNat +
          (body.coded [3]).length * (if chargesPool then parameters.poolDeposit else 0).toNat +
          coinTotal ((body.coded [7, 11, 12, 13, 16]).map (·.carried)) ∧
      body.refunded parameters =
        (body.coded [1]).length * parameters.keyDeposit.toNat +
          coinTotal ((body.coded [8, 17]).map (·.carried)) := by
  unfold deposited refunded coded
  induction body.certificateList with
  | nil => simp
  | cons certificate rest ih =>
      rw [List.map_cons, List.map_cons, coinTotal_cons, coinTotal_cons, ih.1, ih.2]
      cases certificate <;>
        simp [Certificate.code, Certificate.deposit, Certificate.refund, Certificate.carried,
          Nat.succ_mul] <;> omega

/-- The deposits of the proposals. -/
def proposed (body : TransactionBody) : Nat :=
  coinTotal (((body.proposals.map (·.items)).getD []).map (·.deposit))

def donated (body : TransactionBody) : Nat := (body.donation.getD 0).toNat

def paid (body : TransactionBody) : Nat := coinTotal (body.outputs.map (·.amount.coin))

/-- What is minted of an asset, below zero when it is burnt. -/
def minted (body : TransactionBody) (asset : Asset) : Int :=
  (body.mint.getD .empty).quantity asset

/-- What the body spends, withdraws, gets back and mints is what it pays, charges and donates. -/
structure Balances (body : TransactionBody) (parameters : ProtocolParameters)
    (chargesPool : Bool) (spent : List Utxo) : Prop where
  coin : coinTotal (spent.map (·.output.amount.coin)) + body.withdrawn +
      body.refunded parameters =
    body.paid + body.fee.toNat + body.deposited parameters chargesPool + body.proposed +
      body.donated
  assets : ∀ asset, (spent.map (·.output.amount.quantity asset)).sum + body.minted asset =
    (body.outputs.map (·.amount.quantity asset)).sum

end TransactionBody

/-! ## Exact amounts of a plan -/

namespace Plan

/-- What flows in of an asset. -/
def assetIn (plan : Plan) (inputs : List Utxo) (asset : Asset) : Int :=
  (inputs.map (·.output.amount.quantity asset)).sum + max (plan.draft.mint.quantity asset) 0

/-- What flows out of an asset before there is change. -/
def assetOut (plan : Plan) (asset : Asset) : Int :=
  (plan.draft.outputs.map (·.amount.quantity asset)).sum - min (plan.draft.mint.quantity asset) 0

/-- What flows in of coin. -/
def coinIn (plan : Plan) (inputs : List Utxo) : Nat :=
  coinTotal (inputs.map (·.output.amount.coin)) + coinTotal plan.draft.withdrawals.values +
    coinTotal (plan.draft.certificates.map (·.refund plan.parameters))

/-- What flows out of coin before there is a fee or change. -/
def coinOut (plan : Plan) : Nat :=
  coinTotal (plan.draft.outputs.map (·.amount.coin)) +
    coinTotal (plan.draft.certificates.map
      (·.deposit plan.parameters plan.draft.options.chargesPoolDeposit)) +
    coinTotal (plan.draft.proposals.map (·.deposit)) + (plan.draft.donation.getD 0).toNat

/-- No sum over the inputs leaves its range. -/
structure SumsInFit (plan : Plan) (inputs : List Utxo) : Prop where
  coin : plan.coinIn inputs < bound64
  assets : ∀ asset, SumsExactly
    (inputs.map (·.output.amount.quantity asset) ++ [max (plan.draft.mint.quantity asset) 0])

/-- No sum over what is asked for leaves its range, and no quantity is the least signed word. -/
structure SumsOutFit (plan : Plan) : Prop where
  coin : plan.coinOut < bound64
  assets : ∀ asset, SumsExactly
    (plan.draft.outputs.map (·.amount.quantity asset) ++ [-min (plan.draft.mint.quantity asset) 0])
  mint : ∀ asset, plan.draft.mint.quantity asset ≠ signedMin
  total : ∀ asset, plan.assetOut asset ≠ signedMin

/-- No sum that balances a transaction leaves its range, and no quantity is the least signed
word. -/
structure SumsFit (plan : Plan) (inputs : List Utxo) (fee : UInt64) : Prop where
  provided : plan.SumsInFit inputs
  requested : plan.SumsOutFit
  fee : plan.coinOut + fee.toNat < bound64
  difference : ∀ asset, IsSigned (plan.assetIn inputs asset - plan.assetOut asset)
  /-- The change fits into the output that it is added to. -/
  merged : ∀ address, plan.changeAddress = some address → plan.mergesChange = true →
    ∀ output, plan.draft.outputs.find? (fun output => decide (output.address = address)) =
      some output →
    ∀ asset, IsSigned
      (output.amount.quantity asset + (plan.assetIn inputs asset - plan.assetOut asset))

section

variable {plan : Plan} {inputs : List Utxo}

theorem coin_provided (fits : plan.SumsInFit inputs) :
    (plan.provided inputs).coin.toNat = plan.coinIn inputs := by
  have bound := fits.coin
  unfold coinIn at bound
  have spent : (Utxo.total inputs).coin.toNat =
      coinTotal (inputs.map (·.output.amount.coin)) := by
    have names : (inputs.map (·.output.amount)).map Value.coin =
        inputs.map (·.output.amount.coin) := by simp
    rw [Utxo.total, Value.coin_sum (by rw [names]; omega), names]
  have withdrawals : (wordSum plan.draft.withdrawals.values).toNat =
      coinTotal plan.draft.withdrawals.values := toNat_wordSum (by omega)
  have refunds : (plan.draft.refunds plan.parameters).toNat =
      coinTotal (plan.draft.certificates.map (·.refund plan.parameters)) :=
    toNat_wordSum (by omega)
  change ((Utxo.total inputs).coin + wordSum plan.draft.withdrawals.values +
    plan.draft.refunds plan.parameters).toNat = _
  rw [toNat_add_of_lt, toNat_add_of_lt, spent, withdrawals, refunds, coinIn]
  · omega
  · rw [toNat_add_of_lt] <;> omega

theorem coin_requested (fits : plan.SumsOutFit) : plan.requested.coin.toNat = plan.coinOut := by
  have bound := fits.coin
  unfold coinOut at bound
  have paid : (Value.sum (plan.draft.outputs.map (·.amount))).coin.toNat =
      coinTotal (plan.draft.outputs.map (·.amount.coin)) := by
    have names : (plan.draft.outputs.map (·.amount)).map Value.coin =
        plan.draft.outputs.map (·.amount.coin) := by simp
    rw [Value.coin_sum (by rw [names]; omega), names]
  have deposits : (plan.draft.deposits plan.parameters).toNat =
      coinTotal (plan.draft.certificates.map
        (·.deposit plan.parameters plan.draft.options.chargesPoolDeposit)) +
      coinTotal (plan.draft.proposals.map (·.deposit)) := by
    rw [Draft.deposits, toNat_add_of_lt, toNat_wordSum, toNat_wordSum] <;>
      first | omega | (rw [toNat_wordSum, toNat_wordSum] <;> omega)
  change ((Value.sum (plan.draft.outputs.map (·.amount))).coin +
    plan.draft.deposits plan.parameters + plan.draft.donation.getD 0).toNat = _
  rw [toNat_add_of_lt, toNat_add_of_lt, paid, deposits, coinOut]
  · omega
  · omega
  · rw [toNat_add_of_lt] <;> omega

theorem quantity_provided (fits : plan.SumsInFit inputs) (asset : Asset) :
    (plan.provided inputs).quantity asset = plan.assetIn inputs asset := by
  have names : (inputs.map (·.output.amount)).map (fun value => value.quantity asset) =
      inputs.map (·.output.amount.quantity asset) := by simp
  have minted := MultiAsset.quantity_positive plan.draft.mint asset
  have exact := fits.assets asset
  rw [← names, ← minted] at exact
  have total := Value.quantity_sum_plus exact
  rw [names, minted] at total
  exact total

theorem quantity_requested (fits : plan.SumsOutFit) (asset : Asset) :
    plan.requested.quantity asset = plan.assetOut asset := by
  have names : (plan.draft.outputs.map (·.amount)).map (fun value => value.quantity asset) =
      plan.draft.outputs.map (·.amount.quantity asset) := by simp
  have burnt : (-plan.draft.mint.negative).quantity asset =
      -min (plan.draft.mint.quantity asset) 0 := by
    have above := fits.mint asset
    have least : signedMin < 0 := by decide
    rw [MultiAsset.quantity_neg, MultiAsset.quantity_negative]
    rw [MultiAsset.quantity_negative]
    omega
  have exact := fits.assets asset
  rw [← names, ← burnt] at exact
  have total := Value.quantity_sum_plus exact
  rw [names, burnt] at total
  exact total.trans (Int.sub_eq_add_neg).symm

end

end Plan

/-! ## Change -/

/-- There is change when nothing of the difference is below zero. -/
theorem changeOf_eq_ok_iff {provided requested change : Value} :
    changeOf provided requested = .ok change ↔
      requested.coin.toNat ≤ provided.coin.toNat ∧
      (∀ asset, 0 ≤ (provided.assets - requested.assets).quantity asset) ∧
      change = ⟨provided.coin - requested.coin, provided.assets - requested.assets⟩ := by
  unfold changeOf
  rw [← MultiAsset.negative_isEmpty_iff, ← UInt64.le_iff_toNat_le, ← UInt64.not_lt]
  by_cases short : provided.coin < requested.coin
  · simp [short]
  · by_cases covered : (provided.assets - requested.assets).negative.isEmpty = true
    · simp only [short, covered, if_false, if_true, Except.ok.injEq, not_false_eq_true, true_and]
      exact eq_comm
    · simp [short, covered]

/-- Change is the exact difference of coin and the difference of the bundles, with nothing below
zero. -/
theorem changeOf_eq_ok {provided requested change : Value}
    (left : changeOf provided requested = .ok change) :
    requested.coin.toNat ≤ provided.coin.toNat ∧
      change.coin.toNat = provided.coin.toNat - requested.coin.toNat ∧
      change.assets = provided.assets - requested.assets ∧
      ∀ asset, 0 ≤ change.quantity asset := by
  obtain ⟨enough, covered, rfl⟩ := changeOf_eq_ok_iff.1 left
  exact ⟨enough, UInt64.toNat_sub_of_le _ _ (UInt64.le_iff_toNat_le.2 enough), rfl, covered⟩

namespace Plan

/-- An amount is added to the first output at an address. -/
theorem addToFirst?_eq_some {address : Address} {amount : Value}
    {outputs merged : List TransactionOutput}
    (found : addToFirst? address amount outputs = some merged) :
    ∃ before output after, outputs = before ++ output :: after ∧
      outputs.find? (fun output => decide (output.address = address)) = some output ∧
      merged = before ++ { output with amount := output.amount + amount } :: after := by
  induction outputs generalizing merged with
  | nil => simp [addToFirst?] at found
  | cons first rest ih =>
      unfold addToFirst? at found
      by_cases here : first.address = address
      · simp only [if_pos here, Option.some.injEq] at found
        exact ⟨[], first, rest, rfl, by simp [here], found.symm⟩
      · simp only [if_neg here, Option.map_eq_some_iff] at found
        obtain ⟨others, later, made⟩ := found
        obtain ⟨before, output, after, split, finding, joined⟩ := ih later
        exact ⟨first :: before, output, after, by simp [split], by simp [here, finding],
          by simp [← made, joined]⟩

/-- Where change goes: nowhere when there is none, into the first output at its address, or into
an output of its own that can carry it. -/
inductive Placement (plan : Plan) (address : Address) (change : Value) :
    List TransactionOutput → Prop where
  | nowhere (nothing : change.isZero = true) : Placement plan address change plan.draft.outputs
  | merged {before after : List TransactionOutput} {output : TransactionOutput}
      (merges : plan.mergesChange = true)
      (finding : plan.draft.outputs.find? (fun output => decide (output.address = address)) =
        some output)
      (split : plan.draft.outputs = before ++ output :: after) :
      Placement plan address change
        (before ++ { output with amount := output.amount + change } :: after)
  | added (enough : (TransactionOutput.plain address change).minCoin plan.parameters ≤
        change.coin) :
      Placement plan address change (plan.draft.outputs ++ [.plain address change])

theorem placeChange_eq_ok {plan : Plan} {address : Address} {change : Value}
    {outputs : List TransactionOutput}
    (placed : plan.placeChange address change = .ok outputs) :
    plan.Placement address change outputs := by
  unfold placeChange at placed
  simp only at placed
  split at placed
  next nothing =>
    rw [← Except.ok.inj placed]
    exact .nowhere nothing
  next =>
    split at placed
    next merged addition =>
      by_cases merges : plan.mergesChange = true
      · rw [if_pos merges] at addition
        obtain ⟨before, output, after, split, finding, rfl⟩ := addToFirst?_eq_some addition
        rw [← Except.ok.inj placed]
        exact .merged merges finding split
      · simp [merges] at addition
    next =>
      split at placed
      · cases placed
      next enough =>
        rw [← Except.ok.inj placed]
        exact .added (UInt64.not_lt.1 enough)

/-- Placed change raises what the outputs hold by the change, wherever it is placed. -/
theorem totals_of_placeChange {plan : Plan} {address : Address} {change : Value}
    {outputs : List TransactionOutput}
    (coinFits : coinTotal (plan.draft.outputs.map (·.amount.coin)) + change.coin.toNat < bound64)
    (assetsFit : plan.mergesChange = true → ∀ output,
      plan.draft.outputs.find? (fun output => decide (output.address = address)) = some output →
      ∀ asset, IsSigned (output.amount.quantity asset + change.quantity asset))
    (placed : plan.placeChange address change = .ok outputs) :
    coinTotal (outputs.map (·.amount.coin)) =
        coinTotal (plan.draft.outputs.map (·.amount.coin)) + change.coin.toNat ∧
      ∀ asset, (outputs.map (·.amount.quantity asset)).sum =
        (plan.draft.outputs.map (·.amount.quantity asset)).sum + change.quantity asset := by
  cases placeChange_eq_ok placed with
  | nowhere nothing =>
      have empty : change.coin = 0 ∧ change.assets.isEmpty = true := by
        simpa [Value.isZero] using nothing
      have holds := (MultiAsset.isEmpty_iff_quantity _).1 empty.2
      rw [empty.1]
      exact ⟨by simp, fun asset => by rw [Value.quantity, holds asset]; omega⟩
  | @merged before after output merges finding split =>
      rw [split] at coinFits ⊢
      simp only [List.map_append, List.map_cons, coinTotal_append, coinTotal_cons] at coinFits
      have coin : (output.amount + change).coin.toNat =
          output.amount.coin.toNat + change.coin.toNat :=
        toNat_saturatingAdd_of_lt (by omega)
      constructor
      · simp only [List.map_append, List.map_cons, coinTotal_append, coinTotal_cons, coin]
        omega
      · intro asset
        have quantity : (output.amount + change).quantity asset =
            output.amount.quantity asset + change.quantity asset :=
          MultiAsset.quantity_plus (assetsFit merges output finding asset)
        simp only [List.map_append, List.map_cons, List.sum_append, List.sum_cons, quantity]
        omega
  | added enough => simp [TransactionOutput.plain]

/-! ## Balance -/

section

variable {plan : Plan} {inputs : List Utxo} {fee : UInt64}

theorem quantity_difference (fits : plan.SumsFit inputs fee) (asset : Asset) :
    ((plan.provided inputs).assets - plan.requested.assets).quantity asset =
      plan.assetIn inputs asset - plan.assetOut asset := by
  have provided : (plan.provided inputs).assets.quantity asset = plan.assetIn inputs asset :=
    quantity_provided fits.provided asset
  have requested : plan.requested.assets.quantity asset = plan.assetOut asset :=
    quantity_requested fits.requested asset
  rw [MultiAsset.quantity_sub, provided, requested]
  · exact requested ▸ fits.requested.total asset
  · rw [provided, requested]
    exact fits.difference asset

/-- What is left when a fee is paid. -/
theorem change_of_outputsAt {address : Address} {outputs : List TransactionOutput}
    (fits : plan.SumsFit inputs fee)
    (made : plan.outputsAt inputs address fee = .ok outputs) :
    ∃ change, plan.placeChange address change = .ok outputs ∧
      plan.coinOut + fee.toNat + change.coin.toNat = plan.coinIn inputs ∧
      ∀ asset, change.quantity asset = plan.assetIn inputs asset - plan.assetOut asset := by
  unfold outputsAt at made
  obtain ⟨change, left, placed⟩ := Except.bind_eq_ok.1 made
  obtain ⟨enough, coin, assets, _⟩ := changeOf_eq_ok left
  have out := coin_requested fits.requested
  have sum : (plan.requested.coin.saturatingAdd fee).toNat = plan.coinOut + fee.toNat := by
    rw [toNat_saturatingAdd_of_lt, out]
    rw [out]
    exact fits.fee
  simp only [sum, coin_provided fits.provided] at enough coin
  refine ⟨change, placed, by omega, fun asset => ?_⟩
  rw [Value.quantity, assets]
  exact quantity_difference fits asset

/-- The outputs and the fee of a balance take up all that flows in and is not asked for. -/
theorem totals_of_balance {balance : Balance}
    (balanced : (plan.balance inputs).result = .ok balance)
    (fits : plan.SumsFit inputs balance.fee) :
    plan.coinIn inputs + coinTotal (plan.draft.outputs.map (·.amount.coin)) =
        plan.coinOut + coinTotal (balance.outputs.map (·.amount.coin)) + balance.fee.toNat ∧
      ∀ asset, (balance.outputs.map (·.amount.quantity asset)).sum =
        (plan.draft.outputs.map (·.amount.quantity asset)).sum +
          (plan.assetIn inputs asset - plan.assetOut asset) := by
  cases addressed : plan.changeAddress with
  | some address =>
      obtain ⟨change, placed, coin, quantity⟩ :=
        change_of_outputsAt fits (outputsAt_of_balance addressed balanced)
      have bound := fits.provided.coin
      have paid : coinTotal (plan.draft.outputs.map (·.amount.coin)) ≤ plan.coinOut := by
        unfold coinOut
        omega
      obtain ⟨coins, quantities⟩ := totals_of_placeChange (by omega)
        (fun merges output finding asset => by
          rw [quantity]
          exact fits.merged address addressed merges output finding asset) placed
      exact ⟨by omega, fun asset => by rw [quantities, quantity]⟩
  | none =>
      rw [result_balance_of_none inputs addressed] at balanced
      obtain ⟨fee, left, made⟩ := Except.map_eq_ok.1 balanced
      subst made
      obtain ⟨surplus, difference, empty, _, same⟩ := surplusFee_eq_ok left
      obtain ⟨enough, coin, assets, _⟩ := changeOf_eq_ok difference
      rw [coin_provided fits.provided, coin_requested fits.requested] at enough coin
      constructor
      · rw [← same]
        simp only
        omega
      · intro asset
        have zero := (MultiAsset.isEmpty_iff_quantity _).1 empty asset
        rw [assets, quantity_difference fits asset] at zero
        rw [zero, Int.add_zero]

end

end Plan

/-! ## Built bodies -/

/-- The inputs of a build: given by the caller, or reported by the chain at an input address. -/
def Draft.MaySpend (draft : Draft) (context : ChainContext) (utxo : Utxo) : Prop :=
  utxo ∈ draft.inputs ∨ Plan.IsReported draft context utxo

namespace Draft

section

variable {draft : Draft} {context : ChainContext} {selectors : List Selector}
  {changeAddress : Option Address} {plan : Plan} {inputs : List Utxo} {balance : Plan.Balance}
  {result : Result}

theorem Run.maySpend (run : draft.Run context selectors changeAddress plan inputs balance result)
    {utxo : Utxo} (member : utxo ∈ inputs) : draft.MaySpend context utxo := by
  obtain ⟨selected, selects, same⟩ := Plan.selects_of_fund run.funded
  have kept := sameRequest_prepare run.prepared
  rw [same] at member
  rcases List.mem_append.1 (Plan.mem_of_mem_distinctInputs member) with given | taken
  · exact .inl (kept.inputs ▸ given)
  · obtain ⟨address, listed, utxos, asked, there⟩ := selects.reported taken
    exact .inr ⟨address, kept.inputAddresses ▸ listed, utxos, asked, there⟩

theorem Run.nodup (run : draft.Run context selectors changeAddress plan inputs balance result) :
    (inputs.map (·.input)).Nodup := by
  obtain ⟨selected, _, same⟩ := Plan.selects_of_fund run.funded
  exact same ▸ Plan.distinctInputs_nodup _

/-- A list that is empty is the same as none. -/
theorem getD_nonEmpty? {α : Type} (items : List α) :
    ((Cbor.WireSet.nonEmpty? items).map (·.items)).getD [] = items := by
  unfold Cbor.WireSet.nonEmpty?
  cases items <;> rfl

theorem withdrawn_body (draft : Draft) (inputs : List Utxo) (outputs : List TransactionOutput)
    (fee : UInt64) : (draft.body inputs outputs fee).withdrawn = coinTotal draft.withdrawals.values := by
  unfold TransactionBody.withdrawn
  change coinTotal ((Option.map OrderedMap.values
    (if draft.withdrawals.isEmpty then none else some draft.withdrawals)).getD []) = _
  by_cases none : draft.withdrawals.isEmpty = true
  · have entries : draft.withdrawals.entries = [] := by simpa [OrderedMap.isEmpty] using none
    simp [none, OrderedMap.values, entries]
  · simp [none]

theorem minted_body (draft : Draft) (inputs : List Utxo) (outputs : List TransactionOutput)
    (fee : UInt64) (asset : Asset) :
    (draft.body inputs outputs fee).minted asset = draft.mint.quantity asset := by
  unfold TransactionBody.minted
  change ((if draft.mint.isEmpty then none else some draft.mint).getD .empty).quantity asset = _
  by_cases none : draft.mint.isEmpty = true
  · have zero := (MultiAsset.isEmpty_iff_quantity _).1 none asset
    simp only [none, if_true, Option.getD_none, zero]
    rfl
  · simp [none]

theorem certificateList_body (draft : Draft) (inputs : List Utxo)
    (outputs : List TransactionOutput) (fee : UInt64) :
    (draft.body inputs outputs fee).certificateList = draft.certificates :=
  getD_nonEmpty? draft.certificates

theorem proposed_body (draft : Draft) (inputs : List Utxo) (outputs : List TransactionOutput)
    (fee : UInt64) :
    (draft.body inputs outputs fee).proposed = coinTotal (draft.proposals.map (·.deposit)) := by
  unfold TransactionBody.proposed
  change coinTotal ((((Cbor.WireSet.nonEmpty? draft.proposals).map (·.items)).getD []).map
    (·.deposit)) = _
  rw [getD_nonEmpty?]

theorem Run.balances (run : draft.Run context selectors changeAddress plan inputs balance result)
    (fits : plan.SumsFit inputs result.built.body.fee) :
    result.built.body.Balances plan.parameters draft.options.chargesPoolDeposit inputs := by
  have finished := (Plan.finish_eq_ok run.finished).1
  have kept := sameRequest_prepare run.prepared
  rw [finished] at fits ⊢
  obtain ⟨coin, assets⟩ := Plan.totals_of_balance run.balanced fits
  rw [← kept.options]
  constructor
  · rw [withdrawn_body, TransactionBody.refunded, TransactionBody.deposited, certificateList_body,
      proposed_body]
    change _ = coinTotal (balance.outputs.map (·.amount.coin)) + balance.fee.toNat + _ + _ +
      (plan.draft.donation.getD 0).toNat
    unfold Plan.coinIn Plan.coinOut at coin
    omega
  · intro asset
    have outputs := assets asset
    rw [minted_body]
    change _ = (balance.outputs.map (·.amount.quantity asset)).sum
    unfold Plan.assetIn Plan.assetOut at outputs
    omega

/-- A build conserves value: the inputs of the body name outputs that the draft was given or the
chain reports, each once, and unless a sum leaves its range the body balances exactly. -/
theorem build_conserves
    (built : (draft.build context selectors changeAddress).result = .ok result) :
    ∃ plan inputs balance, draft.Run context selectors changeAddress plan inputs balance result ∧
      result.built.body.inputs.items = inputs.map (·.input) ∧
      (inputs.map (·.input)).Nodup ∧ (∀ utxo ∈ inputs, draft.MaySpend context utxo) ∧
      (plan.SumsFit inputs result.built.body.fee →
        result.built.body.Balances plan.parameters draft.options.chargesPoolDeposit inputs) := by
  obtain ⟨plan, inputs, balance, run⟩ := exists_run built
  refine ⟨plan, inputs, balance, run, ?_, run.nodup, fun _ member => run.maySpend member,
    run.balances⟩
  rw [(Plan.finish_eq_ok run.finished).1]
  rfl

end

/-! ### A build with every kind of amount -/

namespace Sample

def keyHash (byte : UInt8) : Hash 28 := ⟨.replicate 28 byte⟩

def address (byte : UInt8) : Address := .shelley ⟨.testnet, .key (keyHash byte), .none⟩

def asset : Asset := ⟨keyHash 1, .empty⟩

def utxo (coin : UInt64) (quantity : Int64) : Utxo :=
  ⟨⟨⟨.replicate 32 5⟩, 0⟩, .plain (address 7) ⟨coin, MultiAsset.empty.add asset quantity⟩⟩

/-- The chain reports one output at every address. -/
def context : ChainContext := ⟨.ok .preset, .testnet, .ok 0, fun _ => .ok [utxo 8000000 5]⟩

def outputs : List TransactionOutput :=
  [.plain (address 7) (.ofCoin 2000000),
    .plain (address 9) ⟨4000000, MultiAsset.empty.add asset 1⟩]

/-- Pays two addresses, burns, withdraws and registers; its coin has to be selected, and its
change goes to an output that is there. -/
def draft : Draft :=
  { Draft.empty with
    options := { BuildOptions.preset with mergeChange := true }
    inputAddresses := [address 7]
    outputs := outputs
    mint := MultiAsset.empty.add asset (-2)
    withdrawals := OrderedMap.empty.insert ⟨.testnet, .key (keyHash 7)⟩ 1000000
    certificates := [.stakeRegistration (.key (keyHash 7))] }

theorem sumsFit {plan : Plan} (parameters : plan.parameters = .preset)
    (outputs : plan.draft.outputs = Sample.outputs)
    (mint : plan.draft.mint = MultiAsset.empty.add asset (-2))
    (kept : draft.SameRequest plan.draft) :
    plan.SumsFit [utxo 8000000 5] 173289 := by
  have coinOut : plan.coinOut = 8000000 := by
    rw [Plan.coinOut, outputs, kept.certificates, kept.proposals, kept.donation, kept.options,
      parameters]
    decide
  have coinIn : plan.coinIn [utxo 8000000 5] = 9000000 := by
    rw [Plan.coinIn, kept.certificates, kept.withdrawals, parameters]
    decide
  have spent (other : Asset) : (utxo 8000000 5).output.amount.quantity other =
      if other = asset then 5 else 0 := MultiAsset.quantity_add_empty asset other 5
  have paid (other : Asset) : Sample.outputs.map (·.amount.quantity other) =
      [0, if other = asset then 1 else 0] := by
    rw [← show (1 : Int64).toInt = 1 by decide, ← MultiAsset.quantity_add_empty asset other 1]
    rfl
  have burnt (other : Asset) : plan.draft.mint.quantity other =
      if other = asset then -2 else 0 := by
    rw [mint]
    exact MultiAsset.quantity_add_empty asset other (-2)
  have flows (other : Asset) : plan.assetIn [utxo 8000000 5] other =
      (if other = asset then 5 else 0) ∧
      plan.assetOut other = if other = asset then 3 else 0 := by
    unfold Plan.assetIn Plan.assetOut
    rw [outputs, paid, burnt]
    simp only [List.map_cons, List.map_nil, spent]
    split <;> decide
  refine ⟨⟨?_, fun other => ?_⟩, ⟨?_, fun other => ?_, fun other => ?_, fun other => ?_⟩, ?_,
    fun other => ?_, ?_⟩
  · rw [coinIn]
    decide
  · simp only [List.map_cons, List.map_nil, spent, burnt]
    split <;> exact sumsExactly_of_magnitudes (by decide)
  · rw [coinOut]
    decide
  · rw [outputs, paid, burnt]
    split <;> exact sumsExactly_of_magnitudes (by decide)
  · rw [burnt]
    split <;> decide
  · rw [(flows other).2]
    split <;> decide
  · rw [coinOut]
    decide
  · rw [(flows other).1, (flows other).2]
    split <;> exact ⟨by decide, by decide⟩
  · intro place _ _ output found other
    have member := List.mem_of_find?_eq_some found
    rw [outputs] at member
    have held : output.amount.quantity other = 0 ∨
        output.amount.quantity other = if other = asset then 1 else 0 := by
      have listed : output.amount.quantity other ∈
          Sample.outputs.map (·.amount.quantity other) := List.mem_map_of_mem member
      rw [paid] at listed
      simpa using listed
    rw [(flows other).1, (flows other).2]
    unfold IsSigned signedMin signedMax bound63
    split at held <;> split <;> omega

end Sample

/-- The build of the sample succeeds, and its body balances exactly. -/
theorem build_conserves_sample :
    ∃ result, (Sample.draft.build Sample.context [.largestFirst]
        (some (Sample.address 7))).result = .ok result ∧ result.built.body.fee = 173289 ∧
      result.built.body.Balances .preset false [Sample.utxo 8000000 5] := by
  have succeeds : ((Sample.draft.build Sample.context [.largestFirst]
      (some (Sample.address 7))).result.toOption.map (·.built.body.fee)) = some 173289 := by
    decide +kernel
  have prepares : ((Sample.draft.prepare Sample.context .preset).toOption.map
      fun prepared => (prepared.outputs, prepared.mint)) =
      some (Sample.outputs, MultiAsset.empty.add Sample.asset (-2)) := by decide +kernel
  have funds : ((Sample.draft.prepare Sample.context .preset).bind fun prepared =>
      (Plan.fund ⟨prepared, .preset, some (Sample.address 7)⟩ Sample.context
        [.largestFirst]).result).toOption = some [Sample.utxo 8000000 5] := by decide +kernel
  cases built : (Sample.draft.build Sample.context [.largestFirst]
      (some (Sample.address 7))).result with
  | error error => simp [built, Except.toOption] at succeeds
  | ok result =>
      have fee : result.built.body.fee = 173289 := by
        simpa [built, Except.toOption] using succeeds
      obtain ⟨plan, inputs, balance, run, _, _, _, balances⟩ := build_conserves built
      obtain ⟨prepared, parameters, change⟩ := plan
      have preset : parameters = .preset := (Except.ok.inj run.parameters).symm
      subst preset
      have same : change = some (Sample.address 7) := run.addressed
      subst same
      rw [run.prepared] at prepares funds
      have parts : prepared.outputs = Sample.outputs ∧
          prepared.mint = MultiAsset.empty.add Sample.asset (-2) := by
        simpa [Except.toOption] using prepares
      have spent : inputs = [Sample.utxo 8000000 5] := by
        simpa [Except.bind, run.funded, Except.toOption] using funds
      subst spent
      have fits := Sample.sumsFit rfl parts.1 parts.2 (sameRequest_prepare run.prepared)
      exact ⟨result, rfl, fee, balances (fee ▸ fits)⟩

end Draft

end UtxoLedger
