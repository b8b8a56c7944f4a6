import Mathlib.Algebra.Order.Group.Nat
import UtxoLedger.Proofs.Build.Conservation
import UtxoLedger.Proofs.Value.Expressions

/-!
# Reports of a build

A build reports the selectors that it asks, the passes that estimate its fee
with the change that each of them leaves, and at the end the size and the fee of
the transaction. The reports of a build that fails break off. The change that is
reported last is what the outputs hold beyond those of the draft, except where
it is added to an output that has no room for it.
-/

namespace UtxoLedger

namespace Traced

variable {α β : Type}

theorem events_emit_bind (event : BuildEvent) (next : Unit → Traced β) :
    (emit event >>= next).events = event :: (next ()).events := rfl

theorem ofExcept_ok_bind (value : α) (next : α → Traced β) :
    ofExcept (.ok value) >>= next = next value := rfl

theorem bind_of_ok {first : Traced α} {next : α → Traced β} {middle : α}
    (done : first.result = .ok middle) :
    first >>= next = ⟨first.events ++ (next middle).events, (next middle).result⟩ := by
  change andThen first next = _
  simp only [andThen, done]

theorem bind_of_error {first : Traced α} {next : α → Traced β} {error : BuildError}
    (failed : first.result = .error error) : first >>= next = ⟨first.events, .error error⟩ := by
  change andThen first next = _
  simp only [andThen, failed]

/-- A part that reports nothing adds nothing to the reports. -/
theorem events_bind_of_silent (first : Traced α) {next : α → Traced β}
    (silent : ∀ value, (next value).events = []) : (first >>= next).events = first.events := by
  cases outcome : first.result with
  | error error => rw [bind_of_error outcome]
  | ok value => rw [bind_of_ok outcome, silent, List.append_nil]

end Traced

namespace Plan

/-! ## Selectors -/

/-- What is reported of selectors that are asked in turn until one of them selects. -/
inductive Asked (answer : Selector → Except SelectionError Selection) (poolSize : Nat) :
    List Selector → List BuildEvent → Prop where
  | nobody : Asked answer poolSize [] []
  | failure {selector : Selector} {error : SelectionError} {rest : List Selector}
      {events : List BuildEvent} (failed : answer selector = .error error)
      (later : Asked answer poolSize rest events) :
      Asked answer poolSize (selector :: rest)
        (.attempt selector.name poolSize :: .failure selector.name error :: events)
  | success {selector : Selector} {selection : Selection} {rest : List Selector}
      (selects : answer selector = .ok selection) :
      Asked answer poolSize (selector :: rest) [.attempt selector.name poolSize]

theorem asked_selectWith (plan : Plan) (request : SelectionRequest) (unfulfilled : Value)
    (pool : List Utxo) (selectors : List Selector) :
    Asked (fun selector => (selector.select plan.parameters request pool).1) pool.length selectors
      (plan.selectWith request unfulfilled pool selectors).events := by
  induction selectors with
  | nil => exact .nobody
  | cons selector rest ih =>
      rw [selectWith, Traced.events_emit_bind]
      cases answer : (selector.select plan.parameters request pool).1 with
      | ok selection => exact .success answer
      | error error => exact .failure answer ih

/-- What the selectors are asked for, and the pool that they select from. They are not asked when
nothing is missing, and not when there is nowhere to select from. -/
def question? (plan : Plan) (context : ChainContext) : Option (SelectionRequest × List Utxo) :=
  let draft := plan.draft
  let unfulfilled := plan.unfulfilled draft.inputs
  if unfulfilled.isZero || (draft.inputs.isEmpty && draft.inputAddresses.isEmpty) then none
  else
    match poolFrom draft context [] draft.inputAddresses, plan.selectionAddress? with
    | .ok pool, some address => some (plan.request address unfulfilled, pool)
    | _, _ => none

/-- What is reported while the inputs of a plan are found. -/
inductive Asks (plan : Plan) (context : ChainContext) (selectors : List Selector) :
    List BuildEvent → Prop where
  | nobody (unasked : plan.question? context = none) : Asks plan context selectors []
  | inTurn {request : SelectionRequest} {pool : List Utxo} {events : List BuildEvent}
      (asking : plan.question? context = some (request, pool))
      (asked : Asked (fun selector => (selector.select plan.parameters request pool).1) pool.length
        selectors events) :
      Asks plan context selectors events

theorem asks_selectMissing {plan : Plan} (context : ChainContext) (selectors : List Selector)
    (missing : (plan.unfulfilled plan.draft.inputs).isZero = false) :
    plan.Asks context selectors
      (plan.selectMissing context selectors (plan.unfulfilled plan.draft.inputs)).events := by
  unfold selectMissing
  by_cases nowhere : (plan.draft.inputs.isEmpty && plan.draft.inputAddresses.isEmpty) = true
  · simp only [if_pos nowhere]
    exact .nobody (by simp [question?, nowhere])
  · simp only [if_neg nowhere]
    cases pooled : poolFrom plan.draft context [] plan.draft.inputAddresses with
    | error error => exact .nobody (by simp [question?, pooled])
    | ok pool =>
        cases addressed : plan.selectionAddress? with
        | none => exact .nobody (by simp [question?, addressed])
        | some address =>
            have asking : plan.question? context =
                some (plan.request address (plan.unfulfilled plan.draft.inputs), pool) := by
              simp [question?, missing, nowhere, pooled, addressed]
            have asked := asked_selectWith plan
              (plan.request address (plan.unfulfilled plan.draft.inputs))
              (plan.unfulfilled plan.draft.inputs) pool selectors
            rw [← Traced.events_bind_pure _ Selection.selected] at asked
            exact .inTurn asking asked

theorem asks_fund (plan : Plan) (context : ChainContext) (selectors : List Selector) :
    plan.Asks context selectors (plan.fund context selectors).events := by
  have closing (selected : List Utxo) :
      (if (distinctInputs (plan.draft.inputs ++ selected)).isEmpty = true then
        Traced.fail .noInputs
      else pure (distinctInputs (plan.draft.inputs ++ selected)) :
        Traced (List Utxo)).events = [] := by
    split <;> rfl
  unfold fund
  by_cases fulfilled : (plan.unfulfilled plan.draft.inputs).isZero = true
  · simp only [if_pos fulfilled]
    rw [Traced.events_bind_of_silent _ closing]
    exact .nobody (by simp [question?, fulfilled])
  · simp only [if_neg fulfilled]
    rw [Traced.events_bind_of_silent _ closing]
    exact asks_selectMissing context selectors (by simpa using fulfilled)

/-! ## Passes -/

mutual

/-- What is reported from a pass on: its estimate, and what follows. There are five passes at
most. -/
inductive Passes : Nat → List BuildEvent → Prop where
  | stop (pass : Nat) : Passes pass []
  | estimate {pass : Nat} {events : List BuildEvent} (size fee : UInt64) (few : pass ≤ 5)
      (later : Changes pass events) : Passes pass (.feePass pass size fee :: events)

/-- What is reported after the estimate of a pass: the change that it leaves, and what follows. -/
inductive Changes : Nat → List BuildEvent → Prop where
  | stop (pass : Nat) : Changes pass []
  | change {pass : Nat} {events : List BuildEvent} (amount : Value)
      (later : Passes (pass + 1) events) : Changes pass (.change amount :: events)

end

/-- The change that an event reports. -/
def reportedChange? : BuildEvent → Option Value
  | .change amount => some amount
  | _ => none

/-- The change that is reported last. -/
def lastChange? (events : List BuildEvent) : Option Value :=
  (events.filterMap reportedChange?).getLast?

theorem lastChange?_change (amount : Value) (events : List BuildEvent) :
    lastChange? (.change amount :: events) = some ((lastChange? events).getD amount) :=
  List.getLast?_cons

theorem lastChange?_feePass (pass : Nat) (size fee : UInt64) (events : List BuildEvent) :
    lastChange? (.feePass pass size fee :: events) = lastChange? events := rfl

/-- What a fee leaves of the inputs. -/
def changeAt (plan : Plan) (inputs : List Utxo) (fee : UInt64) : Except BuildError Value :=
  changeOf (plan.provided inputs)
    { plan.requested with coin := plan.requested.coin.saturatingAdd fee }

/-- What a fee leaves is reported before it is placed. -/
theorem outputsWithChange_cases (plan : Plan) (inputs : List Utxo) (address : Address)
    (fee : UInt64) :
    (∃ error, plan.outputsWithChange inputs address fee = ⟨[], .error error⟩) ∨
      ∃ change, plan.changeAt inputs fee = .ok change ∧
        plan.outputsWithChange inputs address fee =
          ⟨[.change change], plan.placeChange address change⟩ := by
  change (∃ error, Traced.ofExcept (plan.changeAt inputs fee) >>= _ = _) ∨
    ∃ change, _ ∧ Traced.ofExcept (plan.changeAt inputs fee) >>= _ = _
  cases plan.changeAt inputs fee with
  | error error => exact .inl ⟨error, rfl⟩
  | ok change => exact .inr ⟨change, rfl, rfl⟩

/-- After a pass there is change and another pass in turn. When this ends in a balance, the change
that is reported last is the one that its fee leaves and its outputs carry. -/
structure Settles (plan : Plan) (inputs : List Utxo) (address : Address) (pass : Nat)
    (settled : Traced Balance) : Prop where
  changes : Changes pass settled.events
  placed : ∀ balance, settled.result = .ok balance → ∃ change,
    lastChange? settled.events = some change ∧ plan.changeAt inputs balance.fee = .ok change ∧
      plan.placeChange address change = .ok balance.outputs

section

variable {plan : Plan} {inputs : List Utxo} {address : Address} {pass : Nat}

theorem settles_of_error (error : BuildError) :
    plan.Settles inputs address pass ⟨[], .error error⟩ where
  changes := .stop pass
  placed := nofun

theorem settles_of_unplaced (change : Value) (error : BuildError) :
    plan.Settles inputs address pass ⟨[.change change], .error error⟩ where
  changes := .change change (.stop _)
  placed := nofun

/-- The change is placed and no other change follows. -/
theorem settles_of_placed {change : Value} {balance : Balance} {events : List BuildEvent}
    (left : plan.changeAt inputs balance.fee = .ok change)
    (placed : plan.placeChange address change = .ok balance.outputs)
    (last : lastChange? events = none) (later : Passes (pass + 1) events) :
    plan.Settles inputs address pass ⟨.change change :: events, .ok balance⟩ where
  changes := .change change later
  placed
    | _, rfl => ⟨change, by rw [lastChange?_change, last]; rfl, left, placed⟩

/-- One more pass in front. -/
theorem Settles.step {later : Traced Balance}
    (settles : plan.Settles inputs address (pass + 1) later) (change : Value) (size fee : UInt64)
    (few : pass + 1 ≤ 5) :
    plan.Settles inputs address pass
      ⟨.change change :: .feePass (pass + 1) size fee :: later.events, later.result⟩ where
  changes := .change change (.estimate size fee few settles.changes)
  placed balance done := by
    obtain ⟨last, reported, placed⟩ := settles.placed balance done
    exact ⟨last, by rw [lastChange?_change, lastChange?_feePass, reported]; rfl, placed⟩

theorem settles_outputsWithChange (plan : Plan) (inputs : List Utxo) (address : Address)
    (fee : UInt64) :
    plan.Settles inputs address pass
      (plan.outputsWithChange inputs address fee >>= fun outputs => pure ⟨outputs, fee⟩) := by
  rcases outputsWithChange_cases plan inputs address fee with ⟨error, failed⟩ | ⟨change, left, made⟩
  · rw [failed]
    exact settles_of_error error
  · rw [made]
    cases placed : plan.placeChange address change with
    | error error => exact settles_of_unplaced change error
    | ok outputs => exact settles_of_placed left placed rfl (.stop _)

/-- What follows a pass that does not confirm its estimate. -/
def continued (plan : Plan) (inputs : List Utxo) (address : Address) (pass : Nat)
    (estimate next : UInt64) : (later : Nat) → Traced Balance
  | 0 => plan.outputsWithChange inputs address (max next estimate) >>= fun outputs =>
      pure ⟨outputs, max next estimate⟩
  | fewer + 1 => plan.settleFee inputs address (pass + 1) next fewer

/-- One pass of the settling and what it reports. -/
theorem settles_settleFee_step (estimate : UInt64) (later : Nat) (few : pass + 1 ≤ 5)
    (settles : ∀ next, plan.Settles inputs address (pass + 1)
      (plan.continued inputs address (pass + 1) estimate next later)) :
    plan.Settles inputs address pass
      (plan.settleFee inputs address (pass + 1) estimate later) := by
  unfold settleFee
  rcases outputsWithChange_cases plan inputs address estimate with
    ⟨error, failed⟩ | ⟨change, left, made⟩
  · rw [Traced.bind_of_error (by rw [failed]), failed]
    exact settles_of_error error
  · cases placed : plan.placeChange address change with
    | error error =>
        rw [Traced.bind_of_error (by rw [made, placed]), made]
        exact settles_of_unplaced change error
    | ok outputs =>
        rw [Traced.bind_of_ok (by rw [made, placed]), made]
        obtain ⟨size, next⟩ := plan.draft.estimate plan.parameters inputs outputs estimate
        simp only
        -- The second pass is reported even when it confirms the first one.
        by_cases confirmed : next = estimate
        · by_cases second : pass + 1 = 2
          · obtain rfl : pass = 1 := by omega
            simp only [confirmed, decide_true, Bool.true_or, if_true]
            exact settles_of_placed left placed rfl (.estimate size estimate (by omega) (.stop _))
          · simp only [confirmed, second, decide_false, ne_eq, not_true_eq_false, Bool.or_self,
              Bool.false_eq_true, if_false, if_true]
            exact settles_of_placed left placed rfl (.stop _)
        · simp only [confirmed, ne_eq, not_false_eq_true, decide_true, Bool.or_true, if_true,
            if_false]
          have rest := (settles next).step change size next few
          cases later with
          | zero => exact rest
          | succ later => exact rest

/-- By induction on the number of passes that may still follow. -/
theorem settles_settleFee (estimate : UInt64) (later : Nat) (few : pass + 1 + later ≤ 5) :
    plan.Settles inputs address pass
      (plan.settleFee inputs address (pass + 1) estimate later) := by
  induction later generalizing pass estimate with
  | zero =>
      exact settles_settleFee_step estimate 0 few fun next =>
        settles_outputsWithChange plan inputs address (max next estimate)
  | succ later ih =>
      exact settles_settleFee_step estimate (later + 1) (by omega) fun next =>
        ih next (by omega)

end

/-- The first pass is always reported. -/
theorem changes_balance (plan : Plan) (inputs : List Utxo) :
    ∃ later, Changes 1 later ∧ (plan.balance inputs).events =
      .feePass 1 (plan.firstEstimate inputs).1 (plan.firstEstimate inputs).2 :: later := by
  unfold balance
  simp only [Traced.events_emit_bind, List.cons.injEq, true_and, exists_eq_right']
  cases plan.changeAddress with
  | some address => exact (settles_settleFee _ laterPasses (by decide)).changes
  | none =>
      simp only
      rw [Traced.events_bind_pure]
      exact .stop 1

/-- The change that is reported last is the one that the outputs of a balance carry. -/
theorem placed_of_balance {plan : Plan} {inputs : List Utxo} {address : Address}
    {balance : Balance} (addressed : plan.changeAddress = some address)
    (balanced : (plan.balance inputs).result = .ok balance) :
    ∃ change, lastChange? (plan.balance inputs).events = some change ∧
      plan.changeAt inputs balance.fee = .ok change ∧
      plan.placeChange address change = .ok balance.outputs := by
  unfold Plan.balance at balanced ⊢
  simp only [addressed, Traced.result_emit_bind] at balanced
  simp only [addressed, Traced.events_emit_bind, lastChange?_feePass]
  exact (settles_settleFee _ laterPasses (by decide)).placed balance balanced

/-! ## Change -/

end Plan

/-- What is left of a bundle that covers another one fits together with it. -/
theorem MultiAsset.quantity_sub_add_le {first second : MultiAsset} {asset : Asset}
    (owed : 0 ≤ second.quantity asset) (left : 0 ≤ (first - second).quantity asset) :
    (first - second).quantity asset + second.quantity asset ≤ signedMax := by
  have most := (isSigned_toInt (first.get asset)).2
  have whole := (isSigned_toInt (second.get asset)).2
  rw [MultiAsset.quantity_sub_eq_clamp] at left ⊢
  change first.quantity asset ≤ signedMax at most
  change second.quantity asset ≤ signedMax at whole
  unfold clamp signedMin signedMax at *
  omega

/-- An amount has room for another one: no sum of the two leaves its range. -/
structure Value.HasRoom (amount further : Value) : Prop where
  coin : amount.coin.toNat + further.coin.toNat < bound64
  assets : ∀ asset, IsSigned (amount.quantity asset + further.quantity asset)

/-- An amount has room for another one when their sum is exact. -/
theorem Value.hasRoom_iff (amount further : Value) :
    amount.HasRoom further ↔
      (amount + further).coin.toNat = amount.coin.toNat + further.coin.toNat ∧
        ∀ asset, (amount + further).quantity asset =
          amount.quantity asset + further.quantity asset := by
  constructor
  · intro room
    exact ⟨toNat_saturatingAdd_of_lt room.coin, fun asset =>
      MultiAsset.quantity_plus (room.assets asset)⟩
  · rintro ⟨coin, assets⟩
    refine ⟨coin ▸ (amount + further).coin.toNat_lt, fun asset => ?_⟩
    rw [← assets asset]
    exact isSigned_toInt _

/-- The second outputs hold what the first ones hold and an amount. -/
structure Raises (amount : Value) (before after : List TransactionOutput) : Prop where
  coin : coinTotal (after.map (·.amount.coin)) =
    coinTotal (before.map (·.amount.coin)) + amount.coin.toNat
  assets : ∀ asset, (after.map (·.amount.quantity asset)).sum =
    (before.map (·.amount.quantity asset)).sum + amount.quantity asset

theorem raises_add (amount : Value) (outputs : List TransactionOutput) (address : Address) :
    Raises amount outputs (outputs ++ [.plain address amount]) where
  coin := by simp [TransactionOutput.plain]
  assets := by simp [TransactionOutput.plain]

/-- An amount that is added to an output raises all outputs when the output has room for it. -/
theorem raises_merge_iff (amount : Value) (before after : List TransactionOutput)
    (output : TransactionOutput) :
    Raises amount (before ++ output :: after)
        (before ++ { output with amount := output.amount + amount } :: after) ↔
      output.amount.HasRoom amount := by
  rw [Value.hasRoom_iff]
  constructor
  · intro raises
    have coin := raises.coin
    have assets := raises.assets
    simp only [List.map_append, List.map_cons, coinTotal_append, coinTotal_cons, List.sum_append,
      List.sum_cons] at coin assets
    exact ⟨by omega, fun asset => by have := assets asset; omega⟩
  · rintro ⟨coin, assets⟩
    constructor
    · simp only [List.map_append, List.map_cons, coinTotal_append, coinTotal_cons, coin]
      omega
    · intro asset
      simp only [List.map_append, List.map_cons, List.sum_append, List.sum_cons, assets asset]
      omega

theorem Value.quantities_of_isZero {value : Value} (nothing : value.isZero = true) :
    value.coin.toNat = 0 ∧ ∀ asset, value.quantity asset = 0 := by
  obtain ⟨coin, assets⟩ : value.coin = 0 ∧ value.assets.isEmpty = true := by
    simpa [Value.isZero] using nothing
  exact ⟨by rw [coin]; rfl, (MultiAsset.isEmpty_iff_quantity _).1 assets⟩

theorem Value.hasRoom_of_isZero (amount : Value) {nothing : Value}
    (zero : nothing.isZero = true) : amount.HasRoom nothing := by
  obtain ⟨coin, assets⟩ := quantities_of_isZero zero
  constructor
  · rw [coin]
    exact amount.coin.toNat_lt
  · intro asset
    rw [assets asset, Int.add_zero]
    exact isSigned_toInt _

theorem raises_of_isZero {amount : Value} (nothing : amount.isZero = true)
    (outputs : List TransactionOutput) : Raises amount outputs outputs := by
  obtain ⟨coin, assets⟩ := Value.quantities_of_isZero nothing
  exact ⟨by rw [coin, Nat.add_zero], fun asset => by rw [assets asset, Int.add_zero]⟩

namespace Plan

/-- The output that takes the change has room for it. -/
def MergeFits (plan : Plan) (address : Address) (change : Value) : Prop :=
  plan.mergesChange = true → ∀ output,
    plan.draft.outputs.find? (fun output => decide (output.address = address)) = some output →
      output.amount.HasRoom change

theorem find?_of_addToFirst?_eq_none {address : Address} {amount : Value}
    {outputs : List TransactionOutput} (missing : addToFirst? address amount outputs = none) :
    outputs.find? (fun output => decide (output.address = address)) = none := by
  induction outputs with
  | nil => rfl
  | cons first rest ih =>
      unfold addToFirst? at missing
      by_cases here : first.address = address
      · simp [here] at missing
      · rw [if_neg here, Option.map_eq_none_iff] at missing
        rw [List.find?_cons_of_neg (by simpa using here)]
        exact ih missing

/-- Placed change is what the outputs hold beyond those of the draft unless it is added to an
output that has no room for it. -/
theorem raises_placed_iff {plan : Plan} {address : Address} {change : Value}
    {outputs : List TransactionOutput}
    (placed : plan.placeChange address change = .ok outputs) :
    Raises change plan.draft.outputs outputs ↔ plan.MergeFits address change := by
  unfold placeChange at placed
  simp only at placed
  split at placed
  next nothing =>
    obtain rfl := Except.ok.inj placed
    have fits : plan.MergeFits address change :=
      fun _ _ _ => Value.hasRoom_of_isZero _ nothing
    exact iff_of_true (raises_of_isZero nothing _) fits
  next =>
    split at placed
    next merged addition =>
      by_cases merges : plan.mergesChange = true
      · rw [if_pos merges] at addition
        obtain ⟨before, output, after, split, finding, rfl⟩ := addToFirst?_eq_some addition
        rw [← Except.ok.inj placed, MergeFits, finding, split, raises_merge_iff]
        exact ⟨fun room _ _ same => Option.some.inj same ▸ room,
          fun fits => fits merges output rfl⟩
      · simp [merges] at addition
    next unmerged =>
      split at placed
      · cases placed
      next =>
        rw [← Except.ok.inj placed]
        refine iff_of_true (raises_add ..) fun merges output found => ?_
        rw [if_pos merges] at unmerged
        rw [find?_of_addToFirst?_eq_none unmerged] at found
        cases found

/-- Change is what is left when all outputs are paid. So each output has room for it, unless
others owe assets. -/
theorem mergeFits_of_changeAt {plan : Plan} {inputs : List Utxo} {fee : UInt64} {change : Value}
    (fits : plan.SumsOutFit)
    (pays : ∀ output ∈ plan.draft.outputs, ∀ asset, 0 ≤ output.amount.quantity asset)
    (left : plan.changeAt inputs fee = .ok change) (address : Address) :
    plan.MergeFits address change := by
  obtain ⟨enough, coin, assets, held⟩ := changeOf_eq_ok left
  intro _ output found
  have member := List.mem_of_find?_eq_some found
  constructor
  · have paid : output.amount.coin.toNat ≤
        coinTotal (plan.draft.outputs.map (·.amount.coin)) :=
      List.single_le_sum (fun _ _ => Nat.zero_le _) _
        (List.mem_map_of_mem (List.mem_map_of_mem member))
    have requested : output.amount.coin.toNat ≤ (plan.requested.coin.saturatingAdd fee).toNat := by
      rw [UInt64.toNat_saturatingAdd, coin_requested fits]
      have word := Nat.le_sub_one_of_lt output.amount.coin.toNat_lt
      unfold coinOut
      exact le_min (by omega) word
    have bound := (plan.provided inputs).coin.toNat_lt
    simp only at enough coin
    unfold bound64
    omega
  · intro asset
    have requested : plan.requested.assets.quantity asset = plan.assetOut asset :=
      quantity_requested fits asset
    have paid : output.amount.quantity asset ≤
        (plan.draft.outputs.map (·.amount.quantity asset)).sum := by
      refine List.single_le_sum (fun quantity listed => ?_) _ (List.mem_map_of_mem member)
      obtain ⟨other, there, rfl⟩ := List.mem_map.1 listed
      exact pays other there asset
    have asked : output.amount.quantity asset ≤ plan.requested.assets.quantity asset := by
      rw [requested, assetOut]
      omega
    have left : 0 ≤ ((plan.provided inputs).assets - plan.requested.assets).quantity asset :=
      assets ▸ held asset
    have whole := MultiAsset.quantity_sub_add_le
      ((pays output member asset).trans asked) left
    have quantity : change.quantity asset =
        ((plan.provided inputs).assets - plan.requested.assets).quantity asset :=
      congrArg (MultiAsset.quantity · asset) assets
    have above := pays output member asset
    have least : signedMin ≤ 0 := by decide
    exact ⟨by omega, by omega⟩

/-! ## Whole builds -/

/-- A transaction that is too large ends its build without a report. -/
theorem events_finish_of_error {plan : Plan} {inputs : List Utxo} {balance : Balance}
    {error : BuildError} (failed : (plan.finish inputs balance).result = .error error) :
    (plan.finish inputs balance).events = [] := by
  unfold finish at failed ⊢
  simp only at failed ⊢
  split at failed
  next large => rw [if_pos large]; rfl
  next => cases failed

/-- What is reported of a build that succeeds: the size and the fee of its transaction, and before
them the change that the outputs hold beyond those of the draft. The change is less than that only
where an output has no room for it, which takes other outputs that owe assets. -/
structure Completes (plan : Plan) (context : ChainContext) (selectors : List Selector)
    (passes ending : List BuildEvent) (body : TransactionBody) : Prop where
  balanced : ∃ inputs, (plan.fund context selectors).result = .ok inputs ∧
    ending = [.balanced (plan.draft.signedSize inputs body) body.fee, .stage .finalized]
  change : ∀ address, plan.changeAddress = some address → ∃ change,
    lastChange? passes = some change ∧
      (Raises change plan.draft.outputs body.outputs ↔ plan.MergeFits address change) ∧
      (plan.SumsOutFit →
        (∀ output ∈ plan.draft.outputs, ∀ asset, 0 ≤ output.amount.quantity asset) →
        plan.MergeFits address change)

/-- What is reported of a build whose draft is prepared: first of the selectors, then of the
passes, and at the end of the transaction. -/
structure Reports (plan : Plan) (context : ChainContext) (selectors : List Selector)
    (asked passes ending : List BuildEvent) (outcome : Except BuildError Draft.Result) :
    Prop where
  asks : plan.Asks context selectors asked
  numbered : Passes 1 passes
  /-- There are passes as soon as there are inputs. -/
  unfunded : passes = [] ↔ ∃ error, (plan.fund context selectors).result = .error error
  failed : ∀ error, outcome = .error error → ending = []
  succeeded : ∀ result, outcome = .ok result →
    plan.Completes context selectors passes ending result.built.body

/-- A build whose draft is prepared. -/
def course (plan : Plan) (context : ChainContext) (selectors : List Selector) :
    Traced Draft.Result := do
  let inputs ← plan.fund context selectors
  let balance ← plan.balance inputs
  let built ← plan.finish inputs balance
  return ⟨built, plan.draft.signers inputs⟩

theorem completes_of_finish {plan : Plan} {context : ChainContext} {selectors : List Selector}
    {inputs : List Utxo} {balance : Balance} {built : BuiltTransaction}
    (funded : (plan.fund context selectors).result = .ok inputs)
    (balanced : (plan.balance inputs).result = .ok balance)
    (finished : (plan.finish inputs balance).result = .ok built) :
    plan.Completes context selectors (plan.balance inputs).events
      (plan.finish inputs balance).events built.body where
  balanced := by
    refine ⟨inputs, funded, ?_⟩
    rw [events_of_finish finished, (finish_eq_ok finished).1]
    rfl
  change address addressed := by
    obtain ⟨change, last, left, placed⟩ := placed_of_balance addressed balanced
    rw [(finish_eq_ok finished).1]
    exact ⟨change, last, raises_placed_iff placed, fun fits pays =>
      mergeFits_of_changeAt fits pays left address⟩

theorem reports_of_error {plan : Plan} {context : ChainContext} {selectors : List Selector}
    {asked passes : List BuildEvent} (asks : plan.Asks context selectors asked)
    (numbered : Passes 1 passes)
    (unfunded : passes = [] ↔ ∃ error, (plan.fund context selectors).result = .error error)
    (error : BuildError) : plan.Reports context selectors asked passes [] (.error error) where
  asks := asks
  numbered := numbered
  unfunded := unfunded
  failed _ _ := rfl
  succeeded _ done := nomatch done

theorem reports_of_ok {plan : Plan} {context : ChainContext} {selectors : List Selector}
    {asked passes ending : List BuildEvent} (asks : plan.Asks context selectors asked)
    (numbered : Passes 1 passes)
    (unfunded : passes = [] ↔ ∃ error, (plan.fund context selectors).result = .error error)
    {result : Draft.Result}
    (completes : plan.Completes context selectors passes ending result.built.body) :
    plan.Reports context selectors asked passes ending (.ok result) where
  asks := asks
  numbered := numbered
  unfunded := unfunded
  failed _ done := nomatch done
  succeeded _ done := Except.ok.inj done ▸ completes

theorem exists_reports (plan : Plan) (context : ChainContext) (selectors : List Selector) :
    ∃ asked passes ending,
      (plan.course context selectors).events = asked ++ passes ++ ending ∧
        plan.Reports context selectors asked passes ending
          (plan.course context selectors).result := by
  have asks := asks_fund plan context selectors
  unfold course
  cases funded : (plan.fund context selectors).result with
  | error error =>
      rw [Traced.bind_of_error funded]
      exact ⟨_, [], [], by rw [List.append_nil, List.append_nil],
        reports_of_error asks (.stop 1) (iff_of_true rfl ⟨error, funded⟩) error⟩
  | ok inputs =>
      obtain ⟨later, changes, reported⟩ := changes_balance plan inputs
      have numbered : Passes 1 (plan.balance inputs).events :=
        reported ▸ .estimate _ _ (by decide) changes
      have unfunded : (plan.balance inputs).events = [] ↔
          ∃ error, (plan.fund context selectors).result = .error error := by
        simp [reported, funded]
      rw [Traced.bind_of_ok funded]
      cases balanced : (plan.balance inputs).result with
      | error error =>
          rw [Traced.bind_of_error balanced]
          exact ⟨_, _, [], (List.append_nil _).symm,
            reports_of_error asks numbered unfunded error⟩
      | ok balance =>
          rw [Traced.bind_of_ok balanced]
          cases finished : (plan.finish inputs balance).result with
          | error error =>
              rw [Traced.bind_of_error finished, events_finish_of_error finished]
              exact ⟨_, _, [], (List.append_assoc ..).symm,
                reports_of_error asks numbered unfunded error⟩
          | ok built =>
              have completes := completes_of_finish funded balanced finished
              rw [Traced.bind_of_ok finished]
              refine ⟨_, _, _, ?_, reports_of_ok asks numbered unfunded completes⟩
              change _ ++ (_ ++ (_ ++ [])) = _
              rw [List.append_nil, List.append_assoc]

/-! ## The end of the reports -/

theorem Asked.stage_not_mem {answer : Selector → Except SelectionError Selection} {poolSize : Nat}
    {selectors : List Selector} {events : List BuildEvent}
    (asked : Asked answer poolSize selectors events) (stage : BuildStage) :
    .stage stage ∉ events := by
  induction asked with
  | nobody => simp
  | failure _ _ ih => simpa using ih
  | success => simp

theorem Asks.stage_not_mem {plan : Plan} {context : ChainContext} {selectors : List Selector}
    {events : List BuildEvent} (asks : plan.Asks context selectors events) (stage : BuildStage) :
    .stage stage ∉ events := by
  cases asks with
  | nobody => simp
  | inTurn _ asked => exact asked.stage_not_mem stage

mutual

theorem Passes.stage_not_mem {pass : Nat} {events : List BuildEvent} (stage : BuildStage) :
    Passes pass events → .stage stage ∉ events
  | .stop _ => List.not_mem_nil
  | .estimate _ _ _ later => by simpa using later.stage_not_mem stage

theorem Changes.stage_not_mem {pass : Nat} {events : List BuildEvent} (stage : BuildStage) :
    Changes pass events → .stage stage ∉ events
  | .stop _ => List.not_mem_nil
  | .change _ later => by simpa using later.stage_not_mem stage

end

/-- The reports end with those of a transaction exactly when there is one. -/
theorem Reports.isOk_iff {plan : Plan} {context : ChainContext} {selectors : List Selector}
    {asked passes ending : List BuildEvent} {outcome : Except BuildError Draft.Result}
    (reports : plan.Reports context selectors asked passes ending outcome) :
    (∃ result, outcome = .ok result) ↔ ∃ size fee,
      [.balanced size fee, .stage .finalized] <:+
        [.stage .accumulating, .stage .balancing] ++ asked ++ passes ++ ending := by
  constructor
  · rintro ⟨result, done⟩
    obtain ⟨inputs, _, same⟩ := (reports.succeeded result done).balanced
    rw [same]
    exact ⟨_, _, List.suffix_append _ _⟩
  · rintro ⟨size, fee, ends⟩
    cases outcome with
    | ok result => exact ⟨result, rfl⟩
    | error error =>
        have last := ends.subset (List.mem_cons_of_mem _ (List.mem_singleton_self _))
        rw [reports.failed error rfl] at last
        have unasked := reports.asks.stage_not_mem .finalized
        have unnumbered := reports.numbered.stage_not_mem .finalized
        simp [unasked, unnumbered] at last

end Plan

namespace Draft

/-- A build prepares its draft between the first two stages. -/
theorem build_eq (draft : Draft) (context : ChainContext) (selectors : List Selector)
    (changeAddress : Option Address) :
    draft.build context selectors changeAddress =
      (Traced.emit (.stage .accumulating) >>= fun _ =>
        Traced.ofExcept (draft.planned context changeAddress) >>= fun plan =>
          Traced.emit (.stage .balancing) >>= fun _ => plan.course context selectors) := by
  unfold build planned
  cases context.parameters.mapError BuildError.chain with
  | error error => rfl
  | ok parameters =>
      simp only [Except.bind, Traced.ofExcept_ok_bind]
      cases draft.prepare context parameters with
      | error error => rfl
      | ok prepared => rfl

theorem build_of_unplanned {draft : Draft} {context : ChainContext}
    {changeAddress : Option Address} {error : BuildError}
    (unplanned : draft.planned context changeAddress = .error error) (selectors : List Selector) :
    draft.build context selectors changeAddress = ⟨[.stage .accumulating], .error error⟩ := by
  rw [build_eq, unplanned]
  rfl

theorem build_of_planned {draft : Draft} {context : ChainContext} {changeAddress : Option Address}
    {plan : Plan} (planned : draft.planned context changeAddress = .ok plan)
    (selectors : List Selector) :
    draft.build context selectors changeAddress =
      ⟨[.stage .accumulating, .stage .balancing] ++ (plan.course context selectors).events,
        (plan.course context selectors).result⟩ := by
  rw [build_eq, planned]
  rfl

/-- The reports of a build tell what happens in it. -/
theorem build_reports (draft : Draft) (context : ChainContext) (selectors : List Selector)
    (changeAddress : Option Address) :
    let build := draft.build context selectors changeAddress
    ((∃ result, build.result = .ok result) ↔
        ∃ size fee, [.balanced size fee, .stage .finalized] <:+ build.events) ∧
      match draft.planned context changeAddress with
      | .error error => build = ⟨[.stage .accumulating], .error error⟩
      | .ok plan => ∃ asked passes ending,
          build.events = [.stage .accumulating, .stage .balancing] ++ asked ++ passes ++ ending ∧
            plan.Reports context selectors asked passes ending build.result := by
  cases planned : draft.planned context changeAddress with
  | error error =>
      rw [build_of_unplanned planned]
      refine ⟨⟨?_, ?_⟩, rfl⟩
      · rintro ⟨result, done⟩
        cases done
      · rintro ⟨size, fee, ends⟩
        exact absurd ends.length_le (by simp)
  | ok plan =>
      obtain ⟨asked, passes, ending, reported, reports⟩ := plan.exists_reports context selectors
      have events : [.stage .accumulating, .stage .balancing] ++
            (plan.course context selectors).events =
          [.stage .accumulating, .stage .balancing] ++ asked ++ passes ++ ending := by
        simp only [reported, List.append_assoc]
      rw [build_of_planned planned, events]
      exact ⟨reports.isOk_iff, asked, passes, ending, rfl, reports⟩

/-! ### Change without room -/

namespace Sample

/-- Pays as many tokens as there can be to the address of the change, and owes one elsewhere. -/
def owing : Draft :=
  { Draft.empty with
    options := { BuildOptions.preset with mergeChange := true }
    inputs := [utxo 10000000 9223372036854775807]
    outputs := [.plain (address 7) ⟨2000000, MultiAsset.empty.add asset 9223372036854775807⟩,
      .plain (address 9) ⟨2000000, MultiAsset.empty.add asset (-1)⟩] }

end Sample

/-- A token is reported as change and the outputs hold no more tokens than those of the draft,
which are complete as they are. -/
theorem build_reports_overfull :
    ∃ result change,
      (Sample.owing.build Sample.context [] (some (Sample.address 7))).result = .ok result ∧
      Plan.lastChange?
        (Sample.owing.build Sample.context [] (some (Sample.address 7))).events = some change ∧
      (Sample.owing.prepare Sample.context .preset).toOption.map (·.outputs) =
        some Sample.owing.outputs ∧
      ¬ Raises change Sample.owing.outputs result.built.body.outputs := by
  have holds : ((Sample.owing.build Sample.context [] (some (Sample.address 7))).result.toOption.map
      fun result => (result.built.body.outputs.map (·.amount.quantity Sample.asset)).sum) =
        some ((Sample.owing.outputs.map (·.amount.quantity Sample.asset)).sum) := by
    decide +kernel
  have reports : (Plan.lastChange?
      (Sample.owing.build Sample.context [] (some (Sample.address 7))).events).map
        (·.quantity Sample.asset) = some 1 := by decide +kernel
  obtain ⟨result, built, held⟩ := Option.map_eq_some_iff.1 holds
  obtain ⟨change, last, token⟩ := Option.map_eq_some_iff.1 reports
  refine ⟨result, change, Except.toOption_eq_some.1 built, last, by decide +kernel, ?_⟩
  intro raises
  have assets := raises.assets Sample.asset
  rw [held, token] at assets
  omega

end Draft

end UtxoLedger
