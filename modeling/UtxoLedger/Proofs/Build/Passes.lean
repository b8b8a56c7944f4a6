import UtxoLedger.Build.Balance
import UtxoLedger.Proofs.Outcome

/-!
# The course of a build

A successful build prepares a plan, finds its inputs, balances them and
finishes the transaction. The passes that settle the fee are the iterates of
one function: a pass that confirms an estimate would be confirmed by every
later one, so the outcome is that of all passes, whether they are made or not.
-/

namespace UtxoLedger

/-- All that is left over is the fee when it is coin alone and reaches the estimate. -/
theorem surplusFee_eq_ok {provided requested : Value} {estimate fee : UInt64}
    (left : surplusFee provided requested estimate = .ok fee) :
    ∃ surplus, changeOf provided requested = .ok surplus ∧ surplus.assets.isEmpty = true ∧
      estimate ≤ surplus.coin ∧ surplus.coin = fee := by
  unfold surplusFee at left
  cases difference : changeOf provided requested with
  | error error =>
      rw [difference] at left
      cases left
  | ok surplus =>
      simp only [difference] at left
      split at left
      · cases left
      next coinAlone =>
        split at left
        · cases left
        next enough =>
          exact ⟨surplus, rfl, Decidable.not_not.1 coinAlone, UInt64.not_lt.1 enough,
            Except.ok.inj left⟩

namespace Plan

/-! ## One pass -/

/-- The outputs when a fee is paid. -/
def outputsAt (plan : Plan) (inputs : List Utxo) (address : Address) (fee : UInt64) :
    Except BuildError (List TransactionOutput) :=
  let requested := { plan.requested with coin := plan.requested.coin.saturatingAdd fee }
  (changeOf (plan.provided inputs) requested).bind (plan.placeChange address)

theorem result_outputsWithChange (plan : Plan) (inputs : List Utxo) (address : Address)
    (fee : UInt64) :
    (plan.outputsWithChange inputs address fee).result = plan.outputsAt inputs address fee := by
  unfold outputsWithChange outputsAt
  rw [Traced.result_bind]
  rfl

/-- The estimate of a pass whose transaction pays a fee. -/
def reestimate (plan : Plan) (inputs : List Utxo) (address : Address) (fee : UInt64) :
    Except BuildError UInt64 :=
  (plan.outputsAt inputs address fee).map fun outputs =>
    (plan.draft.estimate plan.parameters inputs outputs fee).2

/-! ## All passes -/

/-- The estimate after a number of passes from an estimate on. -/
def estimateAfter (plan : Plan) (inputs : List Utxo) (address : Address) :
    (passes : Nat) → UInt64 → Except BuildError UInt64
  | 0, estimate => .ok estimate
  | passes + 1, estimate =>
      (plan.reestimate inputs address estimate).bind (estimateAfter plan inputs address passes)

/-- The last pass: it is content with the larger of two estimates. -/
def settle (plan : Plan) (inputs : List Utxo) (address : Address) (last : UInt64) :
    Except BuildError Balance :=
  (plan.reestimate inputs address last).bind fun next =>
    (plan.outputsAt inputs address (max next last)).map fun outputs => ⟨outputs, max next last⟩

theorem reestimate_of_outputsAt {plan : Plan} {inputs : List Utxo} {address : Address}
    {estimate : UInt64} {outputs : List TransactionOutput}
    (made : plan.outputsAt inputs address estimate = .ok outputs) :
    plan.reestimate inputs address estimate =
      .ok (plan.draft.estimate plan.parameters inputs outputs estimate).2 := by
  rw [reestimate, made]
  rfl

theorem estimateAfter_of_confirmed {plan : Plan} {inputs : List Utxo} {address : Address}
    {estimate : UInt64} (confirmed : plan.reestimate inputs address estimate = .ok estimate)
    (passes : Nat) : plan.estimateAfter inputs address passes estimate = .ok estimate := by
  induction passes with
  | zero => rfl
  | succ passes ih => rw [estimateAfter, confirmed]; exact ih

/-- The estimate of one more pass. -/
theorem estimateAfter_succ (plan : Plan) (inputs : List Utxo) (address : Address)
    (passes : Nat) (estimate : UInt64) :
    plan.estimateAfter inputs address (passes + 1) estimate =
      (plan.estimateAfter inputs address passes estimate).bind
        (plan.reestimate inputs address) := by
  induction passes generalizing estimate with
  | zero =>
      change (plan.reestimate inputs address estimate).bind _ =
        plan.reestimate inputs address estimate
      cases plan.reestimate inputs address estimate <;> rfl
  | succ passes ih =>
      rw [estimateAfter, estimateAfter]
      cases plan.reestimate inputs address estimate with
      | error error => rfl
      | ok next => exact ih next

/-- One pass of the settling. -/
theorem result_settleFee_step (plan : Plan) (inputs : List Utxo) (address : Address) (pass : Nat)
    (estimate : UInt64) (later : Nat) :
    (plan.settleFee inputs address pass estimate later).result =
      (plan.outputsAt inputs address estimate).bind fun outputs =>
        let next := (plan.draft.estimate plan.parameters inputs outputs estimate).2
        if next = estimate then .ok ⟨outputs, next⟩
        else
          match later with
          | 0 => (plan.outputsAt inputs address (max next estimate)).map
              fun outputs => ⟨outputs, max next estimate⟩
          | fewer + 1 => (plan.settleFee inputs address (pass + 1) next fewer).result := by
  rw [settleFee, Traced.result_bind, result_outputsWithChange]
  congr 1
  funext outputs
  have reported (report : Bool) (event : BuildEvent) (next : Unit → Traced Balance) :
      (if report = true then Traced.emit event >>= next else next ()).result = (next ()).result := by
    cases report <;> rfl
  simp only [reported]
  split
  · rfl
  · cases later with
    | zero =>
        simp only
        rw [Traced.result_bind, result_outputsWithChange]
        cases plan.outputsAt inputs address _ <;> rfl
    | succ later => rfl

/-- Settling stops early only where all passes come to the same. -/
theorem result_settleFee (plan : Plan) (inputs : List Utxo) (address : Address) (pass : Nat)
    (estimate : UInt64) (later : Nat) :
    (plan.settleFee inputs address pass estimate later).result =
      (plan.estimateAfter inputs address later estimate).bind (plan.settle inputs address) := by
  induction later generalizing pass estimate with
  | zero =>
      rw [result_settleFee_step]
      change _ = plan.settle inputs address estimate
      unfold settle reestimate
      cases made : plan.outputsAt inputs address estimate with
      | error error => rfl
      | ok outputs =>
          simp only [Except.bind, Except.map]
          split
          next confirmed => rw [confirmed, UInt64.max_same, made]
          next => rfl
  | succ later ih =>
      rw [result_settleFee_step, estimateAfter]
      cases made : plan.outputsAt inputs address estimate with
      | error error => simp only [reestimate, made, Except.bind, Except.map]
      | ok outputs =>
          have next := reestimate_of_outputsAt made
          by_cases confirmed :
              (plan.draft.estimate plan.parameters inputs outputs estimate).2 = estimate
          · rw [confirmed] at next
            simp only [next, Except.bind, confirmed, if_true, settle,
              estimateAfter_of_confirmed next later, UInt64.max_same, made, Except.map]
          · simp only [next, Except.bind, confirmed, if_false]
            exact ih (pass + 1) _

/-- The estimate of each pass, counted from zero. -/
def passEstimate (plan : Plan) (inputs : List Utxo) (address : Address) (pass : Nat) :
    Except BuildError UInt64 :=
  plan.estimateAfter inputs address pass (plan.firstEstimate inputs).2

theorem passEstimate_succ (plan : Plan) (inputs : List Utxo) (address : Address) (pass : Nat) :
    plan.passEstimate inputs address (pass + 1) =
      (plan.passEstimate inputs address pass).bind (plan.reestimate inputs address) :=
  estimateAfter_succ plan inputs address pass _

theorem result_balance_of_address {plan : Plan} {address : Address} (inputs : List Utxo)
    (addressed : plan.changeAddress = some address) :
    (plan.balance inputs).result =
      (plan.passEstimate inputs address laterPasses).bind (plan.settle inputs address) := by
  unfold balance
  simp only [addressed, Traced.result_emit_bind]
  exact result_settleFee plan inputs address 2 _ laterPasses

theorem result_balance_of_none {plan : Plan} (inputs : List Utxo)
    (unaddressed : plan.changeAddress = none) :
    (plan.balance inputs).result =
      (surplusFee (plan.provided inputs) plan.requested (plan.firstEstimate inputs).2).map
        fun fee => ⟨plan.draft.outputs, fee⟩ := by
  unfold balance
  simp only [unaddressed, Traced.result_emit_bind]
  rw [Traced.result_bind]
  cases surplusFee (plan.provided inputs) plan.requested (plan.firstEstimate inputs).2 <;> rfl

/-- The outputs of a balance with a change address are those that its fee leaves. -/
theorem outputsAt_of_balance {plan : Plan} {inputs : List Utxo} {address : Address}
    {balance : Balance} (addressed : plan.changeAddress = some address)
    (balanced : (plan.balance inputs).result = .ok balance) :
    plan.outputsAt inputs address balance.fee = .ok balance.outputs := by
  rw [result_balance_of_address inputs addressed] at balanced
  obtain ⟨last, _, settled⟩ := Except.bind_eq_ok.1 balanced
  obtain ⟨next, _, final⟩ := Except.bind_eq_ok.1 settled
  obtain ⟨outputs, made, rfl⟩ := Except.map_eq_ok.1 final
  exact made

/-- A transaction is finished with its balance and the witnesses and data of its draft, unless it
is too large. -/
theorem built_of_finish {plan : Plan} {inputs : List Utxo} {balance : Balance}
    {built : BuiltTransaction} (finished : (plan.finish inputs balance).result = .ok built) :
    built = ⟨plan.draft.body inputs balance.outputs balance.fee, plan.draft.witnesses,
        plan.draft.auxiliaryData⟩ ∧
      plan.draft.signedSize inputs built.body ≤ plan.parameters.maxTxSize := by
  unfold finish at finished
  by_cases large :
      plan.parameters.maxTxSize < plan.draft.signedSize inputs
        (plan.draft.body inputs balance.outputs balance.fee)
  · simp [large] at finished
  · simp only [if_neg large, Traced.result_emit_bind, Traced.result_pure,
      Except.ok.injEq] at finished
    rw [← finished]
    exact ⟨rfl, UInt64.not_lt.1 large⟩

theorem finish_eq_ok {plan : Plan} {inputs : List Utxo} {balance : Balance}
    {built : BuiltTransaction} (finished : (plan.finish inputs balance).result = .ok built) :
    built.body = plan.draft.body inputs balance.outputs balance.fee ∧
      plan.draft.signedSize inputs built.body ≤ plan.parameters.maxTxSize := by
  obtain ⟨made, small⟩ := built_of_finish finished
  exact ⟨congrArg BuiltTransaction.body made, small⟩

/-- What is reported of a finished transaction. -/
theorem events_of_finish {plan : Plan} {inputs : List Utxo} {balance : Balance}
    {built : BuiltTransaction} (finished : (plan.finish inputs balance).result = .ok built) :
    (plan.finish inputs balance).events =
      [.balanced (plan.draft.signedSize inputs built.body) balance.fee, .stage .finalized] := by
  have body := (finish_eq_ok finished).1
  have small := UInt64.not_lt.2 (finish_eq_ok finished).2
  rw [body] at small ⊢
  unfold finish
  simp only [if_neg small]
  rfl

/-- What becomes of the inputs of a plan. -/
def conclude (plan : Plan) (inputs : List Utxo) : Except BuildError Draft.Result :=
  (plan.balance inputs).result.bind fun balance =>
    (plan.finish inputs balance).result.map fun built => ⟨built, plan.draft.signers inputs⟩

theorem inputs_of_conclude {plan : Plan} {inputs : List Utxo} {result : Draft.Result}
    (done : plan.conclude inputs = .ok result) :
    result.built.body.inputs.items = inputs.map (·.input) := by
  obtain ⟨balance, _, rest⟩ := Except.bind_eq_ok.1 done
  obtain ⟨built, finished, rfl⟩ := Except.map_eq_ok.1 rest
  rw [(finish_eq_ok finished).1]
  rfl

end Plan

/-! ## Whole builds -/

namespace Draft

/-- What the draft is balanced with. -/
def planned (draft : Draft) (context : ChainContext) (changeAddress : Option Address) :
    Except BuildError Plan :=
  (context.parameters.mapError .chain).bind fun parameters =>
    (draft.prepare context parameters).map fun prepared => ⟨prepared, parameters, changeAddress⟩

theorem planned_eq_ok {draft : Draft} {context : ChainContext} {changeAddress : Option Address}
    {plan : Plan} (planned : draft.planned context changeAddress = .ok plan) :
    context.parameters = .ok plan.parameters ∧
      draft.prepare context plan.parameters = .ok plan.draft ∧
      plan.changeAddress = changeAddress := by
  obtain ⟨parameters, asked, preparing⟩ := Except.bind_eq_ok.1 planned
  obtain ⟨prepared, done, rfl⟩ := Except.map_eq_ok.1 preparing
  exact ⟨Except.mapError_eq_ok.1 asked, done, rfl⟩

/-- The outcome of a build is that of its parts in turn. -/
theorem result_build (draft : Draft) (context : ChainContext) (selectors : List Selector)
    (changeAddress : Option Address) :
    (draft.build context selectors changeAddress).result =
      (draft.planned context changeAddress).bind fun plan =>
        (plan.fund context selectors).result.bind plan.conclude := by
  unfold build planned
  simp only [Traced.result_bind, Traced.result_ofExcept]
  cases context.parameters.mapError BuildError.chain with
  | error error => rfl
  | ok parameters =>
      simp only [Except.bind]
      cases draft.prepare context parameters with
      | error error => rfl
      | ok prepared =>
          simp only [Except.map, Plan.conclude]
          rfl

/-- What a successful build goes through. -/
structure Run (draft : Draft) (context : ChainContext) (selectors : List Selector)
    (changeAddress : Option Address) (plan : Plan) (inputs : List Utxo) (balance : Plan.Balance)
    (result : Result) : Prop where
  parameters : context.parameters = .ok plan.parameters
  prepared : draft.prepare context plan.parameters = .ok plan.draft
  addressed : plan.changeAddress = changeAddress
  funded : (plan.fund context selectors).result = .ok inputs
  balanced : (plan.balance inputs).result = .ok balance
  finished : (plan.finish inputs balance).result = .ok result.built
  reported : (plan.finish inputs balance).events <:+
    (draft.build context selectors changeAddress).events

/-- Every successful build is a run. -/
theorem exists_run {draft : Draft} {context : ChainContext} {selectors : List Selector}
    {changeAddress : Option Address} {result : Result}
    (built : (draft.build context selectors changeAddress).result = .ok result) :
    ∃ plan inputs balance, draft.Run context selectors changeAddress plan inputs balance result := by
  obtain ⟨_, _, rest, first⟩ := Traced.exists_of_bind_eq_ok built
  obtain ⟨parameters, asked, rest, second⟩ := Traced.exists_of_bind_eq_ok rest
  obtain ⟨prepared, preparing, rest, third⟩ := Traced.exists_of_bind_eq_ok rest
  obtain ⟨_, _, rest, fourth⟩ := Traced.exists_of_bind_eq_ok rest
  obtain ⟨inputs, funded, rest, fifth⟩ := Traced.exists_of_bind_eq_ok rest
  obtain ⟨balance, balanced, rest, sixth⟩ := Traced.exists_of_bind_eq_ok rest
  obtain ⟨transaction, finished, made⟩ := Traced.result_bind_eq_ok.1 rest
  have answered : context.parameters = .ok parameters := Except.mapError_eq_ok.1 asked
  have same : transaction = result.built := by rw [← Except.ok.inj made]
  subst same
  refine ⟨⟨prepared, parameters, changeAddress⟩, inputs, balance, answered, preparing, rfl, funded,
    balanced, finished, ?_⟩
  rw [Traced.events_bind_pure] at sixth
  exact (((((sixth.trans fifth).trans fourth).trans third).trans second).trans first)

/-- The context and the draft determine the plan of a run. -/
theorem Run.plan_eq {draft prepared : Draft} {context : ChainContext} {selectors : List Selector}
    {changeAddress : Option Address} {plan : Plan} {inputs : List Utxo} {balance : Plan.Balance}
    {result : Result} {parameters : ProtocolParameters}
    (run : draft.Run context selectors changeAddress plan inputs balance result)
    (asked : context.parameters = .ok parameters)
    (preparing : draft.prepare context parameters = .ok prepared) :
    plan = ⟨prepared, parameters, changeAddress⟩ := by
  obtain ⟨found, others, change⟩ := plan
  obtain rfl : others = parameters := Except.ok.inj (run.parameters.symm.trans asked)
  obtain rfl : found = prepared := Except.ok.inj (run.prepared.symm.trans preparing)
  obtain rfl : change = changeAddress := run.addressed
  rfl

end Draft

end UtxoLedger
