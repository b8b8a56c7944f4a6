import UtxoLedger.Proofs.Build.Inputs
import UtxoLedger.Proofs.Build.Preparation

/-!
# Builds from other inputs

The inputs that a draft is given enter a build at three places: the check, the
selection of what is missing, and the list of inputs that is spent. Everything
else depends on the inputs that are spent alone. Lists in which each name finds
the same output are spent alike.
-/

namespace UtxoLedger

/-! ## Outputs by name -/

namespace Utxo

/-- Each name finds the same output in both lists, if any. -/
def FindAlike (first second : List Utxo) : Prop :=
  ∀ name : TransactionInput, first.find? (·.input = name) = second.find? (·.input = name)

namespace FindAlike

variable {first second : List Utxo}

theorem any_eq (alike : FindAlike first second) (name : TransactionInput) :
    first.any (·.input = name) = second.any (·.input = name) := by
  rw [← List.isSome_find?, ← List.isSome_find?, alike]

theorem mem_names_iff (alike : FindAlike first second) (name : TransactionInput) :
    name ∈ first.map (·.input) ↔ name ∈ second.map (·.input) := by
  have same := alike.any_eq name
  rw [Bool.eq_iff_iff, List.any_eq_true, List.any_eq_true] at same
  simpa only [decide_eq_true_eq, List.mem_map] using same

theorem append_right (alike : FindAlike first second) (rest : List Utxo) :
    FindAlike (first ++ rest) (second ++ rest) := by
  intro name
  rw [List.find?_append, List.find?_append, alike]

theorem isEmpty_eq (alike : FindAlike first second) : first.isEmpty = second.isEmpty := by
  cases first with
  | nil =>
      cases second with
      | nil => rfl
      | cons utxo rest => simpa using alike.any_eq utxo.input
  | cons utxo rest =>
      cases second with
      | nil => simpa using alike.any_eq utxo.input
      | cons other rest => rfl

end FindAlike

end Utxo

open Utxo

/-! ## Preparation -/

namespace Draft

/-- The draft with other inputs. -/
def withInputs (draft : Draft) (inputs : List Utxo) : Draft := { draft with inputs := inputs }

variable (draft : Draft) (inputs : List Utxo)

theorem foldl_addNativeScript_withInputs (scripts : List NativeScript) :
    scripts.foldl addNativeScript (draft.withInputs inputs) =
      (scripts.foldl addNativeScript draft).withInputs inputs := by
  induction scripts generalizing draft with
  | nil => rfl
  | cons script rest ih =>
      have step : (draft.withInputs inputs).addNativeScript script =
          (draft.addNativeScript script).withInputs inputs := by
        unfold addNativeScript
        by_cases there : script ∈ draft.nativeScripts
        · rw [if_pos there, if_pos (show script ∈ (draft.withInputs inputs).nativeScripts from there)]
        · rw [if_neg there, if_neg (show script ∉ (draft.withInputs inputs).nativeScripts from there)]
          rfl
      rw [List.foldl_cons, List.foldl_cons, step, ih]

theorem withTokens_withInputs :
    (draft.withInputs inputs).withTokens = draft.withTokens.map (·.withInputs inputs) := by
  have minting := foldl_addNativeScript_withInputs
    { draft with tokens := [], mint := draft.mint + Token.mint draft.tokens } inputs
    (draft.tokens.filterMap (·.policy.script?))
  have tokens : (draft.withInputs inputs).tokens = draft.tokens := rfl
  unfold withTokens
  rw [tokens]
  cases Token.metadataEntry draft.tokens with
  | error error => rfl
  | ok entry =>
      cases entry with
      | none => exact congrArg Except.ok minting
      | some entry => exact congrArg (fun draft => Except.ok (addMetadata draft entry.1 entry.2)) minting

theorem withValidity_withInputs (context : ChainContext) :
    (draft.withInputs inputs).withValidity context =
      (draft.withValidity context).map (·.withInputs inputs) := by
  unfold withValidity
  simp only [apply_ite (Except.map fun draft : Draft => draft.withInputs inputs)]
  cases context.lastSlot <;> rfl

theorem withLeastCoin_withInputs (parameters : ProtocolParameters) :
    (draft.withInputs inputs).withLeastCoin parameters =
      (draft.withLeastCoin parameters).map (·.withInputs inputs) := by
  have outputs : (draft.withInputs inputs).outputs = draft.outputs := rfl
  unfold withLeastCoin
  rw [outputs]
  cases fillOutputs parameters 0 draft.outputs <;> rfl

/-- Inputs matter to the check alone. -/
theorem prepare_withInputs (context : ChainContext) (parameters : ProtocolParameters)
    (passes : (draft.withInputs inputs).check = draft.check) :
    (draft.withInputs inputs).prepare context parameters =
      (draft.prepare context parameters).map (·.withInputs inputs) := by
  unfold prepare
  rw [passes, withTokens_withInputs]
  cases draft.check with
  | error error => rfl
  | ok _ =>
      cases draft.withTokens with
      | error error => rfl
      | ok minting =>
          simp only [bind, Except.bind, Except.map, withValidity_withInputs]
          cases minting.withValidity context with
          | error error => rfl
          | ok bounded => exact withLeastCoin_withInputs bounded inputs parameters

end Draft

/-! ## Plans -/

namespace Plan

/-- The plan of the draft with other inputs. -/
def withInputs (plan : Plan) (inputs : List Utxo) : Plan :=
  { plan with draft := plan.draft.withInputs inputs }

theorem addCandidate_withInputs {draft : Draft} {inputs : List Utxo}
    (alike : FindAlike draft.inputs inputs) :
    addCandidate (draft.withInputs inputs) = addCandidate draft := by
  funext pool utxo
  have used : (inputs ++ pool).any (·.input = utxo.input) =
      (draft.inputs ++ pool).any (·.input = utxo.input) :=
    ((alike.append_right pool).any_eq utxo.input).symm
  unfold addCandidate
  rw [← used]
  rfl

theorem poolFrom_withInputs {draft : Draft} {inputs : List Utxo}
    (alike : FindAlike draft.inputs inputs) (context : ChainContext) (pool : List Utxo)
    (addresses : List Address) :
    poolFrom (draft.withInputs inputs) context pool addresses =
      poolFrom draft context pool addresses := by
  induction addresses generalizing pool with
  | nil => rfl
  | cons address rest ih =>
      rw [poolFrom, poolFrom, addCandidate_withInputs alike]
      cases context.utxosAt address with
      | error error => rfl
      | ok utxos => exact ih _

theorem joined_withInputs {plan : Plan} {inputs : List Utxo}
    (alike : FindAlike plan.draft.inputs inputs) :
    (plan.withInputs inputs).joined = plan.joined := by
  funext selected
  have same : distinctInputs (inputs ++ selected) =
      distinctInputs (plan.draft.inputs ++ selected) :=
    (distinctInputs_eq_of_find? (alike.append_right selected)).symm
  unfold joined
  rw [← same]
  rfl

theorem selectWith_withInputs (plan : Plan) (inputs : List Utxo) (request : SelectionRequest)
    (unfulfilled : Value) (pool : List Utxo) (selectors : List Selector) :
    (plan.withInputs inputs).selectWith request unfulfilled pool selectors =
      plan.selectWith request unfulfilled pool selectors := by
  induction selectors with
  | nil => rfl
  | cons selector rest ih =>
      rw [selectWith, selectWith, ih]
      rfl

/-- The selection depends on what the inputs provide, and on which names are taken. -/
theorem supplement_withInputs {plan : Plan} {inputs : List Utxo}
    (alike : FindAlike plan.draft.inputs inputs)
    (missing : plan.unfulfilled inputs = plan.unfulfilled plan.draft.inputs)
    (provided : plan.provided inputs = plan.provided plan.draft.inputs)
    (context : ChainContext) (selectors : List Selector) :
    (plan.withInputs inputs).supplement context selectors = plan.supplement context selectors := by
  have requested (address : Address) (unfulfilled : Value) :
      (plan.withInputs inputs).request address unfulfilled = plan.request address unfulfilled := by
    unfold request
    rw [← provided]
    rfl
  have selecting (unfulfilled : Value) :
      (plan.withInputs inputs).selectMissing context selectors unfulfilled =
        plan.selectMissing context selectors unfulfilled := by
    have empty : (plan.withInputs inputs).draft.inputs.isEmpty = plan.draft.inputs.isEmpty :=
      alike.isEmpty_eq.symm
    have pooled : poolFrom (plan.withInputs inputs).draft context []
        (plan.withInputs inputs).draft.inputAddresses =
        poolFrom plan.draft context [] plan.draft.inputAddresses :=
      poolFrom_withInputs alike context [] _
    unfold selectMissing
    simp only [empty, pooled, requested, selectWith_withInputs]
    rfl
  have asked : (plan.withInputs inputs).unfulfilled (plan.withInputs inputs).draft.inputs =
      plan.unfulfilled plan.draft.inputs := missing
  unfold supplement
  simp only [asked, selecting]

theorem conclude_withInputs (plan : Plan) (inputs : List Utxo) :
    (plan.withInputs inputs).conclude = plan.conclude := rfl

end Plan

/-! ## Whole builds -/

namespace Draft

theorem planned_withInputs (draft : Draft) (inputs : List Utxo) (context : ChainContext)
    (changeAddress : Option Address) (passes : (draft.withInputs inputs).check = draft.check) :
    (draft.withInputs inputs).planned context changeAddress =
      (draft.planned context changeAddress).map (·.withInputs inputs) := by
  unfold planned
  cases context.parameters.mapError BuildError.chain with
  | error error => rfl
  | ok parameters =>
      simp only [Except.bind, prepare_withInputs draft inputs context parameters passes]
      cases draft.prepare context parameters <;> rfl

/-- The same is selected for the draft as with the other inputs. -/
def SelectsAlike (draft : Draft) (inputs : List Utxo) (context : ChainContext)
    (selectors : List Selector) (changeAddress : Option Address) : Prop :=
  ∀ plan, draft.planned context changeAddress = .ok plan →
    (plan.withInputs inputs).supplement context selectors = plan.supplement context selectors

/-- Nothing is selected where nothing is missing. -/
theorem selectsAlike_of_fulfilled {draft : Draft} {inputs : List Utxo} {context : ChainContext}
    {selectors : List Selector} {changeAddress : Option Address}
    (fulfilled : ∀ plan, draft.planned context changeAddress = .ok plan →
      (plan.unfulfilled plan.draft.inputs).isZero = true ∧ (plan.unfulfilled inputs).isZero = true) :
    draft.SelectsAlike inputs context selectors changeAddress := by
  intro plan planned
  obtain ⟨before, after⟩ := fulfilled plan planned
  have nothing : plan.supplement context selectors = .ok [] := if_pos before
  have further : (plan.withInputs inputs).supplement context selectors = .ok [] := if_pos after
  rw [nothing, further]

/-- A build from other inputs comes to the same when they pass the check alike, go by the same
names and lead to the same selection. -/
theorem result_build_withInputs {draft : Draft} {inputs : List Utxo} {context : ChainContext}
    {selectors : List Selector} {changeAddress : Option Address}
    (passes : (draft.withInputs inputs).check = draft.check)
    (alike : FindAlike draft.inputs inputs)
    (selects : draft.SelectsAlike inputs context selectors changeAddress) :
    ((draft.withInputs inputs).build context selectors changeAddress).result =
      (draft.build context selectors changeAddress).result := by
  rw [result_build, result_build, planned_withInputs draft inputs context changeAddress passes]
  cases planned : draft.planned context changeAddress with
  | error error => rfl
  | ok plan =>
      rw [← (sameRequest_prepare (planned_eq_ok planned).2.1).inputs] at alike
      change ((plan.withInputs inputs).fund context selectors).result.bind _ =
        (plan.fund context selectors).result.bind _
      rw [Plan.result_fund, Plan.result_fund, selects plan planned, Plan.joined_withInputs alike,
        Plan.conclude_withInputs]

end Draft

end UtxoLedger
