import UtxoLedger.Build.Draft

/-!
# What preparation settles

Preparing a draft settles its tokens, scripts, metadata, validity and the coin
of its outputs. Everything else of the draft stays as the caller gave it, and
of an output nothing but the coin that it lacks is filled in.
-/

namespace UtxoLedger

/-! ## The coin of outputs -/

namespace TransactionOutput

/-- The output carries the least coin it needs. -/
def MeetsMinimum (output : TransactionOutput) (parameters : ProtocolParameters) : Prop :=
  output.minCoin parameters ≤ output.amount.coin

/-- The output with coin, which is the least it needs when it has none. -/
def filled (output : TransactionOutput) (parameters : ProtocolParameters) : TransactionOutput :=
  let coin := if output.amount.coin = 0 then output.minCoin parameters else output.amount.coin
  { output with amount := { output.amount with coin := coin } }

theorem filled_of_coin {output : TransactionOutput} {parameters : ProtocolParameters}
    (coin : output.amount.coin ≠ 0) : output.filled parameters = output := by
  rw [filled, if_neg coin]

end TransactionOutput

namespace Draft

/-- Outputs are filled one by one, and those that have coin have enough. -/
theorem fillOutputs_eq_ok {parameters : ProtocolParameters} {place : Nat}
    {outputs filled : List TransactionOutput}
    (done : fillOutputs parameters place outputs = .ok filled) :
    filled = outputs.map (·.filled parameters) ∧
      ∀ output ∈ outputs, output.amount.coin = 0 ∨ output.MeetsMinimum parameters := by
  induction outputs generalizing place filled with
  | nil => exact ⟨(Except.ok.inj done).symm, fun _ none => absurd none List.not_mem_nil⟩
  | cons output rest ih =>
      unfold fillOutputs at done
      simp only at done
      split at done
      · cases done
      next enough =>
        cases filling : fillOutputs parameters (place + 1) rest with
        | error error => simp [filling] at done
        | ok others =>
            obtain ⟨made, later⟩ := ih filling
            rw [filling] at done
            refine ⟨(Except.ok.inj done).symm.trans (congrArg _ made), ?_⟩
            refine List.forall_mem_cons.2 ⟨?_, later⟩
            by_cases coinless : output.amount.coin = 0
            · exact .inl coinless
            · simp only [coinless, ne_eq, not_false_eq_true, decide_true, Bool.true_and,
                decide_eq_true_eq] at enough
              exact .inr (UInt64.not_lt.1 enough)

/-! ## What preparation may change -/

theorem foldl_addNativeScript_eq (scripts : List NativeScript) (draft : Draft) :
    ∃ nativeScripts, scripts.foldl addNativeScript draft =
      { draft with nativeScripts := nativeScripts } := by
  induction scripts generalizing draft with
  | nil => exact ⟨draft.nativeScripts, rfl⟩
  | cons script rest ih =>
      obtain ⟨nativeScripts, added⟩ := ih (draft.addNativeScript script)
      refine ⟨nativeScripts, added.trans ?_⟩
      unfold addNativeScript
      split <;> rfl

theorem withTokens_eq_ok {draft minting : Draft} (done : draft.withTokens = .ok minting) :
    ∃ mint nativeScripts auxiliaryData,
      minting = { draft with
        tokens := []
        mint := mint
        nativeScripts := nativeScripts
        auxiliaryData := auxiliaryData } := by
  unfold withTokens at done
  obtain ⟨nativeScripts, scripted⟩ := foldl_addNativeScript_eq
    (draft.tokens.filterMap (·.policy.script?))
    { draft with tokens := [], mint := draft.mint + Token.mint draft.tokens }
  cases metadata : Token.metadataEntry draft.tokens with
  | error error => simp [metadata] at done
  | ok entry =>
      simp only [metadata, scripted] at done
      cases entry with
      | none => exact ⟨_, nativeScripts, draft.auxiliaryData, (Except.ok.inj done).symm⟩
      | some entry => exact ⟨_, nativeScripts, _, (Except.ok.inj done).symm⟩

theorem withValidity_eq_ok {draft bounded : Draft} {context : ChainContext}
    (done : draft.withValidity context = .ok bounded) :
    ∃ validityStart timeToLive,
      bounded = { draft with validityStart := validityStart, timeToLive := timeToLive } := by
  unfold withValidity at done
  simp only at done
  split at done
  · exact ⟨draft.validityStart, draft.timeToLive, (Except.ok.inj done).symm⟩
  · cases asked : context.lastSlot with
    | error error => simp [asked] at done
    | ok slot =>
        simp only [asked] at done
        exact ⟨_, _, (Except.ok.inj done).symm⟩

theorem withLeastCoin_eq_ok {draft filled : Draft} {parameters : ProtocolParameters}
    (done : draft.withLeastCoin parameters = .ok filled) :
    ∃ outputs, fillOutputs parameters 0 draft.outputs = .ok outputs ∧
      filled = { draft with outputs := outputs } := by
  unfold withLeastCoin at done
  cases filling : fillOutputs parameters 0 draft.outputs with
  | error error => simp [filling] at done
  | ok outputs =>
      simp only [filling, Except.ok.injEq] at done
      exact ⟨outputs, rfl, done.symm⟩

/-- Preparation settles tokens, scripts, metadata, validity and coin, and nothing else. -/
theorem prepare_eq_ok {draft prepared : Draft} {context : ChainContext}
    {parameters : ProtocolParameters} (done : draft.prepare context parameters = .ok prepared) :
    ∃ mint nativeScripts auxiliaryData validityStart timeToLive outputs,
      fillOutputs parameters 0 draft.outputs = .ok outputs ∧
      prepared = { draft with
        tokens := []
        mint := mint
        nativeScripts := nativeScripts
        auxiliaryData := auxiliaryData
        validityStart := validityStart
        timeToLive := timeToLive
        outputs := outputs } := by
  unfold prepare at done
  cases checked : draft.check with
  | error error => simp [checked, bind, Except.bind] at done
  | ok _ =>
      cases minted : draft.withTokens with
      | error error => simp [checked, minted, bind, Except.bind] at done
      | ok minting =>
          cases bounding : minting.withValidity context with
          | error error => simp [checked, minted, bounding, bind, Except.bind] at done
          | ok bounded =>
              simp only [checked, minted, bounding, bind, Except.bind] at done
              obtain ⟨mint, nativeScripts, auxiliaryData, rfl⟩ := withTokens_eq_ok minted
              obtain ⟨validityStart, timeToLive, rfl⟩ := withValidity_eq_ok bounding
              obtain ⟨outputs, filling, rfl⟩ := withLeastCoin_eq_ok done
              exact ⟨mint, nativeScripts, auxiliaryData, validityStart, timeToLive, outputs,
                filling, rfl⟩

/-- What is prepared has passed the check. -/
theorem check_of_prepare {draft prepared : Draft} {context : ChainContext}
    {parameters : ProtocolParameters} (done : draft.prepare context parameters = .ok prepared) :
    draft.check = .ok () := by
  unfold prepare at done
  cases checked : draft.check with
  | error error => simp [checked, bind, Except.bind] at done
  | ok _ => rfl

/-- The check asks for a donation of something, if any, and for inputs that are not excluded. -/
theorem check_eq_ok_iff (draft : Draft) :
    draft.check = .ok () ↔ draft.donation ≠ some 0 ∧
      ∀ utxo ∈ draft.inputs, utxo.input ∉ draft.excludedInputs := by
  unfold check
  by_cases nothing : draft.donation = some 0
  · simp [nothing]
  · rw [if_neg nothing]
    cases found : draft.inputs.find? fun utxo => utxo.input ∈ draft.excludedInputs with
    | none => simpa [nothing] using List.find?_eq_none.1 found
    | some conflict =>
        have excluded : conflict.input ∈ draft.excludedInputs := by
          simpa using List.find?_some found
        simpa [nothing] using ⟨conflict, List.mem_of_find?_eq_some found, excluded⟩

/-- Two drafts agree in all parts that preparation does not settle. -/
structure SameRequest (draft other : Draft) : Prop where
  options : other.options = draft.options
  inputs : other.inputs = draft.inputs
  inputAddresses : other.inputAddresses = draft.inputAddresses
  excludedInputs : other.excludedInputs = draft.excludedInputs
  referenceInputs : other.referenceInputs = draft.referenceInputs
  certificates : other.certificates = draft.certificates
  withdrawals : other.withdrawals = draft.withdrawals
  requiredSigners : other.requiredSigners = draft.requiredSigners
  votes : other.votes = draft.votes
  proposals : other.proposals = draft.proposals
  treasuryValue : other.treasuryValue = draft.treasuryValue
  donation : other.donation = draft.donation

theorem sameRequest_prepare {draft prepared : Draft} {context : ChainContext}
    {parameters : ProtocolParameters} (done : draft.prepare context parameters = .ok prepared) :
    draft.SameRequest prepared := by
  obtain ⟨_, _, _, _, _, _, _, rfl⟩ := prepare_eq_ok done
  constructor <;> rfl

end Draft

end UtxoLedger
