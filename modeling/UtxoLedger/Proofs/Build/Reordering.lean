import Mathlib.Data.List.Nodup
import UtxoLedger.Proofs.Address.Places
import UtxoLedger.Proofs.Build.FeeSufficiency
import UtxoLedger.Proofs.Build.GivenInputs
import UtxoLedger.Proofs.Selection.Coverage

/-!
# The order of calls

It does not matter in which order a draft is given its inputs and its
withdrawals. The inputs are counted and sized before they are sorted, so the
estimate of the fee, what is missing and the pool have to be the same for
every order; the withdrawals are a map from the start. Its places are the
written forms of accounts, so the order does matter for withdrawals from two
accounts with one written form, of which only the later one stays.
-/

namespace UtxoLedger

open Utxo

/-! ## Outputs by name -/

namespace Utxo

/-- Where names are distinct, a name finds the output that has it. -/
theorem find?_eq_some_iff {utxos : List Utxo} (distinct : (utxos.map (·.input)).Nodup)
    {name : TransactionInput} {utxo : Utxo} :
    utxos.find? (·.input = name) = some utxo ↔ utxo ∈ utxos ∧ utxo.input = name := by
  constructor
  · intro found
    exact ⟨List.mem_of_find?_eq_some found, by simpa using List.find?_some found⟩
  · rintro ⟨member, rfl⟩
    obtain ⟨other, found, same⟩ := Plan.exists_find?_of_mem member
    rw [found, List.inj_on_of_nodup_map distinct (List.mem_of_find?_eq_some found) member same]

theorem findAlike_of_perm {first second : List Utxo} (same : first.Perm second)
    (distinct : (first.map (·.input)).Nodup) : FindAlike first second := by
  have apart : (second.map (·.input)).Nodup := (same.map (·.input)).nodup_iff.1 distinct
  intro name
  apply Option.ext
  intro utxo
  rw [find?_eq_some_iff distinct, find?_eq_some_iff apart, same.mem_iff]

end Utxo

/-! ## What is read before the inputs are sorted -/

namespace Draft

variable {inputs others : List Utxo}

theorem signers_perm (draft : Draft) (same : inputs.Perm others) :
    draft.signers inputs = draft.signers others := by
  apply OrderedSet.ofList_eq
  intro key
  simp only [List.mem_append, (same.filterMap (·.output.address.paymentKeyHash?)).mem_iff]

theorem length_encode_inputs (same : inputs.Perm others) :
    (Cbor.encode (Cbor.WireSet.plain (inputs.map (·.input)))).length =
      (Cbor.encode (Cbor.WireSet.plain (others.map (·.input)))).length := by
  have names := same.map (·.input)
  change (Cbor.encodeList Cbor.encode (inputs.map (·.input))).length =
    (Cbor.encodeList Cbor.encode (others.map (·.input))).length
  unfold Cbor.encodeList Cbor.encodeAll
  rw [List.length_append, List.length_append, names.length_eq, (names.flatMap_right _).length_eq]

theorem signedSize_perm (draft : Draft) (same : inputs.Perm others)
    (outputs : List TransactionOutput) (fee : UInt64) :
    draft.signedSize inputs (draft.body inputs outputs fee) =
      draft.signedSize others (draft.body others outputs fee) := by
  have names := length_encode_inputs same
  have bodies : (Cbor.encode (draft.body inputs outputs fee)).length =
      (Cbor.encode (draft.body others outputs fee)).length :=
    Nat.le_antisymm
      (draft.length_encode_body_le (Nat.le_of_eq names) outputs (UInt64.le_refl fee))
      (draft.length_encode_body_le (Nat.le_of_eq names.symm) outputs (UInt64.le_refl fee))
  have counted : draft.signatureCount inputs = draft.signatureCount others := by
    unfold signatureCount
    rw [draft.signers_perm same]
  unfold signedSize placeholderTransaction
  rw [counted]
  apply congrArg UInt64.ofNat
  change (Cbor.Encoder.array 4 ++ Cbor.encode (draft.body inputs outputs fee) ++ _ ++ _ ++ _).length =
    (Cbor.Encoder.array 4 ++ Cbor.encode (draft.body others outputs fee) ++ _ ++ _ ++ _).length
  simp only [List.length_append, bodies]

theorem estimate_perm (draft : Draft) (parameters : ProtocolParameters) (same : inputs.Perm others)
    (outputs : List TransactionOutput) (fee : UInt64) :
    draft.estimate parameters inputs outputs fee = draft.estimate parameters others outputs fee := by
  unfold estimate
  rw [draft.signedSize_perm same]

theorem provided_perm (draft : Draft) (parameters : ProtocolParameters) (same : inputs.Perm others)
    (all : Nonnegative inputs) :
    draft.provided parameters inputs = draft.provided parameters others := by
  unfold provided
  rw [total_perm same all]

end Draft

theorem Plan.unfulfilled_perm (plan : Plan) {inputs others : List Utxo} (same : inputs.Perm others)
    (all : Nonnegative inputs) : plan.unfulfilled inputs = plan.unfulfilled others := by
  unfold unfulfilled firstEstimate provided
  rw [plan.draft.estimate_perm plan.parameters same, plan.draft.provided_perm plan.parameters same all]

/-! ## Whole builds -/

namespace Draft

section

variable {draft : Draft} {inputs : List Utxo} {context : ChainContext} {selectors : List Selector}
  {changeAddress : Option Address}

theorem check_perm (same : draft.inputs.Perm inputs) (passed : draft.check = .ok ()) :
    (draft.withInputs inputs).check = .ok () := by
  rw [check_eq_ok_iff] at passed ⊢
  obtain ⟨donation, unexcluded⟩ := passed
  exact ⟨donation, fun utxo member => unexcluded utxo (same.mem_iff.2 member)⟩

theorem selectsAlike_perm (same : draft.inputs.Perm inputs)
    (distinct : (draft.inputs.map (·.input)).Nodup) (all : Nonnegative draft.inputs) :
    draft.SelectsAlike inputs context selectors changeAddress := by
  intro plan planned
  have kept : plan.draft.inputs = draft.inputs :=
    (sameRequest_prepare (planned_eq_ok planned).2.1).inputs
  rw [← kept] at same distinct all
  apply Plan.supplement_withInputs (findAlike_of_perm same distinct)
  · exact (plan.unfulfilled_perm same all).symm
  · exact (plan.draft.provided_perm plan.parameters same all).symm

/-- A build that succeeds comes to the same with the inputs in another order. -/
theorem build_perm (same : draft.inputs.Perm inputs)
    (distinct : (draft.inputs.map (·.input)).Nodup) (all : Nonnegative draft.inputs)
    {result : Result} (built : (draft.build context selectors changeAddress).result = .ok result) :
    ((draft.withInputs inputs).build context selectors changeAddress).result = .ok result := by
  obtain ⟨plan, spent, balance, run⟩ := exists_run built
  have passed := check_of_prepare run.prepared
  have passes : (draft.withInputs inputs).check = draft.check :=
    (check_perm same passed).trans passed.symm
  rw [result_build_withInputs passes (findAlike_of_perm same distinct)
    (selectsAlike_perm same distinct all)]
  exact built

end

/-! ### Calls -/

/-- The draft after inputs are given to it and withdrawals set, one call after the other. -/
def giving (draft : Draft) (inputs : List Utxo) (withdrawals : List (StakeAddress × UInt64)) :
    Draft :=
  withdrawals.foldl (fun draft withdrawal => draft.setWithdrawal withdrawal.1 withdrawal.2)
    (inputs.foldl addInput draft)

theorem foldl_addInput (draft : Draft) (inputs : List Utxo) :
    inputs.foldl addInput draft = draft.withInputs (draft.inputs ++ inputs) := by
  induction inputs generalizing draft with
  | nil =>
      rw [List.append_nil]
      rfl
  | cons first rest ih =>
      rw [List.foldl_cons, ih, List.append_cons]
      rfl

theorem foldl_setWithdrawal (draft : Draft) (withdrawals : List (StakeAddress × UInt64)) :
    withdrawals.foldl (fun draft withdrawal => draft.setWithdrawal withdrawal.1 withdrawal.2) draft =
      { draft with
        withdrawals := withdrawals.foldl (fun map pair => map.insert pair.1 pair.2)
          draft.withdrawals } := by
  induction withdrawals generalizing draft with
  | nil => rfl
  | cons first rest ih =>
      rw [List.foldl_cons, ih]
      rfl

theorem giving_eq (draft : Draft) (inputs : List Utxo)
    (withdrawals : List (StakeAddress × UInt64)) :
    draft.giving inputs withdrawals =
      { draft.withInputs (draft.inputs ++ inputs) with
        withdrawals := withdrawals.foldl (fun map pair => map.insert pair.1 pair.2)
          draft.withdrawals } := by
  rw [giving, foldl_addInput, foldl_setWithdrawal]
  rfl

/-- Withdrawals of accounts with different written forms, by which a body lists them, may be set in
any order. -/
theorem giving_perm (draft : Draft) (inputs : List Utxo)
    {withdrawals others : List (StakeAddress × UInt64)} (same : withdrawals.Perm others)
    (accounts : (withdrawals.map (·.1.toBytes)).Nodup) :
    draft.giving inputs withdrawals = draft.giving inputs others := by
  rw [giving_eq, giving_eq, StakeAddress.foldl_insert_perm same accounts]

section

variable {draft : Draft} {inputs otherInputs : List Utxo}
  {withdrawals otherWithdrawals : List (StakeAddress × UInt64)}

/-- A build that succeeds comes to the same when the calls are made in another order. -/
theorem build_giving_perm (sameInputs : inputs.Perm otherInputs)
    (sameWithdrawals : withdrawals.Perm otherWithdrawals)
    (distinct : ((draft.inputs ++ inputs).map (·.input)).Nodup)
    (nonnegative : Nonnegative (draft.inputs ++ inputs))
    (accounts : (withdrawals.map (·.1.toBytes)).Nodup)
    {context : ChainContext} {selectors : List Selector} {changeAddress : Option Address}
    {result : Result}
    (built : ((draft.giving inputs withdrawals).build context selectors changeAddress).result =
      .ok result) :
    ((draft.giving otherInputs otherWithdrawals).build context selectors changeAddress).result =
      .ok result := by
  have reordered : draft.giving otherInputs otherWithdrawals =
      (draft.giving inputs withdrawals).withInputs (draft.inputs ++ otherInputs) := by
    rw [← draft.giving_perm otherInputs sameWithdrawals accounts, giving_eq, giving_eq]
    rfl
  have given : (draft.giving inputs withdrawals).inputs = draft.inputs ++ inputs := by
    rw [giving_eq]
    rfl
  rw [reordered]
  apply build_perm _ _ _ built
  · rw [given]
    exact sameInputs.append_left draft.inputs
  · rw [given]
    exact distinct
  · rw [given]
    exact nonnegative

/-- Drafts that differ in the order of the calls that give inputs and set withdrawals come to the
same, when no two withdrawals are from accounts with one written form. -/
theorem build_reordered (sameInputs : inputs.Perm otherInputs)
    (sameWithdrawals : withdrawals.Perm otherWithdrawals)
    (distinct : ((draft.inputs ++ inputs).map (·.input)).Nodup)
    (nonnegative : Nonnegative (draft.inputs ++ inputs))
    (accounts : (withdrawals.map (·.1.toBytes)).Nodup)
    (context : ChainContext) (selectors : List Selector) (changeAddress : Option Address)
    (result : Result) :
    ((draft.giving inputs withdrawals).build context selectors changeAddress).result =
        .ok result ↔
      ((draft.giving otherInputs otherWithdrawals).build context selectors changeAddress).result =
        .ok result := by
  have names := (sameInputs.append_left draft.inputs).map (·.input)
  constructor
  · exact build_giving_perm sameInputs sameWithdrawals distinct nonnegative accounts
  · apply build_giving_perm sameInputs.symm sameWithdrawals.symm
    · exact names.nodup_iff.1 distinct
    · intro utxo member
      exact nonnegative utxo ((sameInputs.append_left draft.inputs).mem_iff.2 member)
    · exact (sameWithdrawals.map (·.1.toBytes)).nodup_iff.1 accounts

end

/-! ### Withdrawals of one place -/

section

variable {draft : Draft} {context : ChainContext} {selectors : List Selector}
  {changeAddress : Option Address}

/-- A body withdraws what its draft does. -/
theorem withdrawals_of_build {result : Result}
    (built : (draft.build context selectors changeAddress).result = .ok result) :
    result.built.body.withdrawals.getD .empty = draft.withdrawals := by
  obtain ⟨plan, inputs, balance, run⟩ := exists_run built
  rw [(Plan.finish_eq_ok run.finished).1, ← (sameRequest_prepare run.prepared).withdrawals]
  change Option.getD (if plan.draft.withdrawals.isEmpty then none else some plan.draft.withdrawals)
    .empty = _
  split
  next nothing => exact (OrderedMap.ext (List.isEmpty_iff.1 nothing)).symm
  next => rfl

/-- Of two withdrawals at one place the later one stays. -/
theorem atPlace?_withdrawals_giving (draft : Draft) (inputs : List Utxo)
    {first second : StakeAddress} (shared : first.toBytes = second.toBytes)
    (amount other : UInt64) :
    (draft.giving inputs [(first, amount), (second, other)]).withdrawals.atPlace? first =
      some other := by
  rw [giving_eq]
  refine (OrderedMap.atPlace?_foldl_insert [(first, amount), (second, other)] _ _).trans ?_
  change ((if Ranked.rank second = Ranked.rank first then some other else _).or _) = _
  rw [if_pos (StakeAddress.rank_eq_iff.2 shared.symm)]
  rfl

/-- So the order of two withdrawals shows in the result when their accounts have one written form
and their amounts differ. -/
theorem result_ne_of_toBytes_eq {inputs : List Utxo} {first second : StakeAddress}
    (shared : first.toBytes = second.toBytes) {amount other : UInt64} (differ : amount ≠ other)
    {result reversed : Result}
    (built : ((draft.giving inputs [(first, amount), (second, other)]).build context selectors
      changeAddress).result = .ok result)
    (again : ((draft.giving inputs [(second, other), (first, amount)]).build context selectors
      changeAddress).result = .ok reversed) : result ≠ reversed := by
  rintro rfl
  have same := (withdrawals_of_build built).symm.trans (withdrawals_of_build again)
  have later := draft.atPlace?_withdrawals_giving inputs shared amount other
  have earlier := draft.atPlace?_withdrawals_giving inputs shared.symm other amount
  rw [same, OrderedMap.atPlace?_congr (StakeAddress.rank_eq_iff.2 shared)] at later
  exact differ (Option.some.inj (earlier.symm.trans later))

end

/-! ### Two inputs and two withdrawals -/

namespace Reordered

def address : Address := .shelley ⟨.testnet, .key ⟨.replicate 28 7⟩, .none⟩

def utxo (index coin : UInt64) : Utxo :=
  ⟨⟨⟨.replicate 32 5⟩, index⟩, .plain address (.ofCoin coin)⟩

def context : ChainContext := ⟨.ok .preset, .testnet, .ok 0, fun _ => .ok []⟩

def inputs : List Utxo := [utxo 1 3000000, utxo 0 2000000]

theorem nonnegative_inputs : Nonnegative inputs := by
  intro utxo member
  have counted : ∀ utxo ∈ inputs, utxo.output.amount.assets.negative.isEmpty = true := by decide
  exact (MultiAsset.negative_isEmpty_iff _).1 (counted utxo member)

def plan (withdrawals : List (StakeAddress × UInt64)) : Plan :=
  ⟨empty.giving inputs withdrawals, .preset, some address⟩

/-- The inputs are enough for withdrawals with which the transaction can be concluded. -/
theorem exists_built (withdrawals : List (StakeAddress × UInt64))
    (selects : ((plan withdrawals).supplement context []).toOption = some [])
    (concludes : ((plan withdrawals).conclude
      [utxo 0 2000000, utxo 1 3000000]).toOption.isSome = true) :
    ∃ result, ((empty.giving inputs withdrawals).build context [] (some address)).result =
      .ok result := by
  have prepares : (empty.giving inputs withdrawals).planned context (some address) =
      .ok (plan withdrawals) := by
    rw [plan, giving_eq]
    rfl
  have given : (plan withdrawals).draft.inputs = inputs := by
    rw [plan, giving_eq]
    rfl
  have swapped : ((plan withdrawals).draft.inputs ++ []).Perm
      [utxo 0 2000000, utxo 1 3000000] := by
    rw [given]
    exact List.Perm.swap _ _ []
  have joins : (plan withdrawals).joined [] = .ok [utxo 0 2000000, utxo 1 3000000] :=
    Plan.joined_of_perm swapped (by decide) (List.cons_ne_nil _ _)
  obtain ⟨result, made⟩ := Except.isSome_toOption_iff.1 concludes
  rw [Except.toOption_eq_some] at selects
  exact ⟨result, (result_build_of_joined prepares selects joins).trans made⟩

def account (byte : UInt8) : StakeAddress := ⟨.testnet, .key ⟨.replicate 28 byte⟩⟩

def withdrawals : List (StakeAddress × UInt64) := [(account 9, 500000), (account 8, 700000)]

end Reordered

/-- The sample builds the same whether its calls are made forwards or backwards. -/
theorem build_reordered_reverse :
    ∃ result, ((empty.giving Reordered.inputs Reordered.withdrawals).build Reordered.context []
        (some Reordered.address)).result = .ok result ∧
      ((empty.giving Reordered.inputs.reverse Reordered.withdrawals.reverse).build
        Reordered.context [] (some Reordered.address)).result = .ok result := by
  obtain ⟨result, built⟩ :=
    Reordered.exists_built Reordered.withdrawals (by decide +kernel) (by decide +kernel)
  have inputs : Reordered.inputs.Perm Reordered.inputs.reverse := (List.reverse_perm _).symm
  have withdrawals : Reordered.withdrawals.Perm Reordered.withdrawals.reverse :=
    (List.reverse_perm _).symm
  have distinct : ((empty.inputs ++ Reordered.inputs).map (·.input)).Nodup := by decide
  have fit : ∀ withdrawal ∈ Reordered.withdrawals, withdrawal.1.network.FitsHeader := by
    intro withdrawal member
    rcases List.mem_pair.1 member with rfl | rfl <;> exact ⟨0, by decide, rfl⟩
  have accounts : (Reordered.withdrawals.map (·.1.toBytes)).Nodup :=
    StakeAddress.nodup_toBytes_of_fitsHeader fit (by decide)
  have reordered := (build_reordered inputs withdrawals distinct Reordered.nonnegative_inputs
    accounts Reordered.context [] (some Reordered.address) result).1 built
  exact ⟨result, built, reordered⟩

namespace Reordered

def both (first second : StakeAddress) : List (StakeAddress × UInt64) :=
  [(first, 500000), (second, 700000)]

/-- Two accounts with one written form may withdraw in both orders, and the order shows. -/
theorem exists_built_ne {first second : StakeAddress} (shared : first.toBytes = second.toBytes)
    (selects : ∀ withdrawals ∈ [both first second, (both first second).reverse],
      ((plan withdrawals).supplement context []).toOption = some [])
    (concludes : ∀ withdrawals ∈ [both first second, (both first second).reverse],
      ((plan withdrawals).conclude
        [utxo 0 2000000, utxo 1 3000000]).toOption.isSome = true) :
    ∃ result reversed,
      ((empty.giving inputs (both first second)).build context [] (some address)).result =
        .ok result ∧
      ((empty.giving inputs (both first second).reverse).build context [] (some address)).result =
        .ok reversed ∧
      result ≠ reversed := by
  have later : (both first second).reverse ∈ [both first second, (both first second).reverse] :=
    List.mem_cons_of_mem _ List.mem_cons_self
  obtain ⟨result, built⟩ := exists_built _ (selects _ List.mem_cons_self)
    (concludes _ List.mem_cons_self)
  obtain ⟨reversed, rebuilt⟩ := exists_built _ (selects _ later) (concludes _ later)
  exact ⟨result, reversed, built, rebuilt,
    result_ne_of_toBytes_eq shared (by decide) built rebuilt⟩

/-- A key account of the test network, which the other network of number zero stands for too. -/
def keyAccount : StakeAddress := ⟨.testnet, .key ⟨.replicate 28 9⟩⟩

def twin : StakeAddress := ⟨.other 0, .key ⟨.replicate 28 9⟩⟩

/-- A script account of the test network. -/
def scriptAccount : StakeAddress := ⟨.testnet, .script ⟨.replicate 28 9⟩⟩

/-- The number of this network makes its key accounts look like script accounts. -/
def neighbour : StakeAddress := ⟨.other 16, .key ⟨.replicate 28 9⟩⟩

end Reordered

/-- Withdrawals from two different accounts with one written form are built in both orders, and not
to the same. -/
theorem build_ne_of_shared_place :
    ((empty.inputs ++ Reordered.inputs).map (·.input)).Nodup ∧
      Nonnegative (empty.inputs ++ Reordered.inputs) ∧
      ∀ withdrawals ∈ [Reordered.both Reordered.twin Reordered.keyAccount,
          Reordered.both Reordered.neighbour Reordered.scriptAccount],
        (withdrawals.map (·.1)).Nodup ∧ ∃ result reversed,
          ((empty.giving Reordered.inputs withdrawals).build Reordered.context []
            (some Reordered.address)).result = .ok result ∧
          ((empty.giving Reordered.inputs withdrawals.reverse).build Reordered.context []
            (some Reordered.address)).result = .ok reversed ∧
          result ≠ reversed := by
  refine ⟨by decide, Reordered.nonnegative_inputs, ?_⟩
  simp only [List.forall_mem_cons]
  refine ⟨⟨by decide, ?_⟩, ⟨by decide, ?_⟩, List.forall_mem_nil _⟩
  · exact Reordered.exists_built_ne (by decide) (by decide +kernel) (by decide +kernel)
  · exact Reordered.exists_built_ne (by decide) (by decide +kernel) (by decide +kernel)

end Draft

end UtxoLedger
