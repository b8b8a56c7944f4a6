import Mathlib.Data.List.Perm.Subperm
import UtxoLedger.Proofs.Build.Conservation
import UtxoLedger.Proofs.Selection.Soundness

/-!
# The inputs of a built body

A built body lists its inputs by name, each once. Those that the draft was
given are all there. The others were selected: the chain reports them at an
input address, they carry no script, and they are no more than the draft
allows. An excluded output is never spent.
-/

namespace UtxoLedger

/-! ## What is selected -/

namespace Plan.Selects

variable {plan : Plan} {context : ChainContext} {selected : List Utxo}

/-- What is selected comes from the pool of the draft. -/
theorem mem_pool (selects : plan.Selects context selected) {utxo : Utxo}
    (member : utxo ∈ selected) :
    ∃ pool, poolFrom plan.draft context [] plan.draft.inputAddresses = .ok pool ∧ utxo ∈ pool := by
  cases selects with
  | nothing => exact absurd member List.not_mem_nil
  | selection pooled _ answer =>
      have isPool := isPool_of_poolFrom pooled
      have splits := Selector.select_splits (List.Nodup.of_map _ isPool.distinct) answer
      exact ⟨_, pooled, splits.subset (List.mem_append_left _ member)⟩

theorem isEligible (selects : plan.Selects context selected) {utxo : Utxo}
    (member : utxo ∈ selected) : IsEligible plan.draft utxo := by
  obtain ⟨pool, pooled, inside⟩ := selects.mem_pool member
  exact isEligible_of_poolFrom pooled utxo inside

/-- What is selected is listed by name. -/
theorem ascending (selects : plan.Selects context selected) :
    selected.Pairwise fun first second => Ranked.Before first.input second.input := by
  cases selects with
  | nothing => exact List.Pairwise.nil
  | selection pooled _ answer =>
      have isPool := isPool_of_poolFrom pooled
      obtain ⟨made, chooses, rfl⟩ := Selector.select_eq_ok answer
      have splits := chooses.splits (List.Nodup.of_map _ isPool.distinct)
      have names := (splits.map (·.input)).nodup_iff.2 isPool.distinct
      rw [List.map_append] at names
      exact Utxo.sort_ascending (List.nodup_append.1 names).1

/-- What is selected is none of the inputs of the draft. -/
theorem apart (selects : plan.Selects context selected) {utxo : Utxo} (member : utxo ∈ selected) :
    utxo.input ∉ plan.draft.inputs.map (·.input) := by
  obtain ⟨pool, pooled, inside⟩ := selects.mem_pool member
  intro listed
  obtain ⟨given, there, same⟩ := List.mem_map.1 listed
  exact (isPool_of_poolFrom pooled).apart given there utxo inside same

/-- The names that are selected are those of the inputs that were not given. -/
theorem mem_names_iff (selects : plan.Selects context selected) {inputs : List Utxo}
    (joining : plan.joined selected = .ok inputs) (name : TransactionInput) :
    name ∈ selected.map (·.input) ↔
      name ∈ inputs.map (·.input) ∧ name ∉ plan.draft.inputs.map (·.input) := by
  rw [(joined_eq_ok joining).1, mem_names_distinctInputs_append_iff]
  constructor
  · intro listed
    obtain ⟨utxo, member, rfl⟩ := List.mem_map.1 listed
    exact ⟨.inr listed, selects.apart member⟩
  · rintro ⟨given | listed, other⟩
    · exact absurd given other
    · exact listed

/-- Of one pool, the same is selected by the same names. -/
theorem subset_of_names {other : Plan} {further : List Utxo}
    (left : plan.Selects context selected) (right : other.Selects context further)
    (pools : poolFrom other.draft context [] other.draft.inputAddresses =
      poolFrom plan.draft context [] plan.draft.inputAddresses)
    (names : selected.map (·.input) ⊆ further.map (·.input)) : selected ⊆ further := by
  intro utxo member
  obtain ⟨pool, pooled, inside⟩ := left.mem_pool member
  obtain ⟨same, there, named⟩ := List.mem_map.1 (names (List.mem_map_of_mem member))
  obtain ⟨otherPool, otherwise, alsoInside⟩ := right.mem_pool there
  obtain rfl : otherPool = pool := Except.ok.inj (otherwise.symm.trans (pools.trans pooled))
  have equal := List.inj_on_of_nodup_map (isPool_of_poolFrom pooled).distinct alsoInside inside named
  exact equal ▸ there

theorem eq_of_names {other : Plan} {further : List Utxo}
    (left : plan.Selects context selected) (right : other.Selects context further)
    (pools : poolFrom other.draft context [] other.draft.inputAddresses =
      poolFrom plan.draft context [] plan.draft.inputAddresses)
    (names : ∀ name, name ∈ selected.map (·.input) ↔ name ∈ further.map (·.input)) :
    selected = further := by
  apply Ranked.eq_of_ascending Utxo.input left.ascending right.ascending
  intro utxo
  constructor
  · exact fun member => left.subset_of_names right pools (fun name => (names name).1) member
  · exact fun member => right.subset_of_names left pools.symm (fun name => (names name).2) member

/-- No more is selected than the draft allows. -/
theorem room (selects : plan.Selects context selected) {most : UInt64}
    (limited : plan.draft.options.maxInputs = some most) : selected.length ≤ most.toNat := by
  cases selects with
  | nothing => exact Nat.zero_le _
  | selection _ _ answer =>
      obtain ⟨made, chooses, rfl⟩ := Selector.select_eq_ok answer
      have allowed : made.chosen.length ≤ most.toNat := by
        apply chooses.respects.room
        simp [request, limited]
      exact Nat.le_trans (Nat.le_of_eq (Ranked.sort_perm made.chosen).length_eq) allowed

end Plan.Selects

/-! ## Whole builds -/

namespace Draft

/-- The names of the inputs that the draft was given. -/
def givenNames (draft : Draft) : List TransactionInput := draft.inputs.map (·.input)

/-- What the inputs of a body that is built of a draft have to be. -/
structure Spends (draft : Draft) (context : ChainContext) (inputs : List TransactionInput) :
    Prop where
  nonempty : inputs ≠ []
  /-- By transaction, then by place. -/
  ascending : inputs.Pairwise fun first second =>
    Ranked.Before first.transaction second.transaction ∨
      first.transaction = second.transaction ∧ first.index < second.index
  distinct : inputs.Nodup
  given : ∀ utxo ∈ draft.inputs, utxo.input ∈ inputs
  unexcluded : ∀ input ∈ inputs, input ∉ draft.excludedInputs
  selected : ∀ input ∈ inputs, input ∉ draft.givenNames →
    ∃ utxo, Plan.IsReported draft context utxo ∧ utxo.input = input ∧ utxo.output.script = none
  room : ∀ most, draft.options.maxInputs = some most →
    (inputs.filter fun input => input ∉ draft.givenNames).length ≤ most.toNat

section

variable {draft : Draft} {context : ChainContext} {selectors : List Selector}
  {changeAddress : Option Address} {plan : Plan} {inputs : List Utxo} {balance : Plan.Balance}
  {result : Result}

/-- An input of a run that was not given was selected. -/
theorem Run.exists_selected
    (run : draft.Run context selectors changeAddress plan inputs balance result) :
    ∃ selected, plan.Selects context selected ∧ (∀ name, name ∈ inputs.map (·.input) ↔
      name ∈ draft.givenNames ∨ name ∈ selected.map (·.input)) := by
  obtain ⟨selected, selects, same⟩ := Plan.selects_of_fund run.funded
  refine ⟨selected, selects, fun name => ?_⟩
  rw [same, Plan.mem_names_distinctInputs_append_iff, (sameRequest_prepare run.prepared).inputs]
  rfl

theorem Run.spends (run : draft.Run context selectors changeAddress plan inputs balance result) :
    draft.Spends context (inputs.map (·.input)) := by
  obtain ⟨selected, selects, names⟩ := run.exists_selected
  have kept := sameRequest_prepare run.prepared
  have unexcluded := ((check_eq_ok_iff draft).1 (check_of_prepare run.prepared)).2
  have sorted : inputs.Pairwise fun first second => Ranked.Before first.input second.input := by
    obtain ⟨_, _, same⟩ := Plan.selects_of_fund run.funded
    exact same ▸ Plan.distinctInputs_ascending _
  have taken (name : TransactionInput) (listed : name ∈ inputs.map (·.input))
      (other : name ∉ draft.givenNames) : ∃ utxo ∈ selected, utxo.input = name :=
    List.mem_map.1 (((names name).1 listed).resolve_left other)
  constructor
  case nonempty =>
    intro none
    exact Plan.ne_nil_of_fund run.funded (List.map_eq_nil_iff.1 none)
  case ascending =>
    exact List.pairwise_map.2 (sorted.imp fun before => (TransactionInput.before_iff _ _).1 before)
  case distinct => exact run.nodup
  case given =>
    intro utxo member
    exact (names utxo.input).2 (.inl (List.mem_map_of_mem member))
  case unexcluded =>
    intro name listed
    rcases (names name).1 listed with given | chosen
    · obtain ⟨utxo, member, rfl⟩ := List.mem_map.1 given
      exact unexcluded utxo member
    · obtain ⟨utxo, member, rfl⟩ := List.mem_map.1 chosen
      rw [← kept.excludedInputs]
      exact (selects.isEligible member).unexcluded
  case selected =>
    intro name listed other
    obtain ⟨utxo, member, same⟩ := taken name listed other
    obtain ⟨address, asked, utxos, answered, there⟩ := selects.reported member
    have reported : Plan.IsReported draft context utxo :=
      ⟨address, kept.inputAddresses ▸ asked, utxos, answered, there⟩
    exact ⟨utxo, reported, same, (selects.isEligible member).scriptless⟩
  case room =>
    intro most limited
    -- The inputs are distinct, so those that were not given are no more than the selected ones.
    have inside : (inputs.map (·.input)).filter (fun input => input ∉ draft.givenNames) ⊆
        selected.map (·.input) := by
      intro name member
      obtain ⟨listed, other⟩ := List.mem_filter.1 member
      obtain ⟨utxo, chosen, rfl⟩ := taken name listed (of_decide_eq_true other)
      exact List.mem_map_of_mem chosen
    have counted := (List.subperm_of_subset (run.nodup.filter _) inside).length_le
    rw [List.length_map] at counted
    exact Nat.le_trans counted (selects.room (kept.options ▸ limited))

/-- The inputs of a built body are those that were given and others that were selected for them. -/
theorem build_spends (built : (draft.build context selectors changeAddress).result = .ok result) :
    draft.Spends context result.built.body.inputs.items := by
  obtain ⟨plan, inputs, balance, run⟩ := exists_run built
  rw [(Plan.finish_eq_ok run.finished).1]
  exact run.spends

end

/-! ### A build that passes over outputs -/

namespace Spending

def address (byte : UInt8) : Address := .shelley ⟨.testnet, .key ⟨.replicate 28 byte⟩, .none⟩

def name (index : UInt64) : TransactionInput := ⟨⟨.replicate 32 5⟩, index⟩

def utxo (index coin : UInt64) : Utxo := ⟨name index, .plain (address 7) (.ofCoin coin)⟩

def scripted : Utxo :=
  ⟨name 3, { TransactionOutput.plain (address 7) (.ofCoin 9000000) with
    script := some (.native (.signature ⟨.replicate 28 7⟩)) }⟩

/-- The chain reports an excluded output, one with a script, the given one and a further one at
every address. -/
def context : ChainContext :=
  ⟨.ok .preset, .testnet, .ok 0,
    fun _ => .ok [utxo 4 9500000, scripted, utxo 2 2000000, utxo 1 8000000]⟩

/-- Spends one output and may select one more, at two addresses that report the same. -/
def draft : Draft :=
  { Draft.empty with
    options := { BuildOptions.preset with maxInputs := some 1 }
    inputs := [utxo 2 2000000]
    inputAddresses := [address 7, address 9]
    excludedInputs := [name 4]
    outputs := [.plain (address 9) (.ofCoin 5000000)] }

def plan : Plan := ⟨draft, .preset, some (address 7)⟩

end Spending

/-- The larger outputs are passed over. -/
theorem build_spends_further :
    ∃ result, (Spending.draft.build Spending.context [.largestFirst]
        (some (Spending.address 7))).result = .ok result ∧
      Spending.draft.Spends Spending.context result.built.body.inputs.items := by
  have prepares : Spending.draft.planned Spending.context (some (Spending.address 7)) =
      .ok Spending.plan := rfl
  have selects : (Spending.plan.supplement Spending.context [.largestFirst]).toOption =
      some [Spending.utxo 1 8000000] := by decide +kernel
  -- A merge sort does not reduce, so the order of the inputs is given and checked.
  have joins : Spending.plan.joined [Spending.utxo 1 8000000] =
      .ok [Spending.utxo 1 8000000, Spending.utxo 2 2000000] :=
    Plan.joined_of_perm (List.Perm.swap _ _ []) (by decide) (List.cons_ne_nil _ _)
  have concludes : (Spending.plan.conclude
      [Spending.utxo 1 8000000, Spending.utxo 2 2000000]).toOption.isSome = true := by
    decide +kernel
  obtain ⟨result, made⟩ := Except.isSome_toOption_iff.1 concludes
  rw [Except.toOption_eq_some] at selects
  have built : (Spending.draft.build Spending.context [.largestFirst]
      (some (Spending.address 7))).result = .ok result :=
    (result_build_of_joined prepares selects joins).trans made
  exact ⟨result, built, build_spends built⟩

end Draft

end UtxoLedger
