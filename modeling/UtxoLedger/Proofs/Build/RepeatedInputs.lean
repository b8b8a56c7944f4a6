import UtxoLedger.Proofs.Build.GivenInputs
import UtxoLedger.Proofs.Build.SpentInputs

/-!
# Inputs that are given twice

A transaction spends an input once, however often it was given. But what the
inputs provide is counted with repetitions when the build decides what to
select. So a repeated input changes nothing as long as the same is selected,
and a build that succeeds stays the same in that case only.
-/

namespace UtxoLedger

open Utxo

/-- What is listed before is found first. -/
theorem find?_repeated {α : Type} {accepts : α → Bool} {item : α} {front : List α}
    (member : item ∈ front) (back : List α) :
    (front ++ item :: back).find? accepts = (front ++ back).find? accepts := by
  rw [List.find?_append, List.find?_append]
  cases found : front.find? accepts with
  | some first => rfl
  | none =>
      have refused := List.find?_eq_none.1 found item member
      rw [List.find?_cons_of_neg refused]

namespace Draft

section

variable {draft : Draft} {front back : List Utxo} {utxo : Utxo} {context : ChainContext}
  {selectors : List Selector} {changeAddress : Option Address}

theorem check_repeated (listed : draft.inputs = front ++ back) (member : utxo ∈ front) :
    (draft.withInputs (front ++ utxo :: back)).check = draft.check := by
  unfold check
  rw [listed, ← find?_repeated member back]
  rfl

theorem findAlike_repeated (listed : draft.inputs = front ++ back) (member : utxo ∈ front) :
    FindAlike draft.inputs (front ++ utxo :: back) := by
  intro name
  rw [listed, find?_repeated member back]

/-- Builds that spend the same inputs have selected the same. -/
theorem selectsAlike_of_result {inputs : List Utxo}
    (passes : (draft.withInputs inputs).check = draft.check)
    (alike : FindAlike draft.inputs inputs) {result other : Result}
    (built : (draft.build context selectors changeAddress).result = .ok result)
    (again : ((draft.withInputs inputs).build context selectors changeAddress).result = .ok other)
    (same : other.built.body.inputs.items = result.built.body.inputs.items) :
    draft.SelectsAlike inputs context selectors changeAddress := by
  intro plan planned
  have replanned : (draft.withInputs inputs).planned context changeAddress =
      .ok (plan.withInputs inputs) := by
    rw [planned_withInputs draft inputs context changeAddress passes, planned]
    rfl
  obtain ⟨selected, spent, selecting, joining, concluded⟩ := exists_of_result_build planned built
  obtain ⟨further, others, repeating, rejoining, ended⟩ := exists_of_result_build replanned again
  have left := Plan.selects_of_supplement selecting
  have right := Plan.selects_of_supplement repeating
  have kept : plan.draft.inputs = draft.inputs :=
    (sameRequest_prepare (planned_eq_ok planned).2.1).inputs
  rw [← kept] at alike
  -- What is spent and was not given was selected, and a pool has one output of each name.
  have names (name : TransactionInput) :
      name ∈ selected.map (·.input) ↔ name ∈ further.map (·.input) := by
    rw [left.mem_names_iff joining, right.mem_names_iff rejoining,
      ← Plan.inputs_of_conclude concluded, ← Plan.inputs_of_conclude ended, same,
      alike.mem_names_iff]
    rfl
  have pools := Plan.poolFrom_withInputs alike context [] plan.draft.inputAddresses
  rw [selecting, repeating, left.eq_of_names right pools names]

/-- A repeated input changes nothing as long as the same is selected, and a build that succeeds
stays the same in that case only. -/
theorem build_repeated (listed : draft.inputs = front ++ back) (member : utxo ∈ front)
    (context : ChainContext) (selectors : List Selector) (changeAddress : Option Address) :
    (draft.SelectsAlike (front ++ utxo :: back) context selectors changeAddress →
      ((draft.withInputs (front ++ utxo :: back)).build context selectors changeAddress).result =
        (draft.build context selectors changeAddress).result) ∧
    ∀ result, (draft.build context selectors changeAddress).result = .ok result →
      ((draft.withInputs (front ++ utxo :: back)).build context selectors changeAddress).result =
        .ok result →
      draft.SelectsAlike (front ++ utxo :: back) context selectors changeAddress := by
  have passes := check_repeated listed member
  have alike := findAlike_repeated listed member
  constructor
  · exact result_build_withInputs passes alike
  · intro result built again
    exact selectsAlike_of_result passes alike built again rfl

end

/-! ### Inputs that suffice once or twice -/

namespace Repeating

def address : Address := .shelley ⟨.testnet, .key ⟨.replicate 28 7⟩, .none⟩

def utxo (transaction : UInt8) (coin : UInt64) : Utxo :=
  ⟨⟨⟨.replicate 32 transaction⟩, 0⟩, .plain address (.ofCoin coin)⟩

/-- The chain reports one further output. -/
def context : ChainContext := ⟨.ok .preset, .testnet, .ok 0, fun _ => .ok [utxo 6 5000000]⟩

/-- Pays from one input and may select more. -/
def draft (coin : UInt64) : Draft :=
  { Draft.empty with
    inputs := [utxo 5 coin]
    inputAddresses := [address]
    outputs := [.plain address (.ofCoin 2000000)] }

/-- The input is given twice. -/
def repeated (coin : UInt64) : Draft := (draft coin).withInputs [utxo 5 coin, utxo 5 coin]

def plan (coin : UInt64) : Plan := ⟨draft coin, .preset, some address⟩

theorem planned_draft (coin : UInt64) :
    (draft coin).planned context (some address) = .ok (plan coin) := rfl

theorem planned_repeated (coin : UInt64) :
    (repeated coin).planned context (some address) =
      .ok ((plan coin).withInputs [utxo 5 coin, utxo 5 coin]) := rfl

end Repeating

/-- An input that suffices may be repeated. -/
theorem build_repeated_sufficient :
    ∃ result, ((Repeating.draft 5000000).build Repeating.context [.largestFirst]
        (some Repeating.address)).result = .ok result ∧
      ((Repeating.repeated 5000000).build Repeating.context [.largestFirst]
        (some Repeating.address)).result = .ok result := by
  have succeeds : ((Repeating.draft 5000000).build Repeating.context [.largestFirst]
      (some Repeating.address)).result.toOption.isSome = true := by decide +kernel
  have alike : (Repeating.draft 5000000).SelectsAlike
      [Repeating.utxo 5 5000000, Repeating.utxo 5 5000000] Repeating.context [.largestFirst]
      (some Repeating.address) := by
    apply selectsAlike_of_fulfilled
    intro plan planned
    obtain rfl := Except.ok.inj ((Repeating.planned_draft 5000000).symm.trans planned)
    exact ⟨by decide +kernel, by decide +kernel⟩
  obtain ⟨result, built⟩ := Except.isSome_toOption_iff.1 succeeds
  have listed : (Repeating.draft 5000000).inputs = [Repeating.utxo 5 5000000] ++ [] := rfl
  have same := (build_repeated listed List.mem_cons_self Repeating.context [.largestFirst]
    (some Repeating.address)).1 alike
  exact ⟨result, built, same.trans built⟩

/-- An input that suffices only when it is counted twice: a further output is selected when it is
given once, and none when it is given twice. -/
theorem build_repeated_fails :
    (∃ result, ((Repeating.draft 2000000).build Repeating.context [.largestFirst]
        (some Repeating.address)).result = .ok result) ∧
      ∃ error, ((Repeating.repeated 2000000).build Repeating.context [.largestFirst]
        (some Repeating.address)).result = .error error := by
  let single := Repeating.plan 2000000
  let doubled := single.withInputs [Repeating.utxo 5 2000000, Repeating.utxo 5 2000000]
  constructor
  · have selects : (single.supplement Repeating.context [.largestFirst]).toOption =
        some [Repeating.utxo 6 5000000] := by decide +kernel
    have joins : single.joined [Repeating.utxo 6 5000000] =
        .ok [Repeating.utxo 5 2000000, Repeating.utxo 6 5000000] :=
      Plan.joined_of_perm (List.Perm.refl _) (by decide) (List.cons_ne_nil _ _)
    have concludes : (single.conclude
        [Repeating.utxo 5 2000000, Repeating.utxo 6 5000000]).toOption.isSome = true := by
      decide +kernel
    obtain ⟨result, made⟩ := Except.isSome_toOption_iff.1 concludes
    rw [Except.toOption_eq_some] at selects
    have built := result_build_of_joined (Repeating.planned_draft 2000000) selects joins
    exact ⟨result, built.trans made⟩
  · have selects : (doubled.supplement Repeating.context [.largestFirst]).toOption = some [] := by
      decide +kernel
    have listed : single.draft.inputs = [Repeating.utxo 5 2000000] ++ [] := rfl
    have dropped : doubled.joined = single.joined :=
      Plan.joined_withInputs (findAlike_repeated listed List.mem_cons_self)
    have joins : doubled.joined [] = .ok [Repeating.utxo 5 2000000] := by
      rw [dropped]
      exact Plan.joined_of_perm (List.Perm.refl _) (List.pairwise_singleton _ _)
        (List.cons_ne_nil _ _)
    have concludes : (doubled.conclude [Repeating.utxo 5 2000000]).toOption.isSome = false := by
      decide +kernel
    rw [Except.toOption_eq_some] at selects
    have built := result_build_of_joined (Repeating.planned_repeated 2000000) selects joins
    cases made : doubled.conclude [Repeating.utxo 5 2000000] with
    | error error => exact ⟨error, built.trans made⟩
    | ok result => simp [made, Except.toOption] at concludes

end Draft

end UtxoLedger
