import UtxoLedger.Chain.Memory

/-!
# What a submission leaves

A transaction that is accepted takes away the outputs that it spends and adds
those that it makes, each under the id of the transaction and its place. The
other outputs stay as they are.
-/

namespace UtxoLedger.MemoryChain

/-! ## Adding outputs -/

/-- The lists of a map and one more item, which goes to the list at the key. -/
theorem flatten_alterEntries_perm {κ α : Type} [Ranked κ] (key : κ) (item : α)
    (entries : List (κ × List α)) :
    ((OrderedMap.alterEntries key (fun found => some (found.getD [] ++ [item])) entries).map
      Prod.snd).flatten.Perm (item :: (entries.map Prod.snd).flatten) := by
  induction entries with
  | nil => exact .refl _
  | cons head rest ih =>
      obtain ⟨other, listed⟩ := head
      unfold OrderedMap.alterEntries
      split
      next => exact .refl _
      next =>
        split
        next => exact (ih.append_left listed).trans List.perm_middle
        next =>
          change (listed ++ [item] ++ (rest.map Prod.snd).flatten).Perm _
          rw [List.append_assoc]
          exact List.perm_middle

theorem allUtxos_addUtxo_perm (chain : MemoryChain) (utxo : Utxo) :
    (chain.addUtxo utxo).allUtxos.Perm (utxo :: chain.allUtxos) :=
  flatten_alterEntries_perm utxo.output.address utxo chain.utxos.entries

theorem allUtxos_foldl_addUtxo_perm (utxos : List Utxo) (chain : MemoryChain) :
    (utxos.foldl addUtxo chain).allUtxos.Perm (utxos ++ chain.allUtxos) := by
  induction utxos generalizing chain with
  | nil => exact .refl _
  | cons first rest ih =>
      have added := (allUtxos_addUtxo_perm chain first).append_left rest
      exact ((ih (chain.addUtxo first)).trans added).trans List.perm_middle

/-- Adding outputs changes the lists of outputs alone. -/
theorem foldl_addUtxo_eq (utxos : List Utxo) (chain : MemoryChain) :
    utxos.foldl addUtxo chain = { chain with utxos := (utxos.foldl addUtxo chain).utxos } := by
  induction utxos generalizing chain with
  | nil => rfl
  | cons utxo rest ih => exact ih (chain.addUtxo utxo)

/-! ## Spending outputs -/

theorem spend_eq_ok {chain spent : MemoryChain} {inputs : List TransactionInput}
    (known : chain.spend inputs = .ok spent) :
    spent = { chain with
      utxos := chain.utxos.mapValues fun _ utxos =>
        utxos.filter fun utxo => ¬ utxo.input ∈ inputs } := by
  unfold spend at known
  split at known
  next => cases known
  next => exact (Except.ok.inj known).symm

theorem allUtxos_spend {chain spent : MemoryChain} {inputs : List TransactionInput}
    (known : chain.spend inputs = .ok spent) :
    spent.allUtxos = chain.allUtxos.filter fun utxo => ¬ utxo.input ∈ inputs := by
  rw [spend_eq_ok known]
  unfold allUtxos OrderedMap.values OrderedMap.mapValues
  rw [List.filter_flatten, List.map_map, List.map_map]
  rfl

theorem spend_isOk_iff {chain : MemoryChain} {inputs : List TransactionInput} :
    (∃ spent, chain.spend inputs = .ok spent) ↔ ∀ input ∈ inputs, chain.knows input := by
  unfold spend
  constructor
  · rintro ⟨spent, known⟩
    split at known
    next => cases known
    next found => simpa using found
  · intro known
    have found : inputs.find? (fun input => ¬ chain.knows input) = none := by simpa using known
    rw [found]
    exact ⟨_, rfl⟩

/-! ## Submission -/

/-- A transaction is accepted when the chain knows all that it spends. -/
theorem submit_isOk_iff {chain : MemoryChain} {bytes : Bytes} {transaction : Transaction}
    (decoded : Cbor.decodeFragment Transaction bytes = .ok transaction) :
    (∃ outcome, chain.submit bytes = .ok outcome) ↔
      ∀ input ∈ transaction.body.inputs.items, chain.knows input := by
  rw [← spend_isOk_iff]
  unfold submit
  simp only [decoded]
  unfold accept
  constructor
  · rintro ⟨outcome, accepted⟩
    split at accepted
    next => cases accepted
    next spent known => exact ⟨spent, known⟩
  · rintro ⟨spent, known⟩
    rw [known]
    exact ⟨_, rfl⟩

/-- An accepted transaction spends, then pays, then is recorded. -/
theorem exists_of_submit {chain after : MemoryChain} {bytes : Bytes} {id : Hash 32}
    (accepted : chain.submit bytes = .ok (id, after)) :
    ∃ transaction spent, Cbor.decodeFragment Transaction bytes = .ok transaction ∧
      chain.spend transaction.body.inputs.items = .ok spent ∧ id = transaction.id ∧
      after =
        { (namedOutputs id 0 transaction.body.outputs).foldl addUtxo spent with
          submitted := chain.submitted ++ [id] } := by
  unfold submit at accepted
  split at accepted
  next => cases accepted
  next transaction decoded =>
    unfold accept at accepted
    split at accepted
    next => cases accepted
    next spent known =>
      cases accepted
      refine ⟨transaction, spent, decoded, known, rfl, ?_⟩
      rw [foldl_addUtxo_eq, spend_eq_ok known]

/-- What is submitted is a transaction, which is filed under its id. -/
theorem submit_eq_ok {chain after : MemoryChain} {bytes : Bytes} {id : Hash 32}
    (accepted : chain.submit bytes = .ok (id, after)) :
    ∃ transaction, Cbor.decodeFragment Transaction bytes = .ok transaction ∧
      id = transaction.id ∧ after.submitted = chain.submitted ++ [id] ∧
      after.allUtxos.Perm (namedOutputs id 0 transaction.body.outputs ++
        chain.allUtxos.filter fun utxo => ¬ utxo.input ∈ transaction.body.inputs.items) := by
  obtain ⟨transaction, spent, decoded, known, same, rfl⟩ := exists_of_submit accepted
  refine ⟨transaction, decoded, same, rfl, ?_⟩
  rw [← allUtxos_spend known]
  exact allUtxos_foldl_addUtxo_perm _ _

end UtxoLedger.MemoryChain
