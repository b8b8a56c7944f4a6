import UtxoLedger.Chain.InPlace
import UtxoLedger.Proofs.Address.Places
import UtxoLedger.Proofs.Chain.Identity

/-!
# A submission happens whole or not at all

Run in place, a submission that fails leaves the chain as it found it. One
that succeeds changes the list of every address by what the transaction
spends and pays there, and nothing else but the record of accepted ids. Lists
are kept by place, so accounts with one written form have one list.
-/

namespace UtxoLedger.MemoryChain

open Cbor

/-! ## Lists at an address -/

/-- A list with more behind it. No list with nothing behind it stays no list. -/
def joined {α : Type} : Option (List α) → List α → Option (List α)
  | none, [] => none
  | found, more => some (found.getD [] ++ more)

theorem joined_nil {α : Type} (found : Option (List α)) : joined found [] = found := by
  cases found with
  | none => rfl
  | some list => exact congrArg some (List.append_nil list)

theorem joined_cons {α : Type} (found : Option (List α)) (first : α) (rest : List α) :
    joined found (first :: rest) = joined (some (found.getD [] ++ [first])) rest := by
  cases found <;> simp [joined]

/-- The chain lists what is filed at the place of the address. -/
theorem toOption_utxosAt (chain : MemoryChain) (address : Address) :
    (chain.context.utxosAt address).toOption = chain.utxos.atPlace? address := by
  unfold context
  dsimp only
  split
  next utxos found => exact found.symm
  next absent => exact absent.symm

theorem atPlace?_addUtxo (chain : MemoryChain) (utxo : Utxo) (address : Address) :
    (chain.addUtxo utxo).utxos.atPlace? address =
      if utxo.output.address.Alike address then
        some ((chain.utxos.atPlace? address).getD [] ++ [utxo])
      else chain.utxos.atPlace? address := by
  refine (OrderedMap.atPlace?_alter _ _ _ _).trans ?_
  by_cases alike : utxo.output.address.Alike address
  · have here := Address.rank_eq_iff.2 alike
    rw [if_pos here, if_pos alike, OrderedMap.atPlace?_congr here]
  · rw [if_neg (mt Address.rank_eq_iff.1 alike), if_neg alike]

/-- Added outputs go behind the list at their address, in their order. -/
theorem atPlace?_foldl_addUtxo (utxos : List Utxo) (chain : MemoryChain) (address : Address) :
    (utxos.foldl addUtxo chain).utxos.atPlace? address =
      joined (chain.utxos.atPlace? address)
        (utxos.filter fun utxo => utxo.output.address.Alike address) := by
  induction utxos generalizing chain with
  | nil => exact (joined_nil _).symm
  | cons utxo rest ih =>
      rw [List.foldl_cons, ih, atPlace?_addUtxo]
      by_cases alike : utxo.output.address.Alike address
      · rw [if_pos alike, List.filter_cons_of_pos (by simpa using alike), joined_cons]
      · rw [if_neg alike, List.filter_cons_of_neg (by simpa using alike)]

/-! ## An accepted transaction -/

theorem mem_namedOutputs {transaction : Hash 32} {place : Nat} {outputs : List TransactionOutput}
    {utxo : Utxo} (member : utxo ∈ namedOutputs transaction place outputs) :
    utxo.output ∈ outputs := by
  induction outputs generalizing place with
  | nil => cases member
  | cons output rest ih =>
      rcases List.mem_cons.1 member with rfl | later
      · exact List.mem_cons_self
      · exact List.mem_cons_of_mem _ (ih later)

/-- The outputs of a transaction to some addresses, each under its place in the body. -/
def paidTo (transaction : Transaction) (addresses : Address → Bool) : List Utxo :=
  (namedOutputs transaction.id 0 transaction.body.outputs).filter fun utxo =>
    addresses utxo.output.address

/-- To an address that has a place of its own a received transaction pays what it pays to those
that are alike. -/
theorem paidTo_alike_of_received {bytes : Bytes} {transaction : Transaction}
    (decoded : decodeFragment Transaction bytes = .ok transaction) {address : Address}
    (own : address.HasOwnPlace) :
    paidTo transaction (fun found => found.Alike address) =
      paidTo transaction fun found => found = address := by
  obtain ⟨_, _, _, _, read⟩ := Transaction.exists_run_body decoded
  have sound := TransactionBody.yields_isWellFormed read
  refine List.filter_congr fun utxo member => ?_
  have readable := (sound.outputs utxo.output (mem_namedOutputs member)).address
  rw [decide_eq_decide]
  exact Address.alike_iff_eq (Address.hasOwnPlace_of_isReadable readable) own

/-- The list at an address when the spent outputs are gone, the others are in their order, and
some outputs stand behind them. -/
def listAfter (chain : MemoryChain) (spent : List TransactionInput) (address : Address)
    (paid : List Utxo) : Option (List Utxo) :=
  joined
    ((chain.context.utxosAt address).toOption.map fun utxos =>
      utxos.filter fun utxo => ¬ utxo.input ∈ spent)
    paid

/-- What an accepted transaction does to a chain. All that it spends was there. The list of every
address loses the spent outputs, keeps the others in their order and gets what is paid to the
address behind them, where accounts with one written form count as one address. The id is recorded
behind the others, and nothing else changes. -/
structure Settles (chain after : MemoryChain) (transaction : Transaction) : Prop where
  known : ∀ input ∈ transaction.body.inputs.items, chain.knows input
  listed : ∀ address : Address, (after.context.utxosAt address).toOption =
    chain.listAfter transaction.body.inputs.items address
      (paidTo transaction fun found => found.Alike address)
  /-- Where no other address is alike, the address itself is paid. -/
  listedAlone : ∀ address : Address, address.HasOwnPlace →
    (after.context.utxosAt address).toOption =
      chain.listAfter transaction.body.inputs.items address
        (paidTo transaction fun found => found = address)
  kept : after =
    { chain with utxos := after.utxos, submitted := chain.submitted ++ [transaction.id] }

theorem settles_of_submit {chain after : MemoryChain} {bytes : Bytes} {id : Hash 32}
    (accepted : chain.submit bytes = .ok (id, after)) :
    ∃ transaction, decodeFragment Transaction bytes = .ok transaction ∧ id = transaction.id ∧
      Settles chain after transaction := by
  obtain ⟨transaction, spent, decoded, known, rfl, shape⟩ := exists_of_submit accepted
  have listed (address : Address) : (after.context.utxosAt address).toOption =
      chain.listAfter transaction.body.inputs.items address
        (paidTo transaction fun found => found.Alike address) := by
    rw [listAfter, toOption_utxosAt, toOption_utxosAt, shape]
    dsimp only
    rw [atPlace?_foldl_addUtxo, spend_eq_ok known, OrderedMap.atPlace?_mapValues]
    rfl
  refine ⟨transaction, decoded, rfl, spend_isOk_iff.1 ⟨spent, known⟩, listed, ?_, ?_⟩
  · intro address own
    rw [listed, paidTo_alike_of_received decoded own]
  · rw [shape, foldl_addUtxo_eq, spend_eq_ok known]

/-- A submission in place that fails leaves the chain as it was, and it fails only because the
bytes are no transaction or because one of its inputs is not there. One that succeeds gives the
id of the transaction and has its whole effect. -/
theorem runOn_submitInPlace_cases (bytes : Bytes) (chain : MemoryChain) :
    match (submitInPlace bytes).runOn chain with
    | (.error _, after) =>
        after = chain ∧ ∀ transaction, decodeFragment Transaction bytes = .ok transaction →
          ∃ input ∈ transaction.body.inputs.items, ¬ chain.knows input
    | (.ok id, after) =>
        ∃ transaction, decodeFragment Transaction bytes = .ok transaction ∧
          id = transaction.id ∧ Settles chain after transaction := by
  rw [runOn_submitInPlace]
  cases submitted : chain.submit bytes with
  | error error =>
      refine ⟨rfl, fun transaction decoded => ?_⟩
      by_contra all
      simp only [not_exists, not_and, not_not] at all
      obtain ⟨outcome, accepted⟩ := (submit_isOk_iff decoded).2 all
      rw [submitted] at accepted
      cases accepted
  | ok outcome => exact settles_of_submit submitted

namespace Shared

def hash : Hash 28 := ⟨.replicate 28 9⟩

/-- An account of the test network. -/
def payee : Address := .stake ⟨.testnet, .script hash⟩

/-- The payee once more, as an account of the other network of number zero. -/
def twin : Address := .stake ⟨.other 0, .script hash⟩

/-- The number of this network makes its key accounts look like script accounts. -/
def neighbour : Address := .stake ⟨.other 16, .key hash⟩

def held : Utxo :=
  ⟨⟨⟨.replicate 32 5⟩, 0⟩, .plain (.shelley ⟨.testnet, .key hash, .none⟩) (.ofCoin 1000000)⟩

def output : TransactionOutput := .plain payee (.ofCoin 1000000)

def chain : MemoryChain := (empty .testnet .preset).addUtxo held

/-- Moves the output that the chain holds to the payee. -/
def paying : Transaction := ⟨.plain [held.input] [output] 0, .empty, true, none⟩

def payingBytes : Bytes :=
  [0x84, 0xa3, 0x00, 0x81, 0x82, 0x58, 0x20] ++ List.replicate 32 5 ++
    [0x00, 0x01, 0x81, 0x82, 0x58, 0x1d, 0xf0] ++ List.replicate 28 9 ++
    [0x1a, 0x00, 0x0f, 0x42, 0x40, 0x02, 0x00, 0xa0, 0xf5, 0xf6]

end Shared

/-- What is paid to an account is listed at other accounts with the same written form too, to which
nothing is paid. -/
theorem listed_at_shared_place :
    decodeFragment Transaction Shared.payingBytes = .ok Shared.paying ∧
      ∃ after, (submitInPlace Shared.payingBytes).runOn Shared.chain =
          (.ok Shared.paying.id, after) ∧
        ∀ address ∈ [Shared.twin, Shared.neighbour], address ≠ Shared.payee ∧
          Shared.chain.listAfter Shared.paying.body.inputs.items address
            (paidTo Shared.paying fun found => found = address) = none ∧
          (after.context.utxosAt address).toOption =
            some [⟨⟨Shared.paying.id, 0⟩, Shared.output⟩] := by
  refine ⟨rfl, _, rfl, ?_⟩
  simp only [List.forall_mem_cons]
  exact ⟨⟨by decide, by decide, rfl⟩, ⟨by decide, by decide, rfl⟩, List.forall_mem_nil _⟩

end UtxoLedger.MemoryChain
