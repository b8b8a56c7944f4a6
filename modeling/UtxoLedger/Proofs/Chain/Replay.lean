import Mathlib.Data.List.Nodup
import UtxoLedger.Chain.InPlace
import UtxoLedger.Proofs.Chain.Submission

/-!
# Transactions submitted again

A transaction that spends something is accepted once: what it spends is gone
and does not come back. Nothing else guards against a replay, so a transaction
that spends nothing is accepted as often as it is submitted.
-/

namespace UtxoLedger.MemoryChain

open Cbor

/-! ## Runs of submissions -/

/-- The chain after a submission, accepted or not. -/
def afterSubmission (chain : MemoryChain) (bytes : Bytes) : MemoryChain :=
  ((submitInPlace bytes).runOn chain).2

def afterAll (chain : MemoryChain) (submissions : List Bytes) : MemoryChain :=
  submissions.foldl afterSubmission chain

/-- The transaction of a submission, if it is accepted. -/
def accepted? (chain : MemoryChain) (bytes : Bytes) : Option Transaction :=
  match (submitInPlace bytes).runOn chain with
  | (.ok _, _) => (decodeFragment Transaction bytes).toOption
  | (.error _, _) => none

/-- The accepted transactions of a run, in turn. -/
def accepted (chain : MemoryChain) : List Bytes → List Transaction
  | [] => []
  | bytes :: rest => (chain.accepted? bytes).toList ++ accepted (chain.afterSubmission bytes) rest

/-- The names of all unspent outputs. -/
def names (chain : MemoryChain) : List TransactionInput := chain.allUtxos.map (·.input)

theorem mem_names_of_knows {chain : MemoryChain} {input : TransactionInput}
    (known : chain.knows input) : input ∈ chain.names := by
  obtain ⟨utxo, member, same⟩ := List.any_eq_true.1 known
  exact List.mem_map.2 ⟨utxo, member, of_decide_eq_true same⟩

/-- The names that the outputs of a transaction get. -/
def made (transaction : Transaction) : List TransactionInput :=
  (namedOutputs transaction.id 0 transaction.body.outputs).map (·.input)

/-- What an accepted transaction does to the names of a chain. -/
structure Takes (chain : MemoryChain) (transaction : Transaction) (after : MemoryChain) :
    Prop where
  known : ∀ input ∈ transaction.body.inputs.items, input ∈ chain.names
  submitted : after.submitted = chain.submitted ++ [transaction.id]
  names : after.names.Perm
    (made transaction ++ chain.names.filter fun name => ¬ name ∈ transaction.body.inputs.items)

/-- A submission is not accepted and changes nothing, or it is and the transaction takes effect. -/
theorem afterSubmission_cases (chain : MemoryChain) (bytes : Bytes) :
    (chain.accepted? bytes = none ∧ chain.afterSubmission bytes = chain) ∨
      ∃ transaction, chain.accepted? bytes = some transaction ∧
        Takes chain transaction (chain.afterSubmission bytes) := by
  unfold accepted? afterSubmission
  rw [runOn_submitInPlace]
  cases submitted : chain.submit bytes with
  | error error => exact .inl ⟨rfl, rfl⟩
  | ok outcome =>
      obtain ⟨id, after⟩ := outcome
      obtain ⟨transaction, decoded, rfl, recorded, outputs⟩ := submit_eq_ok submitted
      refine .inr ⟨transaction, ?_, ?_, recorded, ?_⟩
      · rw [decoded]
        rfl
      · intro input member
        have known := (submit_isOk_iff decoded).1 ⟨_, submitted⟩ input member
        exact mem_names_of_knows known
      · have renamed := outputs.map (·.input)
        rw [List.map_append] at renamed
        unfold names made
        rw [List.filter_map]
        exact renamed

/-! ## Names of one transaction -/

theorem map_input_namedOutputs (transaction : Hash 32) (place : Nat)
    (outputs : List TransactionOutput) :
    (namedOutputs transaction place outputs).map (·.input) =
      (List.range' place outputs.length).map fun place => ⟨transaction, UInt64.ofNat place⟩ := by
  induction outputs generalizing place with
  | nil => rfl
  | cons output rest ih =>
      rw [namedOutputs, List.map_cons, ih, List.length_cons, List.range'_succ, List.map_cons]

theorem transaction_of_mem_made {transaction : Transaction} {name : TransactionInput}
    (member : name ∈ made transaction) : name.transaction = transaction.id := by
  unfold made at member
  rw [map_input_namedOutputs] at member
  obtain ⟨_, _, rfl⟩ := List.mem_map.1 member
  rfl

/-- The places of outputs are distinct words as long as there are no more of them than words. -/
theorem nodup_made {transaction : Transaction}
    (few : transaction.body.outputs.length ≤ bound64) : (made transaction).Nodup := by
  unfold made
  rw [map_input_namedOutputs]
  refine List.Nodup.map_on ?_ List.nodup_range'
  intro first left second right same
  have places := congrArg UInt64.toNat (congrArg TransactionInput.index same)
  have below {place : Nat} (member : place ∈ List.range' 0 transaction.body.outputs.length) :
      place < bound64 := by
    have within := (List.mem_range'_1.1 member).2
    rw [Nat.zero_add] at within
    exact Nat.lt_of_lt_of_le within few
  rw [UInt64.toNat_ofNat_of_lt' (below left), UInt64.toNat_ofNat_of_lt' (below right)] at places
  exact places

/-! ## What stays true of names -/

/-- The names of a chain that had the initial ones before it accepted the past transactions. -/
structure Traces (initial : List TransactionInput) (past : List Transaction)
    (chain : MemoryChain) : Prop where
  distinct : chain.names.Nodup
  once : (past.map Transaction.id).Nodup
  origin : ∀ name ∈ chain.names, name ∈ initial ∨ name.transaction ∈ past.map Transaction.id
  spent : ∀ earlier ∈ past, ∀ input ∈ earlier.body.inputs.items,
    input ∉ chain.names ∧ (input ∈ initial ∨ input.transaction ∈ past.map Transaction.id)

theorem traces_start {chain : MemoryChain} (distinct : chain.names.Nodup) :
    Traces chain.names [] chain :=
  ⟨distinct, List.nodup_nil, fun _ member => .inl member, List.forall_mem_nil _⟩

section

variable {initial : List TransactionInput} {past : List Transaction} {chain after : MemoryChain}
  {transaction : Transaction}

/-- A name that is initial or of the past is not one that the transaction makes. -/
theorem transaction_ne_id (apart : ∀ name ∈ initial, name.transaction ≠ transaction.id)
    (fresh : transaction.id ∉ past.map Transaction.id) {name : TransactionInput}
    (known : name ∈ initial ∨ name.transaction ∈ past.map Transaction.id) :
    name.transaction ≠ transaction.id := by
  rcases known with first | made
  · exact apart name first
  · exact fun same => fresh (same ▸ made)

/-- A transaction under a new id keeps the names distinct and what was spent away. -/
theorem Traces.takes (trace : Traces initial past chain) (takes : Takes chain transaction after)
    (few : transaction.body.outputs.length ≤ bound64)
    (apart : ∀ name ∈ initial, name.transaction ≠ transaction.id)
    (fresh : transaction.id ∉ past.map Transaction.id) :
    Traces initial (past ++ [transaction]) after := by
  have old {name : TransactionInput}
      (known : name ∈ initial ∨ name.transaction ∈ past.map Transaction.id) : name ∉ made transaction :=
    fun member => transaction_ne_id apart fresh known (transaction_of_mem_made member)
  have grown {name : TransactionInput}
      (known : name ∈ initial ∨ name.transaction ∈ past.map Transaction.id) :
      name ∈ initial ∨ name.transaction ∈ (past ++ [transaction]).map Transaction.id := by
    rw [List.map_append]
    exact known.imp_right (List.mem_append_left _)
  refine ⟨?_, ?_, ?_, ?_⟩
  · refine takes.names.nodup_iff.2 (List.nodup_append'.2 ⟨nodup_made few, ?_, ?_⟩)
    · exact trace.distinct.filter _
    · intro name member kept
      exact old (trace.origin name (List.mem_filter.1 kept).1) member
  · rw [List.map_append]
    refine List.nodup_append'.2 ⟨trace.once, List.nodup_singleton _, ?_⟩
    intro id earlier later
    rw [List.mem_singleton.1 later] at earlier
    exact fresh earlier
  · intro name member
    rcases List.mem_append.1 (takes.names.subset member) with paid | kept
    · refine .inr (List.mem_map.2 ⟨transaction, by simp, ?_⟩)
      exact (transaction_of_mem_made paid).symm
    · exact grown (trace.origin name (List.mem_filter.1 kept).1)
  · intro earlier member input spends
    rcases List.mem_append.1 member with before | last
    · obtain ⟨gone, known⟩ := trace.spent earlier before input spends
      refine ⟨fun back => ?_, grown known⟩
      rcases List.mem_append.1 (takes.names.subset back) with paid | kept
      · exact old known paid
      · exact gone (List.mem_filter.1 kept).1
    · obtain rfl := List.mem_singleton.1 last
      have known := trace.origin input (takes.known input spends)
      refine ⟨fun back => ?_, grown known⟩
      rcases List.mem_append.1 (takes.names.subset back) with paid | kept
      · exact old known paid
      · exact absurd spends (by simpa using (List.mem_filter.1 kept).2)

/-- The transaction spends nothing. -/
def SpendsNothing (transaction : Transaction) : Prop := transaction.body.inputs.items = []

instance : DecidablePred SpendsNothing :=
  fun transaction => inferInstanceAs (Decidable (transaction.body.inputs.items = []))

/-- What spends something was not accepted before: its inputs would be gone. -/
theorem Traces.fresh (trace : Traces initial past chain) (takes : Takes chain transaction after)
    (same : ∀ earlier ∈ past, earlier.id = transaction.id → earlier.body = transaction.body)
    (bare : SpendsNothing transaction → ∀ earlier ∈ past, SpendsNothing earlier →
      earlier.id ≠ transaction.id) : transaction.id ∉ past.map Transaction.id := by
  intro repeated
  obtain ⟨earlier, member, ids⟩ := List.mem_map.1 repeated
  have body := same earlier member ids
  cases inputs : transaction.body.inputs.items with
  | nil =>
      have nothing : SpendsNothing earlier := by rw [SpendsNothing, body, inputs]
      exact bare inputs earlier member nothing ids
  | cons input rest =>
      have spends : input ∈ transaction.body.inputs.items := inputs ▸ List.mem_cons_self
      have spent : input ∈ earlier.body.inputs.items := body ▸ spends
      exact (trace.spent earlier member input spent).1 (takes.known input spends)

end

/-! ## Runs -/

/-- The ids of the transactions that spend nothing. -/
def bareIds (transactions : List Transaction) : List (Hash 32) :=
  (transactions.filter SpendsNothing).map Transaction.id

theorem bareIds_sublist (transactions : List Transaction) :
    (bareIds transactions).Sublist (transactions.map Transaction.id) :=
  List.filter_sublist.map Transaction.id

theorem id_ne_of_nodup_bareIds {past rest : List Transaction} {transaction : Transaction}
    (distinct : (bareIds (past ++ transaction :: rest)).Nodup)
    (nothing : SpendsNothing transaction) {earlier : Transaction} (member : earlier ∈ past)
    (bare : SpendsNothing earlier) : earlier.id ≠ transaction.id := by
  unfold bareIds at distinct
  rw [List.filter_append, List.map_append] at distinct
  have before : earlier.id ∈ (past.filter SpendsNothing).map Transaction.id :=
    List.mem_map_of_mem (List.mem_filter.2 ⟨member, decide_eq_true bare⟩)
  have here : transaction.id ∈ ((transaction :: rest).filter SpendsNothing).map Transaction.id :=
    List.mem_map_of_mem (List.mem_filter.2 ⟨List.mem_cons_self, decide_eq_true nothing⟩)
  intro same
  exact (List.nodup_append'.1 distinct).2.2 before (same ▸ here)

theorem accepted_cons_of_none {chain : MemoryChain} {bytes : Bytes}
    (refused : chain.accepted? bytes = none) (rest : List Bytes) :
    chain.accepted (bytes :: rest) = (chain.afterSubmission bytes).accepted rest := by
  rw [accepted, refused]
  rfl

theorem accepted_cons_of_some {chain : MemoryChain} {bytes : Bytes} {transaction : Transaction}
    (taken : chain.accepted? bytes = some transaction) (rest : List Bytes) :
    chain.accepted (bytes :: rest) =
      transaction :: (chain.afterSubmission bytes).accepted rest := by
  rw [accepted, taken]
  rfl

/-- The record of a chain grows by the ids of the accepted transactions. -/
theorem submitted_afterAll (chain : MemoryChain) (submissions : List Bytes) :
    (chain.afterAll submissions).submitted =
      chain.submitted ++ (chain.accepted submissions).map Transaction.id := by
  induction submissions generalizing chain with
  | nil => exact (List.append_nil _).symm
  | cons bytes rest ih =>
      have later := ih (chain.afterSubmission bytes)
      obtain ⟨refused, same⟩ | ⟨transaction, taken, takes⟩ := afterSubmission_cases chain bytes
      · rw [accepted_cons_of_none refused]
        rw [same] at later ⊢
        rw [afterAll, List.foldl_cons, same]
        exact later
      · rw [accepted_cons_of_some taken, List.map_cons]
        rw [takes.submitted, List.append_assoc, List.singleton_append] at later
        exact later

theorem Traces.run {initial : List TransactionInput} {past : List Transaction}
    {chain : MemoryChain} (trace : Traces initial past chain) (submissions : List Bytes)
    (apart : ∀ name ∈ initial, ∀ transaction ∈ chain.accepted submissions,
      name.transaction ≠ transaction.id)
    (same : ∀ first ∈ past ++ chain.accepted submissions,
      ∀ second ∈ past ++ chain.accepted submissions,
        first.id = second.id → first.body = second.body)
    (few : ∀ transaction ∈ chain.accepted submissions,
      transaction.body.outputs.length ≤ bound64)
    (bare : (bareIds (past ++ chain.accepted submissions)).Nodup) :
    Traces initial (past ++ chain.accepted submissions) (chain.afterAll submissions) := by
  induction submissions generalizing past chain with
  | nil =>
      rw [accepted, List.append_nil]
      exact trace
  | cons bytes rest ih =>
      rw [afterAll, List.foldl_cons]
      obtain ⟨refused, kept⟩ | ⟨transaction, taken, takes⟩ := afterSubmission_cases chain bytes
      · rw [accepted_cons_of_none refused] at apart same few bare ⊢
        rw [kept] at apart same few bare ⊢
        exact ih trace apart same few bare
      · rw [accepted_cons_of_some taken] at apart same few bare ⊢
        have listed : transaction ∈ transaction :: (chain.afterSubmission bytes).accepted rest :=
          List.mem_cons_self
        have fresh : transaction.id ∉ past.map Transaction.id :=
          trace.fresh takes
            (fun earlier member => same earlier (List.mem_append_left _ member) transaction
              (List.mem_append_right _ listed))
            fun nothing earlier member => id_ne_of_nodup_bareIds bare nothing member
        have step := trace.takes takes (few transaction listed)
          (fun name member => apart name member transaction listed) fresh
        rw [List.append_cons] at same bare ⊢
        exact ih step
          (fun name member later listed => apart name member later (List.mem_cons_of_mem _ listed))
          same (fun later listed => few later (List.mem_cons_of_mem _ listed)) bare

/-- On a chain with distinct names that no accepted transaction makes, the only transactions that
are accepted more than once are those that spend nothing. So the record has no id twice when it
had none twice, when no old id is accepted again and when no transaction that spends nothing is;
and as long as that last does not happen, all names stay distinct. -/
theorem nodup_afterAll_iff (chain : MemoryChain) (submissions : List Bytes)
    (distinct : chain.names.Nodup)
    (apart : ∀ name ∈ chain.names, ∀ transaction ∈ chain.accepted submissions,
      name.transaction ≠ transaction.id)
    (same : ∀ first ∈ chain.accepted submissions, ∀ second ∈ chain.accepted submissions,
      first.id = second.id → first.body = second.body)
    (few : ∀ transaction ∈ chain.accepted submissions,
      transaction.body.outputs.length ≤ bound64) :
    (chain.afterAll submissions).submitted =
        chain.submitted ++ (chain.accepted submissions).map Transaction.id ∧
      ((chain.afterAll submissions).submitted.Nodup ↔
        chain.submitted.Nodup ∧
          (∀ transaction ∈ chain.accepted submissions, transaction.id ∉ chain.submitted) ∧
          (bareIds (chain.accepted submissions)).Nodup) ∧
      ((bareIds (chain.accepted submissions)).Nodup →
        (chain.afterAll submissions).names.Nodup) := by
  have recorded := submitted_afterAll chain submissions
  have traces (bare : (bareIds (chain.accepted submissions)).Nodup) :
      Traces chain.names (chain.accepted submissions) (chain.afterAll submissions) :=
    (traces_start distinct).run submissions apart same few bare
  refine ⟨recorded, ?_, fun bare => (traces bare).distinct⟩
  rw [recorded, List.nodup_append']
  constructor
  · rintro ⟨old, ids, disjoint⟩
    refine ⟨old, fun transaction member repeated => ?_, (bareIds_sublist _).nodup ids⟩
    exact disjoint repeated (List.mem_map_of_mem member)
  · rintro ⟨old, new, bare⟩
    refine ⟨old, (traces bare).once, fun id repeated member => ?_⟩
    obtain ⟨transaction, listed, rfl⟩ := List.mem_map.1 member
    exact new transaction listed repeated

namespace Sample

/-- An output that a chain holds from the start, by name. -/
def held : TransactionInput := ⟨⟨.replicate 32 5⟩, 0⟩

def output : TransactionOutput :=
  .plain (.shelley ⟨.testnet, .key ⟨.replicate 28 9⟩, .none⟩) (.ofCoin 1000000)

def vacant : MemoryChain := empty .testnet .preset

def funded : MemoryChain := vacant.addUtxo ⟨held, output⟩

/-- The wire form of the one output of the transactions. -/
def outputBytes : Bytes :=
  [0x82, 0x58, 0x1d, 0x60] ++ List.replicate 28 9 ++ [0x1a, 0x00, 0x0f, 0x42, 0x40]

/-- A transaction that moves the output. -/
def spending : Transaction := ⟨.plain [held] [output] 0, .empty, true, none⟩

def spendingBytes : Bytes :=
  [0x84, 0xa3, 0x00, 0x81, 0x82, 0x58, 0x20] ++ List.replicate 32 5 ++ [0x00, 0x01, 0x81] ++
    outputBytes ++ [0x02, 0x00, 0xa0, 0xf5, 0xf6]

/-- A transaction that makes the output out of nothing. -/
def minting : Transaction := ⟨.plain [] [output] 0, .empty, true, none⟩

def mintingBytes : Bytes :=
  [0x84, 0xa3, 0x00, 0x80, 0x01, 0x81] ++ outputBytes ++ [0x02, 0x00, 0xa0, 0xf5, 0xf6]

end Sample

/-- What moves an output is accepted once. -/
theorem nodup_afterAll_iff_spending :
    let submissions := [Sample.spendingBytes, Sample.spendingBytes]
    Sample.funded.names = [Sample.held] ∧ Sample.held.transaction ≠ Sample.spending.id ∧
      Sample.funded.accepted submissions = [Sample.spending] ∧
      (Sample.funded.afterAll submissions).submitted.Nodup ∧
      (Sample.funded.afterAll submissions).names.Nodup := by
  intro submissions
  have names : Sample.funded.names = [Sample.held] := rfl
  have apart : Sample.held.transaction ≠ Sample.spending.id := by decide +kernel
  have taken : Sample.funded.accepted? Sample.spendingBytes = some Sample.spending := rfl
  have refused : (Sample.funded.afterSubmission Sample.spendingBytes).accepted?
      Sample.spendingBytes = none :=
    Option.isNone_iff_eq_none.1 (by decide +kernel)
  have once : Sample.funded.accepted submissions = [Sample.spending] := by
    rw [accepted_cons_of_some taken, accepted_cons_of_none refused]
    rfl
  have all := nodup_afterAll_iff Sample.funded submissions
  rw [names, once] at all
  obtain ⟨_, recorded, kept⟩ := all (List.nodup_singleton _)
    (fun name member transaction listed => by
      rw [List.mem_singleton.1 member, List.mem_singleton.1 listed]
      exact apart)
    (fun first member second listed _ => by
      rw [List.mem_singleton.1 member, List.mem_singleton.1 listed])
    (fun transaction listed => by
      rw [List.mem_singleton.1 listed]
      decide)
  refine ⟨names, apart, once, recorded.2 ⟨List.nodup_nil, fun _ _ => List.not_mem_nil, ?_⟩, kept ?_⟩
  · exact List.nodup_nil
  · exact List.nodup_nil

/-- What makes an output out of nothing is accepted again, and the output is there twice. -/
theorem not_nodup_afterAll_minting :
    let submissions := [Sample.mintingBytes, Sample.mintingBytes]
    Sample.vacant.names = [] ∧ Sample.vacant.submitted = [] ∧
      Sample.vacant.accepted submissions = [Sample.minting, Sample.minting] ∧
      ¬ (Sample.vacant.afterAll submissions).submitted.Nodup ∧
      ¬ (Sample.vacant.afterAll submissions).names.Nodup := by
  intro submissions
  have recorded : (Sample.vacant.afterAll submissions).submitted =
      [Sample.minting.id, Sample.minting.id] := rfl
  have names : (Sample.vacant.afterAll submissions).names =
      [⟨Sample.minting.id, 0⟩, ⟨Sample.minting.id, 0⟩] := rfl
  refine ⟨rfl, rfl, rfl, ?_, ?_⟩
  · rw [recorded]
    simp
  · rw [names]
    simp

end UtxoLedger.MemoryChain
