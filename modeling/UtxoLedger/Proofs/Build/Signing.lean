import Mathlib.Data.List.Perm.Subperm
import UtxoLedger.Proofs.Build.FeeSufficiency

/-!
# Signed transactions keep to their size

The fee is made for a size that is taken with placeholders. Signing puts at
most one signature for each key that has to sign into their place, and every
signature is as long as a placeholder: the signed transaction is no longer
than the size that was reported, and exactly as long when all keys have
signed.
-/

namespace UtxoLedger

/-! ## Lengths of signatures -/

/-- A key of 32 and a signature of 64 bytes with their heads. -/
theorem KeyWitness.length_encode (witness : KeyWitness) : (Cbor.encode witness).length = 101 := by
  obtain ⟨key, signature⟩ := witness
  change (Cbor.Positional.encode [Cbor.Encoder.bytes key.bytes,
    Cbor.Encoder.bytes signature.bytes]).length = 101
  simp only [Cbor.Positional.encode, Cbor.Encoder.bytes, Cbor.Encoder.array,
    List.length_append, Cbor.Encoder.length_head, List.flatten_cons, List.flatten_nil,
    List.length_cons, List.length_nil, key.length_bytes, signature.length_bytes]
  decide

theorem length_encodeAll_signatures (signatures : List KeyWitness) :
    (Cbor.encodeAll Cbor.encode signatures).length = 101 * signatures.length := by
  induction signatures with
  | nil => rfl
  | cons first rest ih =>
      have split : Cbor.encodeAll Cbor.encode (first :: rest) =
          Cbor.encode first ++ Cbor.encodeAll Cbor.encode rest := rfl
      rw [split, List.length_append, first.length_encode, ih, List.length_cons]
      omega

namespace WitnessSet

/-- The witnesses with the given signatures. -/
def signedBy (witnesses : WitnessSet) (signatures : List KeyWitness) : WitnessSet :=
  { witnesses with keys := Cbor.WireSet.nonEmpty? signatures }

/-- The signatures, none when there is no set of them. -/
def signatures (witnesses : WitnessSet) : List KeyWitness :=
  (witnesses.keys.map (·.items)).getD []

@[simp]
theorem signatures_signedBy (witnesses : WitnessSet) (signatures : List KeyWitness) :
    (witnesses.signedBy signatures).signatures = signatures := by
  cases signatures <;> rfl

theorem noShorter_signatures {first second : List KeyWitness} (fewer : first.length ≤ second.length) :
    Cbor.NoShorter ((Cbor.WireSet.nonEmpty? first).map Cbor.encode)
      ((Cbor.WireSet.nonEmpty? second).map Cbor.encode) := by
  have written (signatures : List KeyWitness) :
      (Cbor.encode (Cbor.WireSet.plain signatures)).length =
        Cbor.Encoder.headLength signatures.length + 101 * signatures.length := by
    change (Cbor.Encoder.array signatures.length ++
      Cbor.encodeAll Cbor.encode signatures).length = _
    rw [List.length_append, Cbor.Encoder.array, Cbor.Encoder.length_head,
      length_encodeAll_signatures]
  cases first with
  | nil => exact Cbor.noShorter_none _
  | cons head rest =>
      cases second with
      | nil => cases fewer
      | cons other later =>
          refine Cbor.noShorter_some ?_
          have heads := Cbor.Encoder.headLength_mono fewer
          rw [written, written]
          omega

/-- More signatures take no fewer bytes, whatever they are. -/
theorem length_encode_signedBy_le (witnesses : WitnessSet) {first second : List KeyWitness}
    (fewer : first.length ≤ second.length) :
    (Cbor.encode (witnesses.signedBy first)).length ≤
      (Cbor.encode (witnesses.signedBy second)).length := by
  refine record.length_encode_le ?_
  have others := Cbor.NoShorter.refl
  simp only [record, List.forall_mem_cons, List.not_mem_nil, false_implies, implies_true, and_true]
  exact ⟨noShorter_signatures fewer, others _, others _, others _, others _, others _, others _,
    others _⟩

theorem length_encode_signedBy (witnesses : WitnessSet) {first second : List KeyWitness}
    (same : first.length = second.length) :
    (Cbor.encode (witnesses.signedBy first)).length =
      (Cbor.encode (witnesses.signedBy second)).length :=
  Nat.le_antisymm (witnesses.length_encode_signedBy_le (Nat.le_of_eq same))
    (witnesses.length_encode_signedBy_le (Nat.le_of_eq same.symm))

end WitnessSet

/-! ## Signing -/

namespace Draft.Result

/-- The result with the given signatures. -/
def signedBy (result : Result) (signatures : List KeyWitness) : Result :=
  { result with built := result.built.withSignatures signatures }

/-- The key's signature of the result. -/
def signature (result : Result) (key : Ed25519.SecretKey) : KeyWitness :=
  ⟨key.publicKey, key.sign result.built.id.bytes⟩

/-- Signing puts the signature of a key that has to sign behind those of other keys. -/
theorem sign_signedBy (result : Result) (signatures : List KeyWitness) (key : Ed25519.SecretKey) :
    (result.signedBy signatures).sign key =
      if key.publicKey.hash ∈ result.signers.toList then
        result.signedBy (signatures.filter (·.key ≠ key.publicKey) ++ [result.signature key])
      else result.signedBy signatures := by
  have present : (result.built.withSignatures signatures).signatures = signatures :=
    result.built.witnesses.signatures_signedBy signatures
  unfold sign BuiltTransaction.sign BuiltTransaction.addSignature
  simp only [signedBy, present, List.contains_iff_mem]
  rfl

/-- The signatures of those of the keys that have to sign. -/
structure AreSignatures (result : Result) (keys : List Ed25519.SecretKey)
    (signatures : List KeyWitness) : Prop where
  distinct : (signatures.map (·.key)).Nodup
  made : ∀ witness ∈ signatures, ∃ key ∈ keys, key.publicKey.hash ∈ result.signers.toList ∧
    witness = result.signature key
  complete : ∀ key ∈ keys, key.publicKey.hash ∈ result.signers.toList →
    key.publicKey ∈ signatures.map (·.key)

theorem areSignatures_nil (result : Result) : result.AreSignatures [] [] where
  distinct := List.nodup_nil
  made _ none := absurd none List.not_mem_nil
  complete _ none := absurd none List.not_mem_nil

/-- One more key. -/
theorem AreSignatures.sign {result : Result} {keys : List Ed25519.SecretKey}
    {signatures : List KeyWitness} (signed : result.AreSignatures keys signatures)
    {key : Ed25519.SecretKey} (required : key.publicKey.hash ∈ result.signers.toList) :
    result.AreSignatures (keys ++ [key])
      (signatures.filter (·.key ≠ key.publicKey) ++ [result.signature key]) where
  distinct := by
    rw [List.map_append, List.nodup_append]
    refine ⟨signed.distinct.sublist (List.filter_sublist.map _), List.nodup_singleton _, ?_⟩
    intro kept listed other single same
    obtain ⟨witness, member, rfl⟩ := List.mem_map.1 listed
    have different := (List.mem_filter.1 member).2
    rw [List.map_singleton, List.mem_singleton] at single
    simp [same, single, signature] at different
  made witness member := by
    rcases List.mem_append.1 member with earlier | last
    · obtain ⟨other, given, made⟩ := signed.made witness (List.mem_filter.1 earlier).1
      exact ⟨other, List.mem_append_left _ given, made⟩
    · exact ⟨key, List.mem_append_right _ (List.mem_singleton_self key), required,
        List.mem_singleton.1 last⟩
  complete other given needed := by
    rw [List.map_append, List.mem_append]
    by_cases same : other.publicKey = key.publicKey
    · exact .inr (by simp [same, signature])
    · rcases List.mem_append.1 given with earlier | last
      · obtain ⟨witness, member, named⟩ := List.mem_map.1 (signed.complete other earlier needed)
        refine .inl (List.mem_map.2 ⟨witness, List.mem_filter.2 ⟨member, ?_⟩, named⟩)
        simpa [named] using same
      · exact absurd (congrArg _ (List.mem_singleton.1 last)) same

/-- A key that does not have to sign is passed over. -/
theorem AreSignatures.skip {result : Result} {keys : List Ed25519.SecretKey}
    {signatures : List KeyWitness} (signed : result.AreSignatures keys signatures)
    {key : Ed25519.SecretKey} (spare : key.publicKey.hash ∉ result.signers.toList) :
    result.AreSignatures (keys ++ [key]) signatures where
  distinct := signed.distinct
  made witness member := by
    obtain ⟨other, given, made⟩ := signed.made witness member
    exact ⟨other, List.mem_append_left _ given, made⟩
  complete other given needed := by
    rcases List.mem_append.1 given with earlier | last
    · exact signed.complete other earlier needed
    · exact absurd (List.mem_singleton.1 last ▸ needed) spare

/-- Signing with keys one after the other. -/
theorem AreSignatures.foldl {result : Result} {keys : List Ed25519.SecretKey}
    {signatures : List KeyWitness} (signed : result.AreSignatures keys signatures)
    (later : List Ed25519.SecretKey) :
    ∃ after, later.foldl Result.sign (result.signedBy signatures) = result.signedBy after ∧
      result.AreSignatures (keys ++ later) after := by
  induction later generalizing keys signatures with
  | nil => exact ⟨signatures, rfl, by simpa using signed⟩
  | cons key rest ih =>
      rw [List.foldl_cons, sign_signedBy, List.append_cons keys key rest]
      by_cases required : key.publicKey.hash ∈ result.signers.toList
      · rw [if_pos required]
        exact ih (signed.sign required)
      · rw [if_neg required]
        exact ih (signed.skip required)

/-- Two different keys have one digest. -/
def Collide (keys : List Ed25519.SecretKey) : Prop :=
  ∃ first ∈ keys, ∃ second ∈ keys, first.publicKey ≠ second.publicKey ∧
    first.publicKey.hash = second.publicKey.hash

section

variable {result : Result} {keys : List Ed25519.SecretKey} {signatures : List KeyWitness}

theorem AreSignatures.hash_mem (signed : result.AreSignatures keys signatures)
    {witness : KeyWitness} (member : witness ∈ signatures) :
    witness.key.hash ∈ result.signers.toList := by
  obtain ⟨key, _, required, rfl⟩ := signed.made witness member
  exact required

/-- There is at most one signature for each key that has to sign. -/
theorem AreSignatures.length_le (signed : result.AreSignatures keys signatures)
    (apart : ¬ Collide keys) : signatures.length ≤ result.signers.size := by
  have given (key : Ed25519.PublicKey) (listed : key ∈ signatures.map (·.key)) :
      ∃ secret ∈ keys, secret.publicKey = key := by
    obtain ⟨witness, member, rfl⟩ := List.mem_map.1 listed
    obtain ⟨secret, known, _, rfl⟩ := signed.made witness member
    exact ⟨secret, known, rfl⟩
  have injective : ∀ first ∈ signatures.map (·.key), ∀ second ∈ signatures.map (·.key),
      first.hash = second.hash → first = second := by
    intro first firstListed second secondListed same
    obtain ⟨left, leftGiven, rfl⟩ := given first firstListed
    obtain ⟨right, rightGiven, rfl⟩ := given second secondListed
    by_contra different
    exact apart ⟨left, leftGiven, right, rightGiven, different, same⟩
  have distinct : ((signatures.map (·.key)).map (·.hash)).Nodup :=
    signed.distinct.map_on injective
  have inside : (signatures.map (·.key)).map (·.hash) ⊆ result.signers.toList := by
    intro hash listed
    rw [List.map_map, List.mem_map] at listed
    obtain ⟨witness, member, rfl⟩ := listed
    exact signed.hash_mem member
  have fewer := (List.subperm_of_subset distinct inside).length_le
  rwa [List.length_map, List.length_map, OrderedSet.length_toList] at fewer

/-- The keys cover all those that have to sign. -/
def IsCoveredBy (result : Result) (keys : List Ed25519.SecretKey) : Prop :=
  ∀ signer ∈ result.signers.toList, ∃ key ∈ keys, key.publicKey.hash = signer

theorem AreSignatures.length_ge (signed : result.AreSignatures keys signatures)
    (covered : result.IsCoveredBy keys) : result.signers.size ≤ signatures.length := by
  have inside : result.signers.toList ⊆ signatures.map (·.key.hash) := by
    intro signer required
    obtain ⟨key, given, rfl⟩ := covered signer required
    obtain ⟨witness, member, named⟩ := List.mem_map.1 (signed.complete key given required)
    exact List.mem_map.2 ⟨witness, member, congrArg _ named⟩
  have fewer := (List.subperm_of_subset (OrderedSet.nodup_toList result.signers) inside).length_le
  rwa [List.length_map, OrderedSet.length_toList] at fewer

end

end Draft.Result

/-! ## Whole transactions -/

theorem Transaction.length_encode (transaction : Transaction) :
    (Cbor.encode transaction).length = (Cbor.Encoder.array 4).length +
      (Cbor.encode transaction.body).length + (Cbor.encode transaction.witnesses).length +
      (Cbor.encode transaction.isSuccess).length +
      (Cbor.encode transaction.auxiliaryData).length := by
  change (Cbor.Encoder.array 4 ++ _ ++ _ ++ _ ++ _).length = _
  simp only [List.length_append]

namespace Draft

/-- What a run makes. -/
theorem Run.result_eq {draft : Draft} {context : ChainContext} {selectors : List Selector}
    {changeAddress : Option Address} {plan : Plan} {inputs : List Utxo} {balance : Plan.Balance}
    {result : Result}
    (run : draft.Run context selectors changeAddress plan inputs balance result)
    (built : (draft.build context selectors changeAddress).result = .ok result) :
    result = ⟨⟨plan.draft.body inputs balance.outputs balance.fee, plan.draft.witnesses,
      plan.draft.auxiliaryData⟩, plan.draft.signers inputs⟩ := by
  obtain ⟨prepared, parameters, change⟩ := plan
  obtain rfl : change = changeAddress := run.addressed
  have made := (Plan.built_of_finish run.finished).1
  have asked : context.parameters.mapError BuildError.chain = .ok parameters := by
    rw [run.parameters]
    rfl
  have preparing := run.prepared
  unfold build at built
  simp only [Traced.result_emit, Traced.result_bind, Traced.result_ofExcept, Except.bind,
    asked, preparing, run.funded, run.balanced, run.finished,
    Traced.result_pure, Except.ok.injEq] at built
  rw [made] at built
  exact built.symm

/-- A built transaction has no signatures yet. -/
theorem Run.signedBy_nil {draft : Draft} {context : ChainContext} {selectors : List Selector}
    {changeAddress : Option Address} {plan : Plan} {inputs : List Utxo} {balance : Plan.Balance}
    {result : Result}
    (run : draft.Run context selectors changeAddress plan inputs balance result) :
    result.signedBy [] = result := by
  have made := (Plan.built_of_finish run.finished).1
  obtain ⟨built, signers⟩ := result
  change built = _ at made
  rw [made]
  rfl

section

variable {draft : Draft} {context : ChainContext} {selectors : List Selector}
  {changeAddress : Option Address} {plan : Plan} {inputs : List Utxo} {balance : Plan.Balance}
  {result : Result} {signatures : List KeyWitness}

/-- The signed transaction differs from the one with placeholders in its signatures alone. -/
theorem Run.length_encode_signedBy
    (run : draft.Run context selectors changeAddress plan inputs balance result)
    (counted : draft.options.signatureCount = none)
    (signers : result.signers = plan.draft.signers inputs) :
    (signatures.length ≤ result.signers.size →
      (Cbor.encode (result.signedBy signatures).built.toTransaction).length ≤
        plan.encodedLength inputs balance.outputs balance.fee) ∧
    (signatures.length = result.signers.size →
      (Cbor.encode (result.signedBy signatures).built.toTransaction).length =
        plan.encodedLength inputs balance.outputs balance.fee) := by
  have placed : (Placeholder.signatures (plan.draft.signatureCount inputs)).length =
      result.signers.size := by
    have options := (sameRequest_prepare run.prepared).options
    rw [signatureCount, options, counted, signers, Placeholder.signatures, List.length_map,
      List.length_range]
  have transaction : (result.signedBy signatures).built.toTransaction =
      ⟨plan.draft.body inputs balance.outputs balance.fee,
        plan.draft.witnesses.signedBy signatures, true, plan.draft.auxiliaryData⟩ := by
    change (result.built.withSignatures signatures).toTransaction = _
    rw [(Plan.built_of_finish run.finished).1]
    rfl
  have whole : plan.encodedLength inputs balance.outputs balance.fee =
      (Cbor.encode (⟨plan.draft.body inputs balance.outputs balance.fee,
        plan.draft.witnesses.signedBy
          (Placeholder.signatures (plan.draft.signatureCount inputs)),
        true, plan.draft.auxiliaryData⟩ : Transaction)).length := rfl
  rw [transaction, whole, Transaction.length_encode, Transaction.length_encode]
  constructor
  · intro fewer
    have witnesses := plan.draft.witnesses.length_encode_signedBy_le (fewer.trans_eq placed.symm)
    simp only
    omega
  · intro same
    have witnesses := plan.draft.witnesses.length_encode_signedBy (same.trans placed.symm)
    simp only
    omega

end

/-- A signed transaction has the body of a build. Its signatures are of different keys, all of which
have to sign, and as long as lengths are words, it is no longer than the size that the build
reports and exactly as long when all keys that have to sign are given. -/
theorem buildAndSign_keeps_size {draft : Draft} {context : ChainContext}
    {selectors : List Selector} {changeAddress : Option Address}
    {keys : List Ed25519.SecretKey} {transaction : Transaction}
    (counted : draft.options.signatureCount = none) (apart : ¬ Result.Collide keys)
    (signed : (draft.buildAndSign context selectors changeAddress keys).result =
      .ok transaction) :
    ∃ plan inputs balance result size,
      (draft.build context selectors changeAddress).result = .ok result ∧
      draft.Run context selectors changeAddress plan inputs balance result ∧
      [.balanced size result.built.body.fee, .stage .finalized] <:+
        (draft.buildAndSign context selectors changeAddress keys).events ∧
      size ≤ plan.parameters.maxTxSize ∧
      transaction.body = result.built.body ∧
      (transaction.witnesses.signatures.map (·.key)).Nodup ∧
      (∀ witness ∈ transaction.witnesses.signatures,
        witness.key.hash ∈ result.signers.toList) ∧
      (plan.encodedLength inputs balance.outputs balance.fee < bound64 →
        (Cbor.encode transaction).length ≤ size.toNat ∧
        (result.IsCoveredBy keys → (Cbor.encode transaction).length = size.toNat)) := by
  obtain ⟨result, built, made⟩ := Traced.result_bind_eq_ok.1 signed
  obtain ⟨plan, inputs, balance, run⟩ := exists_run built
  obtain ⟨signatures, folded, genuine⟩ := result.areSignatures_nil.foldl keys
  have same : transaction = (result.signedBy signatures).built.toTransaction := by
    rw [run.signedBy_nil] at folded
    rw [← Except.ok.inj made, folded]
  have present : transaction.witnesses.signatures = signatures := by
    rw [same]
    exact result.built.witnesses.signatures_signedBy signatures
  have reported := run.reported
  rw [Plan.events_of_finish run.finished] at reported
  have finished := Plan.finish_eq_ok run.finished
  have fee : result.built.body.fee = balance.fee := by
    rw [finished.1]
    rfl
  refine ⟨plan, inputs, balance, result, _, built, run, ?_, finished.2, ?_, ?_, ?_, ?_⟩
  · rw [fee, buildAndSign, Traced.events_bind_pure]
    exact reported
  · rw [same]
    rfl
  · rw [present]
    exact genuine.distinct
  · rw [present]
    exact fun witness member => genuine.hash_mem member
  · intro fits
    have size : (plan.draft.signedSize inputs result.built.body).toNat =
        plan.encodedLength inputs balance.outputs balance.fee := by
      rw [finished.1, signedSize, UInt64.toNat_ofNat']
      exact Nat.mod_eq_of_lt fits
    have lengths := @Run.length_encode_signedBy _ _ _ _ _ _ _ _ signatures run counted
      (congrArg Result.signers (run.result_eq built))
    rw [size, same]
    refine ⟨lengths.1 (genuine.length_le apart), fun covered => lengths.2 ?_⟩
    exact Nat.le_antisymm (genuine.length_le apart) (genuine.length_ge covered)

/-! ### A transaction that needs one of two keys -/

namespace Signed

def key : Ed25519.SecretKey := .plain ⟨.replicate 32 7, by decide⟩

def spareKey : Ed25519.SecretKey := .plain ⟨.replicate 32 8, by decide⟩

def digest : Hash 28 :=
  ⟨⟨[139, 33, 132, 36, 173, 116, 223, 37, 211, 92, 46, 168, 224, 148, 164, 197, 197, 174, 178, 203,
    180, 66, 65, 147, 49, 86, 147, 19], by decide⟩⟩

theorem hash_key : key.publicKey.hash = digest := by decide +kernel

theorem hash_spareKey : spareKey.publicKey.hash ≠ digest := by decide +kernel

def address : Address := .shelley ⟨.testnet, .key digest, .none⟩

def utxo : Utxo := ⟨⟨⟨.replicate 32 5⟩, 0⟩, .plain address (.ofCoin 5000000)⟩

def context : ChainContext := ⟨.ok .preset, .testnet, .ok 0, fun _ => .ok []⟩

def draft : Draft := empty.addInput utxo

def plan : Plan := ⟨draft, .preset, some address⟩

theorem not_collide : ¬ Result.Collide [spareKey, key, key] := by
  rintro ⟨first, firstGiven, second, secondGiven, different, same⟩
  simp only [List.mem_cons, List.not_mem_nil, or_false, or_self] at firstGiven secondGiven
  rcases firstGiven with rfl | rfl <;> rcases secondGiven with rfl | rfl
  · exact different rfl
  · exact hash_spareKey (same.trans hash_key)
  · exact hash_spareKey (same.symm.trans hash_key)
  · exact different rfl

end Signed

/-- The key that is needed signs twice and a key that is not needed signs once. -/
theorem buildAndSign_keeps_size_covered :
    ∃ transaction size fee,
      (Signed.draft.buildAndSign Signed.context [] (some Signed.address)
        [Signed.spareKey, Signed.key, Signed.key]).result = .ok transaction ∧
      [.balanced size fee, .stage .finalized] <:+
        (Signed.draft.buildAndSign Signed.context [] (some Signed.address)
          [Signed.spareKey, Signed.key, Signed.key]).events ∧
      size ≤ 16384 ∧ (Cbor.encode transaction).length = size.toNat ∧
      ∀ witness ∈ transaction.witnesses.signatures, witness.key.hash = Signed.digest := by
  have succeeds : (Signed.draft.build Signed.context [] (some Signed.address)).result.toOption.map
      (·.signers.toList) = some [Signed.digest] := by decide +kernel
  have funds : (Plan.fund Signed.plan Signed.context []).result.toOption =
      some [Signed.utxo] := by decide +kernel
  have short : (Signed.plan.balance [Signed.utxo]).result.toOption.map (fun balance =>
      decide (Signed.plan.encodedLength [Signed.utxo] balance.outputs balance.fee < bound64)) =
      some true := by decide +kernel
  cases built : (Signed.draft.build Signed.context [] (some Signed.address)).result with
  | error error => simp [built, Except.toOption] at succeeds
  | ok first =>
      have signed : (Signed.draft.buildAndSign Signed.context [] (some Signed.address)
          [Signed.spareKey, Signed.key, Signed.key]).result =
          .ok ([Signed.spareKey, Signed.key, Signed.key].foldl Result.sign
            first).built.toTransaction :=
        Traced.result_bind_eq_ok.2 ⟨first, built, rfl⟩
      obtain ⟨plan, inputs, balance, result, size, again, run, reported, small, _, _, required,
        sized⟩ := buildAndSign_keeps_size rfl Signed.not_collide signed
      obtain rfl : first = result := Except.ok.inj (built.symm.trans again)
      obtain rfl : plan = Signed.plan := run.plan_eq rfl rfl
      obtain rfl : inputs = [Signed.utxo] := by
        simpa [run.funded, Except.toOption] using funds
      have fits : Signed.plan.encodedLength [Signed.utxo] balance.outputs balance.fee < bound64 := by
        simpa [run.balanced, Except.toOption] using short
      have signers : first.signers.toList = [Signed.digest] := by
        simpa [built, Except.toOption] using succeeds
      have covered : first.IsCoveredBy [Signed.spareKey, Signed.key, Signed.key] := by
        intro signer member
        rw [signers, List.mem_singleton] at member
        exact ⟨Signed.key, by simp, member ▸ Signed.hash_key⟩
      refine ⟨_, size, _, signed, reported, small, (sized fits).2 covered, ?_⟩
      intro witness member
      simpa [signers] using required witness member

end Draft

end UtxoLedger
