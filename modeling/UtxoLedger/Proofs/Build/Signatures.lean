import Mathlib.Data.List.Induction
import UtxoLedger.Proofs.Build.Conservation
import UtxoLedger.Proofs.Build.Signing

/-!
# Signatures after any calls

Signatures of a built transaction are added, made and removed in any order.
What the calls leave is told by the calls alone: a key has signed when the last
call about it gave it a signature, which is the one that stands; and the
signatures stand in the order in which they were last added. Nothing else of
the transaction changes.
-/

namespace UtxoLedger.BuiltTransaction

/-! ## Calls -/

/-- A call that changes the signatures of a built transaction. -/
inductive SignatureCall where
  | add (key : Ed25519.PublicKey) (signature : Ed25519.Signature)
  | sign (key : Ed25519.SecretKey)
  | remove (key : Ed25519.PublicKey)

namespace SignatureCall

/-- The key that the call is about. -/
def key : SignatureCall → Ed25519.PublicKey
  | add key _ => key
  | sign key => key.publicKey
  | remove key => key

/-- The signature that the call leaves its key with, when the transaction has the given id. -/
def signature? (id : Hash 32) : SignatureCall → Option Ed25519.Signature
  | add _ signature => some signature
  | sign key => some (key.sign id.bytes)
  | remove _ => none

/-- The call gives the key a signature. -/
def Adds (other : Ed25519.PublicKey) : SignatureCall → Prop
  | add key _ => key = other
  | sign key => key.publicKey = other
  | remove _ => False

instance (other : Ed25519.PublicKey) : DecidablePred (Adds other)
  | add key _ => inferInstanceAs (Decidable (key = other))
  | sign key => inferInstanceAs (Decidable (key.publicKey = other))
  | remove _ => inferInstanceAs (Decidable False)

theorem not_adds_of_ne {call : SignatureCall} {other : Ed25519.PublicKey}
    (apart : call.key ≠ other) : ¬ call.Adds other := by
  cases call with
  | add key signature => exact apart
  | sign key => exact apart
  | remove key => exact not_false

theorem adds_of_signature? {call : SignatureCall} {id : Hash 32} {signature : Ed25519.Signature}
    (given : call.signature? id = some signature) : call.Adds call.key := by
  cases call with
  | add key signature => rfl
  | sign key => rfl
  | remove key => cases given

end SignatureCall

def apply (built : BuiltTransaction) : SignatureCall → BuiltTransaction
  | .add key signature => built.addSignature key signature
  | .sign key => built.sign key
  | .remove key => built.removeSignature key

def applyAll (built : BuiltTransaction) (calls : List SignatureCall) : BuiltTransaction :=
  calls.foldl apply built

/-! ## What calls leave -/

/-- The signature that calls leave a key with: that of the last call about the key, unless the
call removes it. -/
def signatureAfter? (id : Hash 32) (calls : List SignatureCall) (key : Ed25519.PublicKey) :
    Option Ed25519.Signature :=
  (calls.filter fun call => call.key = key).getLast?.bind (·.signature? id)

/-- The place of the last call that gives the key a signature, counted from one; zero when there
is none. -/
def lastAddition (calls : List SignatureCall) (key : Ed25519.PublicKey) : Nat :=
  calls.length - calls.reverse.findIdx fun call => call.Adds key

theorem signatureAfter?_concat (id : Hash 32) (calls : List SignatureCall) (call : SignatureCall)
    (key : Ed25519.PublicKey) :
    signatureAfter? id (calls ++ [call]) key =
      if call.key = key then call.signature? id else signatureAfter? id calls key := by
  unfold signatureAfter?
  rw [List.filter_append, List.filter_singleton]
  by_cases about : call.key = key
  · simp [about]
  · simp [about]

theorem lastAddition_concat (calls : List SignatureCall) (call : SignatureCall)
    (key : Ed25519.PublicKey) :
    lastAddition (calls ++ [call]) key =
      if call.Adds key then calls.length + 1 else lastAddition calls key := by
  unfold lastAddition
  rw [List.reverse_append, List.reverse_singleton, List.singleton_append, List.findIdx_cons,
    List.length_append, List.length_singleton]
  by_cases adds : call.Adds key
  · simp [adds]
  · simp [adds, Nat.add_sub_add_right]

theorem lastAddition_le (calls : List SignatureCall) (key : Ed25519.PublicKey) :
    lastAddition calls key ≤ calls.length := Nat.sub_le ..

/-- The signatures are those that the calls leave, one for each key, by last addition. -/
structure Tracks (id : Hash 32) (calls : List SignatureCall) (signatures : List KeyWitness) :
    Prop where
  current : ∀ key signature,
    ⟨key, signature⟩ ∈ signatures ↔ signatureAfter? id calls key = some signature
  ordered : signatures.Pairwise fun first second =>
    lastAddition calls first.key < lastAddition calls second.key

theorem Tracks.nodup {id : Hash 32} {calls : List SignatureCall} {signatures : List KeyWitness}
    (tracks : Tracks id calls signatures) : (signatures.map (·.key)).Nodup := by
  rw [List.Nodup, List.pairwise_map]
  exact tracks.ordered.imp fun before same => Nat.ne_of_lt before (congrArg _ same)

theorem Tracks.eq_nil_iff {id : Hash 32} {calls : List SignatureCall}
    {signatures : List KeyWitness} (tracks : Tracks id calls signatures) :
    signatures = [] ↔ ∀ key, signatureAfter? id calls key = none := by
  rw [List.eq_nil_iff_forall_not_mem]
  constructor
  · intro none key
    exact Option.eq_none_iff_forall_ne_some.2 fun signature signs =>
      none _ ((tracks.current key signature).2 signs)
  · intro nobody witness member
    have signs := (tracks.current witness.key witness.signature).1 member
    exact nomatch (nobody witness.key).symm.trans signs

/-- What a call makes of signatures. -/
def signaturesAfter (id : Hash 32) (signatures : List KeyWitness) (call : SignatureCall) :
    List KeyWitness :=
  signatures.filter (·.key ≠ call.key) ++ ((call.signature? id).map (⟨call.key, ·⟩)).toList

/-- One more call leaves the signatures of other keys alone, in their order. -/
theorem Tracks.step {id : Hash 32} {calls : List SignatureCall} {signatures : List KeyWitness}
    (tracks : Tracks id calls signatures) (call : SignatureCall) :
    Tracks id (calls ++ [call]) (signaturesAfter id signatures call) := by
  constructor
  · intro key signature
    unfold signaturesAfter
    rw [signatureAfter?_concat, List.mem_append, List.mem_filter, tracks.current]
    by_cases about : call.key = key
    · simp [about]
    · simp [about, Ne.symm about]
  · unfold signaturesAfter
    rw [List.pairwise_append]
    refine ⟨?_, ?_, ?_⟩
    · rw [List.pairwise_filter]
      refine tracks.ordered.imp fun {first second} before left right => ?_
      have apart {key : Ed25519.PublicKey} (other : decide (key ≠ call.key) = true) :
          ¬ call.Adds key :=
        SignatureCall.not_adds_of_ne (Ne.symm (of_decide_eq_true other))
      rw [lastAddition_concat, lastAddition_concat, if_neg (apart left), if_neg (apart right)]
      exact before
    · cases call.signature? id with
      | none => exact List.Pairwise.nil
      | some signature => exact List.pairwise_singleton _ _
    · intro held kept added new
      obtain ⟨signature, given, rfl⟩ := Option.map_eq_some_iff.1 (Option.mem_toList.1 new)
      have other := of_decide_eq_true (List.mem_filter.1 kept).2
      rw [lastAddition_concat, lastAddition_concat,
        if_neg (SignatureCall.not_adds_of_ne (Ne.symm other)),
        if_pos (SignatureCall.adds_of_signature? given)]
      exact Nat.lt_succ_of_le (lastAddition_le calls held.key)

/-! ## Runs of calls -/

theorem nonEmpty?_eq_none_iff {α : Type} {items : List α} :
    Cbor.WireSet.nonEmpty? items = none ↔ items = [] := by
  cases items <;> simp [Cbor.WireSet.nonEmpty?]

theorem items_of_nonEmpty?_eq_some {α : Type} {items : List α} {set : Cbor.WireSet α}
    (found : Cbor.WireSet.nonEmpty? items = some set) : set.items = items := by
  cases items with
  | nil => cases found
  | cons first rest =>
      cases found
      rfl

theorem signatures_withSignatures (built : BuiltTransaction) (signatures : List KeyWitness) :
    (built.withSignatures signatures).signatures = signatures :=
  built.witnesses.signatures_signedBy signatures

theorem apply_eq (built : BuiltTransaction) (call : SignatureCall) :
    built.apply call = built.withSignatures (signaturesAfter built.id built.signatures call) := by
  cases call with
  | add key signature => rfl
  | sign key => rfl
  | remove key =>
      change _ = built.withSignatures (_ ++ [])
      rw [List.append_nil]
      rfl

/-- Calls on a transaction without signatures change its signatures alone, to what they leave. -/
theorem applyAll_eq {built : BuiltTransaction} (unsigned : built.witnesses.keys = none)
    (calls : List SignatureCall) :
    ∃ signatures, built.applyAll calls = built.withSignatures signatures ∧
      Tracks built.id calls signatures := by
  induction calls using List.reverseRecOn with
  | nil =>
      refine ⟨[], ?_, ⟨fun _ _ => ⟨nofun, nofun⟩, List.Pairwise.nil⟩⟩
      obtain ⟨body, witnesses, auxiliaryData⟩ := built
      obtain ⟨_, _, _, _, _, _, _, _⟩ := witnesses
      cases unsigned
      rfl
  | append_singleton earlier call ih =>
      obtain ⟨signatures, applied, tracks⟩ := ih
      refine ⟨signaturesAfter built.id signatures call, ?_, tracks.step call⟩
      unfold applyAll at applied ⊢
      rw [List.foldl_append, applied, List.foldl_cons, List.foldl_nil, apply_eq,
        signatures_withSignatures]
      rfl

/-- After any calls on a transaction that was just built: it has no set of signatures exactly when
no key has signed, and otherwise the set holds one signature of each key that has signed, the one
that its last call gave it, in the order of the last additions. The rest of the transaction is as
it was built. -/
theorem signatures_applyAll {draft : Draft} {context : ChainContext} {selectors : List Selector}
    {changeAddress : Option Address} {result : Draft.Result}
    (built : (draft.build context selectors changeAddress).result = .ok result)
    (calls : List SignatureCall) :
    let signed := result.built.applyAll calls
    let current := signatureAfter? result.built.id calls
    (signed.witnesses.keys = none ↔ ∀ key, current key = none) ∧
      (∀ set, signed.witnesses.keys = some set →
        (set.items.map (·.key)).Nodup ∧
        (∀ key signature, ⟨key, signature⟩ ∈ set.items ↔ current key = some signature) ∧
        set.items.Pairwise fun first second =>
          lastAddition calls first.key < lastAddition calls second.key) ∧
      signed.body = result.built.body ∧ signed.id = result.built.id ∧
      signed.witnesses = { result.built.witnesses with keys := signed.witnesses.keys } ∧
      signed.auxiliaryData = result.built.auxiliaryData := by
  obtain ⟨plan, inputs, balance, run⟩ := Draft.exists_run built
  have unsigned : result.built.witnesses.keys = none := by
    rw [(Plan.built_of_finish run.finished).1]
    rfl
  obtain ⟨signatures, applied, tracks⟩ := applyAll_eq unsigned calls
  intro signed current
  have same : signed = result.built.withSignatures signatures := applied
  have keys : signed.witnesses.keys = Cbor.WireSet.nonEmpty? signatures := by rw [same]; rfl
  refine ⟨?_, ?_, ?_⟩
  · rw [keys, nonEmpty?_eq_none_iff]
    exact tracks.eq_nil_iff
  · intro set found
    rw [keys] at found
    rw [items_of_nonEmpty?_eq_some found]
    exact ⟨tracks.nodup, tracks.current, tracks.ordered⟩
  · rw [same]
    exact ⟨rfl, rfl, rfl, rfl⟩

namespace Sample

def key (byte : UInt8) : Ed25519.PublicKey := ⟨.replicate 32 byte⟩

def signature (byte : UInt8) : Ed25519.Signature := ⟨.replicate 64 byte⟩

/-- One key signs twice, another signs once and is removed, a third is only removed. -/
def calls : List SignatureCall :=
  [.add (key 1) (signature 1), .add (key 2) (signature 2), .remove (key 3),
    .add (key 1) (signature 3), .remove (key 2)]

theorem signatureAfter?_calls (id : Hash 32) (other : Ed25519.PublicKey) :
    signatureAfter? id calls other = if key 1 = other then some (signature 3) else none := by
  have turns : calls = [] ++ [.add (key 1) (signature 1)] ++ [.add (key 2) (signature 2)] ++
      [.remove (key 3)] ++ [.add (key 1) (signature 3)] ++ [.remove (key 2)] := rfl
  have apart : key 2 ≠ key 1 := by decide
  rw [turns]
  simp only [signatureAfter?_concat, SignatureCall.key, SignatureCall.signature?]
  by_cases first : key 1 = other
  · simp [← first, apart]
  · by_cases second : key 2 = other
    · simp [first, second]
    · by_cases third : key 3 = other
      · simp [first, second, third]
      · simp [first, second, third, signatureAfter?]

end Sample

/-- The second signature of the first key stands alone. -/
theorem signatures_applyAll_sample :
    ∃ result, (Draft.Sample.draft.build Draft.Sample.context [.largestFirst]
        (some (Draft.Sample.address 7))).result = .ok result ∧
      ∃ set, (result.built.applyAll Sample.calls).witnesses.keys = some set ∧
        (set.items.map (·.key)).Nodup ∧
        ∀ witness, witness ∈ set.items ↔ witness = ⟨Sample.key 1, Sample.signature 3⟩ := by
  have succeeds : (Draft.Sample.draft.build Draft.Sample.context [.largestFirst]
      (some (Draft.Sample.address 7))).result.toOption.isSome = true := by decide +kernel
  obtain ⟨result, built⟩ := Except.isSome_toOption_iff.1 succeeds
  obtain ⟨unsigned, signed, _⟩ := signatures_applyAll built Sample.calls
  refine ⟨result, built, ?_⟩
  cases found : (result.built.applyAll Sample.calls).witnesses.keys with
  | none =>
      have nobody := unsigned.1 found (Sample.key 1)
      rw [Sample.signatureAfter?_calls, if_pos rfl] at nobody
      cases nobody
  | some set =>
      obtain ⟨distinct, current, _⟩ := signed set found
      refine ⟨set, rfl, distinct, fun witness => ?_⟩
      obtain ⟨key, signature⟩ := witness
      rw [current key signature, Sample.signatureAfter?_calls, KeyWitness.mk.injEq]
      by_cases first : Sample.key 1 = key
      · rw [if_pos first, Option.some.injEq]
        exact ⟨fun same => ⟨first.symm, same.symm⟩, fun same => same.2.symm⟩
      · simp [first, Ne.symm first]

end UtxoLedger.BuiltTransaction
