import UtxoLedger.Build.Size

/-!
# The keys that have to sign

The signers of a draft are counted by the fee and decide which signatures a
transaction carries. They are the keys that the content of the draft calls
for, wherever it names them, with one exception: the certificates that
authorise or retire committee members and those that retire or update
representatives are passed over, although each of them acts upon a credential.
-/

namespace UtxoLedger

/-! ## Scripts -/

namespace NativeScript

/-- The script names the key at some depth. -/
inductive Names (key : Hash 28) : NativeScript → Prop where
  | signature : Names key (.signature key)
  | all {scripts : List NativeScript} {script : NativeScript} (member : script ∈ scripts)
      (inside : Names key script) : Names key (.all scripts)
  | any {scripts : List NativeScript} {script : NativeScript} (member : script ∈ scripts)
      (inside : Names key script) : Names key (.any scripts)
  | atLeast {required : UInt32} {scripts : List NativeScript} {script : NativeScript}
      (member : script ∈ scripts) (inside : Names key script) :
      Names key (.atLeast required scripts)

variable {key : Hash 28}

mutual

theorem mem_keys_iff : (script : NativeScript) → (key ∈ script.keys ↔ script.Names key)
  | .signature other => by
      rw [keys, List.mem_singleton]
      constructor
      · rintro rfl
        exact .signature
      · rintro ⟨⟩
        rfl
  | .all scripts => by
      rw [keys, mem_keysAll_iff scripts]
      constructor
      · rintro ⟨script, member, inside⟩
        exact .all member inside
      · rintro (_ | ⟨member, inside⟩)
        exact ⟨_, member, inside⟩
  | .any scripts => by
      rw [keys, mem_keysAll_iff scripts]
      constructor
      · rintro ⟨script, member, inside⟩
        exact .any member inside
      · rintro (_ | _ | ⟨member, inside⟩)
        exact ⟨_, member, inside⟩
  | .atLeast _ scripts => by
      rw [keys, mem_keysAll_iff scripts]
      constructor
      · rintro ⟨script, member, inside⟩
        exact .atLeast member inside
      · rintro (_ | _ | _ | ⟨member, inside⟩)
        exact ⟨_, member, inside⟩
  | .invalidBefore _ => by
      rw [keys]
      exact ⟨fun none => absurd none List.not_mem_nil, nofun⟩
  | .invalidHereafter _ => by
      rw [keys]
      exact ⟨fun none => absurd none List.not_mem_nil, nofun⟩

theorem mem_keysAll_iff :
    (scripts : List NativeScript) → (key ∈ keysAll scripts ↔ ∃ script ∈ scripts, script.Names key)
  | [] => by simp [keysAll]
  | first :: rest => by
      rw [keysAll, List.mem_append, mem_keys_iff first, mem_keysAll_iff rest]
      simp only [List.mem_cons, or_and_right, exists_or, exists_eq_left]

end

end NativeScript

/-! ## Certificates -/

theorem Credential.keyHash?_eq_some_iff {credential : Credential} {key : Hash 28} :
    credential.keyHash? = some key ↔ credential = .key key := by
  cases credential <;> simp [keyHash?]

namespace Certificate

/-- The certificate calls for the key: that of the credential it acts upon, or that of its
pool. -/
inductive CallsFor (key : Hash 28) : Certificate → Prop where
  | credential {certificate : Certificate} (acts : certificate.credential? = some (.key key)) :
      CallsFor key certificate
  | operator {parameters : PoolParameters} (operates : parameters.operator = key) :
      CallsFor key (.poolRegistration parameters)
  | pool (epoch : UInt64) : CallsFor key (.poolRetirement key epoch)

/-- The certificates whose credential is not asked to sign. -/
def IsPassedOver : Certificate → Prop
  | authorizeCommitteeHot _ _ => True
  | resignCommitteeCold _ _ => True
  | deregisterDRep _ _ => True
  | updateDRep _ _ => True
  | _ => False

theorem callsFor_iff_of_credential {certificate : Certificate} {key : Hash 28} {acting : Credential}
    (acts : certificate.credential? = some acting) :
    certificate.CallsFor key ↔ acting = .key key := by
  constructor
  · intro calls
    cases calls with
    | credential same => exact Option.some.inj (acts.symm.trans same)
    | operator => simp [credential?] at acts
    | pool => simp [credential?] at acts
  · rintro rfl
    exact .credential acts

theorem signer?_eq_some_iff (certificate : Certificate) (key : Hash 28) :
    certificate.signer? = some key ↔ certificate.CallsFor key ∧ ¬ certificate.IsPassedOver := by
  cases acts : certificate.credential? with
  | none =>
      cases certificate with
      | poolRegistration parameters =>
          simp only [signer?, Option.some.injEq, IsPassedOver, not_false_eq_true, and_true]
          constructor
          · exact .operator
          · rintro (same | operates)
            · simp [credential?] at same
            · exact operates
      | poolRetirement pool epoch =>
          simp only [signer?, Option.some.injEq, IsPassedOver, not_false_eq_true, and_true]
          constructor
          · rintro rfl
            exact .pool epoch
          · rintro (same | _)
            · simp [credential?] at same
            · rfl
      | _ => simp [credential?] at acts
  | some acting =>
      rw [callsFor_iff_of_credential acts, ← Credential.keyHash?_eq_some_iff]
      cases certificate <;> simp_all [signer?, credential?, IsPassedOver]

end Certificate

/-! ## Drafts -/

namespace Draft

variable {draft : Draft} {inputs : List Utxo} {key : Hash 28}

/-- What the transaction does calls for the key, where of the certificates those that count are
looked at. -/
inductive CallsFor (draft : Draft) (inputs : List Utxo) (counts : Certificate → Prop)
    (key : Hash 28) : Prop where
  | input {utxo : Utxo} (member : utxo ∈ inputs)
      (guards : utxo.output.address.paymentKeyHash? = some key)
  | required (member : key ∈ draft.requiredSigners)
  | script {script : NativeScript} (member : script ∈ draft.nativeScripts)
      (named : script.Names key)
  | certificate {certificate : Certificate} (member : certificate ∈ draft.certificates)
      (called : certificate.CallsFor key) (counted : counts certificate)
  | withdrawal {account : StakeAddress} (member : account ∈ draft.withdrawals.keys)
      (owns : account.credential = .key key)
  | vote {voter : Voter} (member : voter ∈ draft.votes.keys) (votes : voter.keyHash? = some key)

/-- The signers are exactly the keys that the transaction calls for, apart from those that only
certificates call for that are passed over. -/
theorem mem_signers_iff (draft : Draft) (inputs : List Utxo) (key : Hash 28) :
    key ∈ (draft.signers inputs).toList ↔
      draft.CallsFor inputs (fun certificate => ¬ certificate.IsPassedOver) key := by
  simp only [signers, OrderedSet.mem_toList_ofList, List.mem_append, List.mem_filterMap,
    List.mem_flatMap, NativeScript.mem_keys_iff, Certificate.signer?_eq_some_iff,
    Credential.keyHash?_eq_some_iff]
  constructor
  · rintro (((((⟨utxo, member, guards⟩ | member) | ⟨script, member, named⟩) |
      ⟨certificate, member, called, counted⟩) | ⟨account, member, owns⟩) | ⟨voter, member, votes⟩)
    · exact .input member guards
    · exact .required member
    · exact .script member named
    · exact .certificate member called counted
    · exact .withdrawal member owns
    · exact .vote member votes
  · intro calls
    cases calls with
    | input member guards => exact .inl (.inl (.inl (.inl (.inl ⟨_, member, guards⟩))))
    | required member => exact .inl (.inl (.inl (.inl (.inr member))))
    | script member named => exact .inl (.inl (.inl (.inr ⟨_, member, named⟩)))
    | certificate member called counted => exact .inl (.inl (.inr ⟨_, member, called, counted⟩))
    | withdrawal member owns => exact .inl (.inr ⟨_, member, owns⟩)
    | vote member votes => exact .inr ⟨_, member, votes⟩

/-- A representative who updates its entry is not asked to sign for it. -/
theorem not_mem_signers_of_updateDRep :
    let representative : Hash 28 := ⟨.replicate 28 9⟩
    let draft := empty.addCertificate (.updateDRep (.key representative) none)
    draft.CallsFor [] (fun _ => True) representative ∧
      representative ∉ (draft.signers []).toList := by
  refine ⟨.certificate List.mem_cons_self (.credential rfl) trivial, ?_⟩
  decide

end Draft

end UtxoLedger
