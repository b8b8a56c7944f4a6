import UtxoLedger.Proofs.Wire.Certificates
import UtxoLedger.Proofs.Wire.Metadata
import UtxoLedger.Proofs.Wire.Outputs
import UtxoLedger.Transaction.Basic

/-!
# Transactions that survive

A transaction is read back from its wire form. What its type leaves open is
asked for: readable addresses and accounts, opaque parts of one item, short
strings of metadata, and the map form for outputs that need it.
-/

namespace UtxoLedger

open Cbor

/-! ## Bodies -/

/-- All outputs, certificates, withdrawals and proposals are well formed. -/
structure TransactionBody.IsWellFormed (body : TransactionBody) : Prop where
  outputs : ∀ output ∈ body.outputs, output.IsWellFormed
  certificates : ∀ set ∈ body.certificates, ∀ certificate ∈ set.items, certificate.IsWellFormed
  withdrawals : ∀ withdrawals ∈ body.withdrawals, StakeAddress.AllReadable withdrawals
  collateralReturn : ∀ output ∈ body.collateralReturn, output.IsWellFormed
  proposals : ∀ set ∈ body.proposals, ∀ proposal ∈ set.items, proposal.IsWellFormed

theorem TransactionBody.survives_of_isWellFormed {body : TransactionBody}
    (sound : body.IsWellFormed) : Survives body := by
  have outputs : Survives body.outputs :=
    survives_list fun output listed =>
      TransactionOutput.survives_of_isWellFormed (sound.outputs output listed)
  have certificates : ∀ set ∈ body.certificates, Survives set := fun set held =>
    survives_wireSet fun certificate listed =>
      Certificate.survives_of_isWellFormed (sound.certificates set held certificate listed)
  have withdrawals : ∀ withdrawals ∈ body.withdrawals, Survives withdrawals := fun found held =>
    StakeAddress.survives_of_allReadable (sound.withdrawals found held)
  have collateralReturn : ∀ output ∈ body.collateralReturn, Survives output := fun output held =>
    TransactionOutput.survives_of_isWellFormed (sound.collateralReturn output held)
  have proposals : ∀ set ∈ body.proposals, Survives set := fun set held =>
    survives_wireSet fun proposal listed =>
      ProposalProcedure.survives_of_isWellFormed (sound.proposals set held proposal listed)
  refine Record.reads_decode ?_
  refine .mandatory (survives body.inputs) ?_
  refine .mandatory outputs ?_
  refine .mandatory (survives body.fee) ?_
  refine .optional rfl (fun timeToLive _ => survives timeToLive) ?_
  refine .optional rfl certificates ?_
  refine .optional rfl withdrawals ?_
  refine .optional rfl (fun auxiliaryDataHash _ => survives auxiliaryDataHash) ?_
  refine .optional rfl (fun validityStart _ => survives validityStart) ?_
  refine .optional rfl (fun mint _ => survives mint) ?_
  refine .optional rfl (fun scriptDataHash _ => survives scriptDataHash) ?_
  refine .optional rfl (fun collateral _ => survives collateral) ?_
  refine .optional rfl (fun requiredSigners _ => survives requiredSigners) ?_
  refine .optional rfl (fun network _ => survives network) ?_
  refine .optional rfl collateralReturn ?_
  refine .optional rfl (fun totalCollateral _ => survives totalCollateral) ?_
  refine .optional rfl (fun referenceInputs _ => survives referenceInputs) ?_
  refine .optional rfl (fun votingProcedures _ => survives votingProcedures) ?_
  refine .optional rfl proposals ?_
  refine .optional rfl (fun treasuryValue _ => survives treasuryValue) ?_
  refine .optional rfl (fun donation _ => survives donation) ?_
  exact .nil body

/-! ## Witnesses -/

instance : LawfulCodec KeyWitness where
  survives witness :=
    reads_positional (by simp) ((survives witness.key).next
      ((survives witness.signature).next (reads_finish witness)))

instance : ProperCodec KeyWitness :=
  ⟨fun _ => ⟨.array, announces_positional _, nofun, nofun⟩⟩

instance : LawfulCodec BootstrapWitness where
  survives witness :=
    reads_positional (by simp) ((survives witness.key).next ((survives witness.signature).next
      ((survives witness.chainCode).next ((survives witness.attributes).next
        (reads_finish witness)))))

instance : ProperCodec BootstrapWitness :=
  ⟨fun _ => ⟨.array, announces_positional _, nofun, nofun⟩⟩

/-- The data and the redeemers are one item each. -/
structure WitnessSet.IsWellFormed (witnesses : WitnessSet) : Prop where
  plutusData : ∀ item ∈ witnesses.plutusData, item.IsSingle
  redeemers : ∀ item ∈ witnesses.redeemers, item.IsSingle

theorem WitnessSet.survives_of_isWellFormed {witnesses : WitnessSet}
    (sound : witnesses.IsWellFormed) : Survives witnesses := by
  refine Record.reads_decode ?_
  refine .optional rfl (fun keys _ => survives keys) ?_
  refine .optional rfl (fun nativeScripts _ => survives nativeScripts) ?_
  refine .optional rfl (fun bootstrap _ => survives bootstrap) ?_
  refine .optional rfl (fun plutusV1Scripts _ => survives plutusV1Scripts) ?_
  refine .optional rfl
    (fun item held => RawItem.survives_of_isSingle (sound.plutusData item held)) ?_
  refine .optional rfl
    (fun item held => RawItem.survives_of_isSingle (sound.redeemers item held)) ?_
  refine .optional rfl (fun plutusV2Scripts _ => survives plutusV2Scripts) ?_
  refine .optional rfl (fun plutusV3Scripts _ => survives plutusV3Scripts) ?_
  exact .nil witnesses

namespace Transaction

/-- All parts are well formed, and the strings of the metadata are short. -/
structure IsWellFormed (transaction : Transaction) : Prop where
  body : transaction.body.IsWellFormed
  witnesses : transaction.witnesses.IsWellFormed
  auxiliaryData : ∀ data ∈ transaction.auxiliaryData, data.IsShort

theorem survives_of_isWellFormed {transaction : Transaction}
    (sound : transaction.IsWellFormed) : Survives transaction := by
  have body := TransactionBody.survives_of_isWellFormed sound.body
  have witnesses := WitnessSet.survives_of_isWellFormed sound.witnesses
  have auxiliaryData : Survives transaction.auxiliaryData := survives_option fun data held =>
    AuxiliaryData.survives_of_isShort (sound.auxiliaryData data held)
  change Reads decode (Encoder.array 4 ++ encode transaction.body ++
    encode transaction.witnesses ++ encode transaction.isSuccess ++
    encode transaction.auxiliaryData) transaction
  rw [List.append_assoc, List.append_assoc, List.append_assoc]
  refine reads_position fun start => (reads_array (by decide)).bind ?_
  exact body.bind (witnesses.bind ((survives transaction.isSuccess).bind
    (auxiliaryData.bind_last (reads_pure transaction))))

/-- A well-formed transaction is what its whole wire form is decoded to. The bound is the
number of bytes that lengths of 64 bits can count, which no string in memory reaches. -/
theorem decodeFragment_encode_of_isWellFormed {transaction : Transaction}
    (sound : transaction.IsWellFormed) (small : (encode transaction).length < bound64) :
    decodeFragment Transaction (encode transaction) = .ok transaction :=
  decodeFragment_encode (survives_of_isWellFormed sound) small

namespace Sample

def keyHash (byte : UInt8) : Hash 28 := ⟨.replicate 28 byte⟩

def digest (byte : UInt8) : Hash 32 := ⟨.replicate 32 byte⟩

def account : StakeAddress := ⟨.mainnet, .script (keyHash 1)⟩

def address : Address := .shelley ⟨.mainnet, .key (keyHash 2), .pointer ⟨300, 2, 1⟩⟩

def script : NativeScript :=
  .all [.signature (keyHash 3), .atLeast 1 [.any [.invalidBefore 7], .invalidHereafter 70000]]

def bundle : MultiAsset := MultiAsset.empty.add ⟨keyHash 4, .empty⟩ 9

/-- An opaque item: the list of one and two. -/
def item : RawItem := ⟨[0x82, 0x01, 0x02]⟩

def anchor : Anchor := ⟨"ipfs://a", digest 5⟩

def legacyOutput : TransactionOutput :=
  ⟨address, .ofCoin 1000000, some (.hash (digest 6)), none, .legacy⟩

def mapOutput : TransactionOutput :=
  ⟨address, ⟨2000000, bundle⟩, some (.inline item), some (.native script), .postAlonzo⟩

def pool : PoolParameters :=
  ⟨keyHash 7, digest 7, 5, 6, ⟨1, 3⟩, account, ⟨[keyHash 8], true⟩,
    [.hostName none "relay", .multiHostName "relays"], some ⟨"pool", digest 8⟩⟩

def body : TransactionBody :=
  { TransactionBody.plain [⟨digest 1, 0⟩] [legacyOutput, mapOutput] 170000 with
    certificates :=
      some ⟨[.poolRegistration pool, .voteDelegation (.key (keyHash 1)) .abstain], true⟩
    withdrawals := some (OrderedMap.empty.insert account 10)
    mint := some bundle
    network := some .mainnet
    collateralReturn := some mapOutput
    votingProcedures := some (OrderedMap.empty.insert (.drepKey (keyHash 9))
      (OrderedMap.empty.insert ⟨digest 9, 2⟩ ⟨.yes, some anchor⟩))
    proposals := some (.plain
      [⟨100, account, .parameterChange none item none, anchor⟩,
        ⟨100, account, .treasuryWithdrawals (OrderedMap.empty.insert account 3) none, anchor⟩]) }

def witnesses : WitnessSet :=
  { WitnessSet.empty with
    nativeScripts := some (.plain [script])
    plutusData := some item
    redeemers := some item }

def metadata : Metadata :=
  ⟨[(721, .map [(.text "name", .array [.int (.negative 4), .bytes [1, 2]])] false)], true⟩

/-- A transaction with parts of every kind that a decoder may refuse. -/
def transaction : Transaction := ⟨body, witnesses, false, some (.shelleyMa metadata [script])⟩

theorem isSingle_item : item.IsSingle := rfl

theorem isReadable_address : address.IsReadable := rfl

theorem isReadable_account : account.IsReadable := rfl

theorem isWellFormed_mapOutput : mapOutput.IsWellFormed where
  address := isReadable_address
  datum := by
    rintro datum ⟨⟩
    exact isSingle_item
  inline _ _ := rfl
  script _ := rfl

theorem isWellFormed_legacyOutput : legacyOutput.IsWellFormed where
  address := isReadable_address
  datum := by
    rintro datum ⟨⟩
    exact trivial
  inline := nofun
  script := nofun

theorem allReadable_insert (amount : UInt64) :
    StakeAddress.AllReadable (OrderedMap.empty.insert account amount) := by
  intro entry listed
  rw [List.mem_singleton.1 listed]
  exact isReadable_account

theorem isWellFormed_body : body.IsWellFormed where
  outputs := by
    simp only [body, TransactionBody.plain, List.forall_mem_cons]
    exact ⟨isWellFormed_legacyOutput, isWellFormed_mapOutput, List.forall_mem_nil _⟩
  certificates := by
    rintro set ⟨⟩
    simp only [List.forall_mem_cons]
    exact ⟨isReadable_account, trivial, List.forall_mem_nil _⟩
  withdrawals := by
    rintro withdrawals ⟨⟩
    exact allReadable_insert 10
  collateralReturn := by
    rintro output ⟨⟩
    exact isWellFormed_mapOutput
  proposals := by
    rintro set ⟨⟩
    simp only [WireSet.plain, List.forall_mem_cons]
    exact ⟨⟨isReadable_account, isSingle_item⟩, ⟨isReadable_account, allReadable_insert 3⟩,
      List.forall_mem_nil _⟩

theorem isWellFormed_transaction : transaction.IsWellFormed where
  body := isWellFormed_body
  witnesses := by
    constructor
    · rintro found ⟨⟩
      exact isSingle_item
    · rintro found ⟨⟩
      exact isSingle_item
  auxiliaryData := by
    rintro data ⟨⟩ found ⟨⟩
    exact rfl

end Sample

/-- The sample is well formed, is written in some bytes and is read back from them. -/
theorem decodeFragment_encode_sample :
    Sample.transaction.IsWellFormed ∧ (encode Sample.transaction).length < bound64 ∧
      decodeFragment Transaction (encode Sample.transaction) = .ok Sample.transaction := by
  have small : (encode Sample.transaction).length < bound64 := by decide +kernel
  exact ⟨Sample.isWellFormed_transaction, small,
    decodeFragment_encode_of_isWellFormed Sample.isWellFormed_transaction small⟩

end Transaction

end UtxoLedger
