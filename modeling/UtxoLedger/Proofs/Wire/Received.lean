import UtxoLedger.Proofs.Address.Spellings
import UtxoLedger.Proofs.Cbor.Yields
import UtxoLedger.Proofs.Wire.Transactions

/-!
# What is received is well formed

What survives its wire form has been said part by part: readable addresses,
opaque parts of one item, outputs in a form that has room for them. Decoders
yield nothing else, so a part that was received can be written and read back,
whatever spelling it was received in.
-/

namespace UtxoLedger

open Cbor

/-! ## Addresses -/

theorem Address.isReadable_iff {address : Address} : address.IsReadable ↔ address.FitsHeader := by
  unfold Address.IsReadable
  rw [Address.ofBytes_eq_ok_iff]
  constructor
  · exact And.left
  · exact fun fits => ⟨fits, .none, address.padded_none.symm⟩

/-- What some bytes are read as is also read from its own bytes. -/
theorem Address.isReadable_of_ofBytes {bytes : Bytes} {address : Address}
    (read : Address.ofBytes bytes = .ok address) : address.IsReadable :=
  Address.isReadable_iff.2 (Address.ofBytes_eq_ok_iff.1 read).1

theorem Address.yields_isReadable : Yields (decode : Decoder Address) Address.IsReadable :=
  yields_bind fun _ => yields_bind fun _ =>
    yields_orReject fun _ read => Address.isReadable_of_ofBytes read

theorem StakeAddress.yields_isReadable :
    Yields (decode : Decoder StakeAddress) StakeAddress.IsReadable := by
  refine yields_bind fun start => Address.yields_isReadable.bind fun address readable => ?_
  cases address with
  | stake account => exact yields_pure readable
  | byron | shelley => exact yields_failAt _ _

theorem StakeAddress.yields_allReadable :
    Yields (decode : Decoder (OrderedMap StakeAddress UInt64)) StakeAddress.AllReadable :=
  yields_orderedMap StakeAddress.yields_isReadable

/-! ## Outputs -/

theorem Datum.yields_isWellFormed : Yields (decode : Decoder Datum) Datum.IsWellFormed := by
  refine yields_bind fun start => yields_bind fun length => ?_
  refine yields_ite (fun _ => yields_failAt _ _) fun _ => yields_bind fun code => ?_
  split
  next => exact yields_map fun _ => trivial
  next =>
    refine yields_bind fun place => yields_bind fun content => ?_
    exact (yields_orReject fun _ read => RawItem.isSingle_of_ofBytes read).map fun _ single => single
  next => exact yields_failAt _ _

namespace TransactionOutput

theorem yields_decodeLegacy : Yields decodeLegacy IsWellFormed := by
  refine yields_bind fun length => Address.yields_isReadable.bind fun address readable => ?_
  refine yields_bind fun amount => yields_ite (fun _ => ?_) fun _ => ?_
  · have hashes : Yields ((some ∘ Datum.hash) <$> (decode : Decoder (Hash 32)))
        fun datum => ∃ hash, datum = some (.hash hash) := yields_map fun hash => ⟨hash, rfl⟩
    refine hashes.bind fun datum found => yields_pure ?_
    obtain ⟨hash, rfl⟩ := found
    refine ⟨readable, ?_, nofun, nofun⟩
    rintro datum ⟨⟩
    exact trivial
  · have absent : Yields (pure none : Decoder (Option Datum)) (· = none) := yields_pure rfl
    refine absent.bind fun datum found => yields_pure ?_
    rw [found]
    exact ⟨readable, nofun, nofun, nofun⟩

/-- Every field of the map form keeps the form, which has room for all parts. -/
theorem yields_decodeMap : Yields (mapRecord.decode blank) IsWellFormed := by
  have kept : Yields (mapRecord.decode blank)
      fun output => output.IsWellFormed ∧ output.format = .postAlonzo := by
    refine Record.yields_decode ⟨⟨rfl, nofun, nofun, nofun⟩, rfl⟩ ?_
    simp only [mapRecord, List.forall_mem_cons]
    refine ⟨?_, ?_, ?_, ?_, List.forall_mem_nil _⟩
    · refine yields_mandatory Address.yields_isReadable ?_
      rintro output address ⟨sound, form⟩ readable
      exact ⟨⟨readable, sound.datum, sound.inline, sound.script⟩, form⟩
    · refine yields_mandatory (yields_true _) ?_
      rintro output amount ⟨sound, form⟩ -
      exact ⟨⟨sound.address, sound.datum, sound.inline, sound.script⟩, form⟩
    · refine yields_optional Datum.yields_isWellFormed ?_
      rintro output datum ⟨sound, form⟩ single
      refine ⟨⟨sound.address, ?_, fun _ _ => form, sound.script⟩, form⟩
      rintro found ⟨⟩
      exact single
    · refine yields_optional (yields_true _) ?_
      rintro output script ⟨sound, form⟩ -
      exact ⟨⟨sound.address, sound.datum, sound.inline, fun _ => form⟩, form⟩
  intro cursor output after run
  exact (kept run).1

theorem yields_isWellFormed : Yields (decode : Decoder TransactionOutput) IsWellFormed := by
  refine yields_bind fun kind => ?_
  split
  next => exact yields_decodeLegacy
  next => exact yields_decodeLegacy
  next => exact yields_decodeMap
  next => exact yields_decodeMap
  next => exact yields_fail _

end TransactionOutput

/-! ## Certificates and proposals -/

theorem PoolParameters.yields_isReadable :
    Yields decodeFields fun parameters => parameters.rewardAccount.IsReadable := by
  refine yields_bind fun operator => yields_bind fun vrfKeyHash => yields_bind fun pledge => ?_
  refine yields_bind fun cost => yields_bind fun margin => ?_
  refine StakeAddress.yields_isReadable.bind fun account readable => ?_
  exact yields_bind fun owners => yields_bind fun relays => yields_bind fun metadata =>
    yields_pure readable

theorem Certificate.yields_isWellFormed :
    Yields (decode : Decoder Certificate) Certificate.IsWellFormed := by
  refine yields_bind fun code => ?_
  unfold decodeParts
  split
  case h_4 =>
    exact PoolParameters.yields_isReadable.bind fun _ readable => yields_pure readable
  all_goals repeat first | exact yields_pure trivial | refine yields_bind fun _ => ?_

theorem GovAction.yields_isWellFormed :
    Yields (decode : Decoder GovAction) GovAction.IsWellFormed := by
  refine yields_bind fun code => ?_
  split
  next =>
    refine yields_bind fun previous => yields_rawItem.bind fun update single => ?_
    exact yields_bind fun policy => yields_pure single
  next => exact yields_bind fun _ => yields_bind fun _ => yields_pure trivial
  next =>
    refine StakeAddress.yields_allReadable.bind fun withdrawals readable => ?_
    exact yields_bind fun policy => yields_pure readable
  next => exact yields_bind fun _ => yields_pure trivial
  next =>
    refine yields_bind fun _ => yields_bind fun _ => ?_
    exact yields_bind fun _ => yields_bind fun _ => yields_pure trivial
  next => exact yields_bind fun _ => yields_bind fun _ => yields_pure trivial
  next => exact yields_pure trivial

theorem ProposalProcedure.yields_isWellFormed :
    Yields (decode : Decoder ProposalProcedure) ProposalProcedure.IsWellFormed := by
  refine yields_bind fun length => yields_bind fun deposit => ?_
  refine (yields_next StakeAddress.yields_isReadable _ _).bind fun account readable => ?_
  refine (yields_next GovAction.yields_isWellFormed _ _).bind fun action sound => ?_
  exact yields_bind fun anchor => yields_bind fun _ => yields_pure ⟨readable, sound⟩

/-! ## Bodies -/

namespace TransactionBody

/-- The parts of a body that its wire form asks something of. -/
def openParts (body : TransactionBody) : List TransactionOutput × Option (WireSet Certificate) ×
    Option Withdrawals × Option TransactionOutput × Option (WireSet ProposalProcedure) :=
  (body.outputs, body.certificates, body.withdrawals, body.collateralReturn, body.proposals)

theorem isWellFormed_of_openParts_eq {body other : TransactionBody}
    (same : other.openParts = body.openParts) (sound : body.IsWellFormed) :
    other.IsWellFormed := by
  simp only [openParts, Prod.mk.injEq] at same
  obtain ⟨outputs, certificates, withdrawals, collateralReturn, proposals⟩ := same
  constructor
  · rw [outputs]
    exact sound.outputs
  · rw [certificates]
    exact sound.certificates
  · rw [withdrawals]
    exact sound.withdrawals
  · rw [collateralReturn]
    exact sound.collateralReturn
  · rw [proposals]
    exact sound.proposals

theorem isWellFormed_blank : blank.IsWellFormed :=
  ⟨List.forall_mem_nil _, nofun, nofun, nofun, nofun⟩

variable {α : Type} [Codec α] {key : UInt64} {name : String}

/-- A field that no check is about. -/
theorem yields_plainMandatory {get : TransactionBody → α}
    {set : TransactionBody → α → TransactionBody}
    (same : ∀ body found, (set body found).openParts = body.openParts) (body : TransactionBody)
    (sound : body.IsWellFormed) :
    Yields ((RecordEntry.mandatory key name get set).read body) IsWellFormed :=
  yields_mandatory (yields_true _)
    (fun body found sound _ => isWellFormed_of_openParts_eq (same body found) sound) body sound

/-- An optional field that no check is about. -/
theorem yields_plainOptional {get : TransactionBody → Option α}
    {set : TransactionBody → Option α → TransactionBody}
    (same : ∀ body found, (set body found).openParts = body.openParts) (body : TransactionBody)
    (sound : body.IsWellFormed) :
    Yields ((RecordEntry.optional key name get set).read body) IsWellFormed :=
  yields_optional (yields_true _)
    (fun body found sound _ => isWellFormed_of_openParts_eq (same body (some found)) sound) body
    sound

/-- Every body that is received is well formed. -/
theorem yields_isWellFormed : Yields (decode : Decoder TransactionBody) IsWellFormed := by
  refine Record.yields_decode isWellFormed_blank ?_
  simp only [record, List.forall_mem_cons]
  refine ⟨yields_plainMandatory fun _ _ => rfl, ?_, yields_plainMandatory fun _ _ => rfl,
    yields_plainOptional fun _ _ => rfl, ?_, ?_, yields_plainOptional fun _ _ => rfl,
    yields_plainOptional fun _ _ => rfl, yields_plainOptional fun _ _ => rfl,
    yields_plainOptional fun _ _ => rfl, yields_plainOptional fun _ _ => rfl,
    yields_plainOptional fun _ _ => rfl, yields_plainOptional fun _ _ => rfl, ?_,
    yields_plainOptional fun _ _ => rfl, yields_plainOptional fun _ _ => rfl,
    yields_plainOptional fun _ _ => rfl, ?_, yields_plainOptional fun _ _ => rfl,
    yields_plainOptional fun _ _ => rfl, List.forall_mem_nil _⟩
  · refine yields_mandatory (yields_listOf TransactionOutput.yields_isWellFormed) ?_
    intro body outputs sound read
    exact ⟨read, sound.certificates, sound.withdrawals, sound.collateralReturn, sound.proposals⟩
  · refine yields_optional (yields_wireSet Certificate.yields_isWellFormed) ?_
    intro body certificates sound read
    refine ⟨sound.outputs, ?_, sound.withdrawals, sound.collateralReturn, sound.proposals⟩
    rintro set ⟨⟩
    exact read
  · refine yields_optional StakeAddress.yields_allReadable ?_
    intro body withdrawals sound read
    refine ⟨sound.outputs, sound.certificates, ?_, sound.collateralReturn, sound.proposals⟩
    rintro found ⟨⟩
    exact read
  · refine yields_optional TransactionOutput.yields_isWellFormed ?_
    intro body output sound read
    refine ⟨sound.outputs, sound.certificates, sound.withdrawals, ?_, sound.proposals⟩
    rintro found ⟨⟩
    exact read
  · refine yields_optional (yields_wireSet ProposalProcedure.yields_isWellFormed) ?_
    intro body proposals sound read
    refine ⟨sound.outputs, sound.certificates, sound.withdrawals, sound.collateralReturn, ?_⟩
    rintro found ⟨⟩
    exact read

end TransactionBody

end UtxoLedger
