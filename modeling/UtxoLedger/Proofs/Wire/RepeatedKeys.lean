import UtxoLedger.Proofs.Address.Places
import UtxoLedger.Proofs.Cbor.Projections
import UtxoLedger.Proofs.Cbor.Yields
import UtxoLedger.Proofs.OrderedMap
import UtxoLedger.Proofs.Value.Quantities
import UtxoLedger.Transaction.Body

/-!
# Repeated keys

A bundle and a map of withdrawals are read by setting the entries of their
maps in turn. An entry whose key has been read before replaces the earlier
one and nothing is reported. So a value that was read has as many entries as
the wire form lists exactly when no key is listed twice on any level.
-/

namespace UtxoLedger

open Cbor

/-! ## Bundles -/

namespace MultiAsset

/-- The groups and quantities of a bundle as the wire form lists them. -/
abbrev Listing := List (PolicyId × List (AssetName × Int64))

namespace Listing

/-- The map that the last group of every policy and the last quantity of every name make. -/
def merged (listing : Listing) : OrderedMap PolicyId (OrderedMap AssetName Int64) :=
  .ofList (listing.map (Prod.map id OrderedMap.ofList))

theorem map_fst_groups (listing : Listing) :
    (listing.map (Prod.map id OrderedMap.ofList)).map Prod.fst =
      listing.map Prod.fst := by
  rw [List.map_map]
  rfl

/-- No policy is listed twice, and no name twice in a group. -/
structure Distinct (listing : Listing) : Prop where
  policies : (listing.map Prod.fst).Nodup
  names : ∀ group ∈ listing, (group.2.map Prod.fst).Nodup

end Listing

/-- Reads the entries of a bundle and keeps every one of them. -/
def readListing : Decoder Listing := Decoder.entriesOf decode (Decoder.entriesOf decode decode)

/-- A bundle has as many policies as are listed and as many names of each as its group lists. -/
structure Keeps (bundle : MultiAsset) (listing : Listing) : Prop where
  policies : bundle.policyCount = listing.length
  names : ∀ group ∈ listing, ∃ kept, bundle.policies.get? group.1 = some kept ∧
    kept.size = group.2.length

theorem decode_policies :
    (decode : Decoder (OrderedMap PolicyId (OrderedMap AssetName Int64))) =
      Listing.merged <$> readListing := by
  change OrderedMap.ofList <$> Decoder.entriesOf decode (OrderedMap.ofList <$>
    Decoder.entriesOf decode decode) = _
  rw [Decoder.entriesOf_map, ← comp_map]
  rfl

/-- A bundle is read wherever the map of what is listed is canonical. -/
theorem run_decode_eq_ok_iff {cursor after : Cursor} {bundle : MultiAsset} :
    (decode : Decoder MultiAsset).run cursor = .ok (bundle, after) ↔
      ∃ listing, readListing.run cursor = .ok (listing, after) ∧
        bundle.policies = listing.merged := by
  rw [run_decode_iff, decode_policies, Decoder.run_map_eq_ok]
  simp only [eq_comm]

theorem get?_merged {listing : Listing} (distinct : (listing.map Prod.fst).Nodup)
    {group : PolicyId × List (AssetName × Int64)} (member : group ∈ listing) :
    listing.merged.get? group.1 = some (.ofList group.2) := by
  refine OrderedMap.get?_ofList ?_ (List.mem_map_of_mem member)
  rw [listing.map_fst_groups]
  exact distinct

theorem keeps_iff {bundle : MultiAsset} {listing : Listing}
    (made : bundle.policies = listing.merged) : bundle.Keeps listing ↔ listing.Distinct := by
  have policies : bundle.policyCount = listing.length ↔ (listing.map Prod.fst).Nodup := by
    have sizes := OrderedMap.size_ofList_eq_iff_nodup (listing.map (Prod.map id OrderedMap.ofList))
    rw [List.length_map, listing.map_fst_groups] at sizes
    rw [policyCount, made]
    exact sizes
  constructor
  · intro keeps
    have distinct := policies.1 keeps.policies
    refine ⟨distinct, fun group member => ?_⟩
    obtain ⟨kept, found, size⟩ := keeps.names group member
    rw [made, get?_merged distinct member, Option.some.injEq] at found
    rw [← OrderedMap.size_ofList_eq_iff_nodup, found]
    exact size
  · intro distinct
    refine ⟨policies.2 distinct.policies, fun group member => ?_⟩
    have size := (OrderedMap.size_ofList_eq_iff_nodup group.2).2 (distinct.names group member)
    refine ⟨.ofList group.2, ?_, size⟩
    rw [made, get?_merged distinct.policies member]

end MultiAsset

/-! ## Values -/

/-- Reads a value and keeps every entry of its bundle; a number has none. -/
def Value.readListing : Decoder (UInt64 × MultiAsset.Listing) := do
  match ← Decoder.kind with
  | .array =>
      let _ ← Decoder.array
      let coin ← decode
      let listing ← MultiAsset.readListing
      return (coin, listing)
  | _ => return (← decode, [])

theorem Value.exists_run_readListing {cursor after : Cursor} {value : Value}
    (read : (decode : Decoder Value).run cursor = .ok (value, after)) :
    ∃ listing, readListing.run cursor = .ok ((value.coin, listing), after) ∧
      value.assets.policies = listing.merged := by
  obtain ⟨kind, between, announced, read⟩ := Decoder.run_bind_eq_ok.1 read
  unfold readListing
  rw [Decoder.run_bind_ok announced]
  split at read
  case h_5 =>
    obtain ⟨start, here, unmoved, read⟩ := Decoder.run_bind_eq_ok.1 read
    cases unmoved
    obtain ⟨length, inside, opened, read⟩ := Decoder.run_bind_eq_ok.1 read
    split at read
    next =>
      obtain ⟨coin, behind, paid, read⟩ := Decoder.run_bind_eq_ok.1 read
      obtain ⟨assets, final, held, read⟩ := Decoder.run_bind_eq_ok.1 read
      cases read
      obtain ⟨listing, listed, made⟩ := MultiAsset.run_decode_eq_ok_iff.1 held
      refine ⟨listing, ?_, made⟩
      rw [Decoder.run_bind_ok opened, Decoder.run_bind_ok paid, Decoder.run_bind_ok listed]
      rfl
    next => cases read
  case h_6 => cases read
  all_goals
    obtain ⟨coin, paid, rfl⟩ := Decoder.run_map_eq_ok.1 read
    exact ⟨[], Decoder.run_bind_eq_ok.2 ⟨coin, after, paid, rfl⟩, rfl⟩

/-! ## Withdrawals -/

namespace TransactionBody

/-- Reads a field of a body and keeps every entry of the withdrawals. -/
def visitListing (field : Field) (state : TransactionBody × Option (List (StakeAddress × UInt64))) :
    Decoder (TransactionBody × Option (List (StakeAddress × UInt64))) :=
  if field.key = 5 then
    (fun listing => ({ state.1 with withdrawals := some (.ofList listing) }, some listing)) <$>
      Decoder.entriesOf decode decode
  else (·, state.2) <$> record.visit field state.1

/-- Reads a body and keeps every entry of its withdrawals. -/
def readListing : Decoder (TransactionBody × Option (List (StakeAddress × UInt64))) :=
  record.layout.decodeEntries visitListing (blank, none)

theorem visit_eq (field : Field) (state : TransactionBody × Option (List (StakeAddress × UInt64))) :
    record.visit field state.1 = Prod.fst <$> visitListing field state := by
  unfold visitListing
  split
  next named =>
    have entry : record.entry? field = some (.optional 5 "withdrawals" withdrawals
        fun body found => { body with withdrawals := found }) := by
      rw [Record.entry?, named]
      rfl
    rw [Record.visit, entry, ← comp_map]
    change (fun found => { state.1 with withdrawals := some found }) <$> OrderedMap.ofList <$>
      Decoder.entriesOf decode decode = _
    rw [← comp_map]
    rfl
  next =>
    rw [← comp_map]
    exact (id_map _).symm

/-- The other fields leave the withdrawals as they are. -/
theorem visit_withdrawals {field : Field} (other : field.key ≠ 5) (body : TransactionBody) :
    Yields (record.visit field body) fun next => next.withdrawals = body.withdrawals := by
  have entries : ∀ entry ∈ record.entries, entry.field.key ≠ 5 →
      Yields (entry.read body) fun next => next.withdrawals = body.withdrawals := by
    simp only [record, List.forall_mem_cons]
    refine ⟨?_, ?_, ?_, ?_, ?_, fun same => absurd rfl same, ?_, ?_, ?_, ?_, ?_, ?_, ?_, ?_, ?_, ?_,
      ?_, ?_, ?_, ?_, List.forall_mem_nil _⟩
    all_goals exact fun _ => yields_map fun _ => rfl
  unfold Record.visit
  split
  next entry found =>
    unfold Record.entry? at found
    have key : entry.field.key = field.key := by simpa using List.find?_some found
    exact entries entry (List.mem_of_find?_eq_some found) (key ▸ other)
  next => exact yields_fail _

/-- The withdrawals that are kept are made of the entries that are. -/
theorem yields_withdrawals :
    Yields readListing fun state => state.1.withdrawals = state.2.map OrderedMap.ofList := by
  refine Record.yields_decodeEntries rfl fun field state kept => ?_
  unfold visitListing
  split
  next => exact yields_map fun _ => rfl
  next other =>
    exact (visit_withdrawals other state.1).map fun next same => same.trans kept

theorem exists_run_readListing {cursor after : Cursor} {body : TransactionBody}
    (read : (decode : Decoder TransactionBody).run cursor = .ok (body, after)) :
    ∃ listing, readListing.run cursor = .ok ((body, listing), after) ∧
      body.withdrawals = listing.map OrderedMap.ofList := by
  have project : record.layout.decodeEntries record.visit blank = Prod.fst <$> readListing :=
    MapLayout.decodeEntries_project visit_eq (blank, none)
  change (record.layout.decodeEntries record.visit blank).run cursor = _ at read
  rw [project, Decoder.run_map_eq_ok] at read
  obtain ⟨⟨_, listing⟩, listed, rfl⟩ := read
  refine ⟨listing, listed, ?_⟩
  exact yields_withdrawals listed

end TransactionBody

/-! ## What is kept -/

/-- A bundle, a value and the withdrawals of a body are made of all entries that their wire form
lists, the last ones of each key. So they keep them all exactly when no key is listed twice. -/
theorem decode_keeps_iff (cursor after : Cursor) :
    (∀ bundle : MultiAsset, decode.run cursor = .ok (bundle, after) ↔
      ∃ listing, MultiAsset.readListing.run cursor = .ok (listing, after) ∧
        bundle.policies = listing.merged ∧ (bundle.Keeps listing ↔ listing.Distinct)) ∧
    (∀ value : Value, decode.run cursor = .ok (value, after) →
      ∃ listing, Value.readListing.run cursor = .ok ((value.coin, listing), after) ∧
        value.assets.policies = listing.merged ∧
        (value.assets.Keeps listing ↔ listing.Distinct)) ∧
    ∀ body : TransactionBody, decode.run cursor = .ok (body, after) →
      ∃ listing, TransactionBody.readListing.run cursor = .ok ((body, listing), after) ∧
        body.withdrawals = listing.map OrderedMap.ofList ∧
        (body.withdrawals.map OrderedMap.size = listing.map List.length ↔
          ∀ entries ∈ listing, (entries.map (·.1.toBytes)).Nodup) := by
  refine ⟨fun bundle => ?_, fun value read => ?_, fun body read => ?_⟩
  · rw [MultiAsset.run_decode_eq_ok_iff]
    constructor
    · rintro ⟨listing, listed, made⟩
      exact ⟨listing, listed, made, MultiAsset.keeps_iff made⟩
    · rintro ⟨listing, listed, made, -⟩
      exact ⟨listing, listed, made⟩
  · obtain ⟨listing, listed, made⟩ := Value.exists_run_readListing read
    exact ⟨listing, listed, made, MultiAsset.keeps_iff made⟩
  · obtain ⟨listing, listed, made⟩ := TransactionBody.exists_run_readListing read
    refine ⟨listing, listed, made, ?_⟩
    rw [made]
    cases listing with
    | none => exact iff_of_true rfl nofun
    | some entries =>
        simp only [Option.map_some, Option.some.injEq, Option.mem_some_iff, forall_eq']
        exact (OrderedMap.size_ofList_eq_iff entries).trans StakeAddress.nodup_places_iff

namespace RepeatedKeys

/-- A policy of one byte repeated. -/
def policy : PolicyId := ⟨.replicate 28 1⟩

/-- A group of one name. -/
def groupBytes (name : Bytes) (quantity : UInt8) : Bytes :=
  encode policy ++ [0xa1] ++ Encoder.bytes name ++ [quantity]

/-- One policy listed twice, first with the empty name and then with another one. -/
def bundleBytes : Bytes := 0xa2 :: (groupBytes [] 5 ++ groupBytes [1] 7)

/-- Coin and a bundle of two names. -/
def valueBytes : Bytes :=
  [0x82, 0x03, 0xa1] ++ encode policy ++ [0xa2, 0x40, 0x05, 0x41, 0x01, 0x07]

/-- The three mandatory fields and a withdrawal. -/
def bodyBytes : Bytes :=
  [0xa4, 0x00, 0x80, 0x01, 0x80, 0x02, 0x00, 0x05, 0xa1] ++
    Encoder.bytes (0xe0 :: List.replicate 28 2) ++ [0x04]

def secondName : AssetName := ⟨[1], by decide⟩

/-- The bundle of the last group. -/
def lastGroup : MultiAsset := .ofEntries [(⟨policy, secondName⟩, 7)]

def twoNames : MultiAsset := .ofEntries [(⟨policy, .empty⟩, 5), (⟨policy, secondName⟩, 7)]

def account : StakeAddress := ⟨.testnet, .key ⟨.replicate 28 2⟩⟩

def body : TransactionBody :=
  { TransactionBody.blank with withdrawals := some (.ofList [(account, 4)]) }

end RepeatedKeys

open RepeatedKeys in
/-- Nothing is lost of a value and a body whose keys are distinct. -/
theorem decode_keeps_distinct :
    (decode.run ⟨valueBytes, 0⟩ = .ok ((⟨3, twoNames⟩ : Value), ⟨[], 39⟩) ∧
      ∃ listing, Value.readListing.run ⟨valueBytes, 0⟩ = .ok ((3, listing), ⟨[], 39⟩) ∧
        twoNames.Keeps listing) ∧
    decode.run ⟨bodyBytes, 0⟩ = .ok (body, ⟨[], 41⟩) ∧
      ∃ listing, TransactionBody.readListing.run ⟨bodyBytes, 0⟩ =
          .ok ((body, listing), ⟨[], 41⟩) ∧
        body.withdrawals.map OrderedMap.size = listing.map List.length := by
  have value : decode.run ⟨valueBytes, 0⟩ = .ok ((⟨3, twoNames⟩ : Value), ⟨[], 39⟩) := rfl
  have quantities : Value.readListing.run ⟨valueBytes, 0⟩ =
      .ok ((3, [(policy, [(.empty, 5), (secondName, 7)])]), ⟨[], 39⟩) := rfl
  have read : decode.run ⟨bodyBytes, 0⟩ = .ok (body, ⟨[], 41⟩) := rfl
  have rewards : TransactionBody.readListing.run ⟨bodyBytes, 0⟩ =
      .ok ((body, some [(account, 4)]), ⟨[], 41⟩) := rfl
  obtain ⟨listing, listed, -, keeps⟩ := (decode_keeps_iff _ _).2.1 _ value
  obtain ⟨entries, found, -, sizes⟩ := (decode_keeps_iff _ _).2.2 _ read
  cases listed.symm.trans quantities
  cases found.symm.trans rewards
  refine ⟨⟨value, _, listed, keeps.2 ⟨?_, ?_⟩⟩, read, _, found, sizes.2 ?_⟩
  · decide
  · decide
  · decide

open RepeatedKeys in
/-- The first of two groups of a policy is read and lost, and the quantity in it with it. -/
theorem decode_loses_group :
    decodeFragment MultiAsset bundleBytes = .ok lastGroup ∧ lastGroup.policyCount = 1 ∧
      lastGroup.get ⟨policy, .empty⟩ = 0 ∧
      MultiAsset.readListing.run ⟨bundleBytes, 0⟩ =
        .ok ([(policy, [(.empty, 5)]), (policy, [(secondName, 7)])], ⟨[], 68⟩) :=
  ⟨rfl, rfl, rfl, rfl⟩

end UtxoLedger
