import Mathlib.Data.List.Induction
import Mathlib.Data.List.Nodup
import UtxoLedger.Proofs.Document.Hex
import UtxoLedger.Proofs.Outcome
import UtxoLedger.Token

/-!
# Metadata of a batch of tokens

The metadata of a batch is a map from policies to maps from asset names. Its
policies are distinct, and the map of a policy lists the tokens of the policy
that carry metadata, in their order and with their metadata. Tokens are not
merged, so the names under a policy are distinct exactly when no two tokens
with metadata share the policy and the text of the name.
-/

namespace UtxoLedger

open Cbor

/-- A hash is told by its text. -/
theorem Hash.text_injective {size : Nat} : Function.Injective (@Hash.text size) := by
  intro first second same
  have bytes := congrArg Hex.decode same
  rw [text, text, Hex.decode_encode, Hex.decode_encode] at bytes
  exact ext (Except.ok.inj bytes)

/-! ## Maps with text keys -/

namespace Metadatum

/-- The entries of a map; nothing else has any. -/
def entries : Metadatum → List (Metadatum × Metadatum)
  | map entries _ => entries
  | _ => []

/-- The keys of a map, in order. -/
def keys (datum : Metadatum) : List Metadatum := datum.entries.map (·.1)

/-- The map with the given text keys and values. -/
def ofNamed (named : List (String × Metadatum)) : Metadatum :=
  map (named.map fun entry => (text entry.1, entry.2)) true

theorem keys_ofNamed (named : List (String × Metadatum)) :
    (ofNamed named).keys = (named.map (·.1)).map text := by
  simp [keys, entries, ofNamed]

theorem nodup_keys_ofNamed {named : List (String × Metadatum)} :
    (ofNamed named).keys.Nodup ↔ (named.map (·.1)).Nodup := by
  rw [keys_ofNamed]
  exact List.nodup_map_iff fun _ _ same => Metadatum.text.inj same

theorem ofTextEntries_eq_ok {named : List (String × Metadatum)} {datum : Metadatum}
    (made : ofTextEntries named = .ok datum) : datum = ofNamed named := by
  obtain ⟨pairs, read, done⟩ := Except.bind_eq_ok.1 made
  rw [← Except.ok.inj done, ofNamed, Except.eq_map_of_mapM ?_ read]
  intro entry pair here
  obtain ⟨key, keyed, done⟩ := Except.bind_eq_ok.1 here
  unfold ofText at keyed
  split at keyed
  · cases keyed
  · rw [← Except.ok.inj done, ← Except.ok.inj keyed]

end Metadatum

/-! ## Groups -/

namespace Token

/-- The tokens that carry metadata, with it. -/
def described (tokens : List Token) : List (Token × Metadatum) :=
  tokens.filterMap fun token => token.metadata.map (token, ·)

theorem mem_described {tokens : List Token} {token : Token} {datum : Metadatum} :
    (token, datum) ∈ described tokens ↔ token ∈ tokens ∧ token.metadata = some datum := by
  unfold described
  rw [List.mem_filterMap]
  constructor
  · rintro ⟨found, listed, carries⟩
    obtain ⟨carried, there, same⟩ := Option.map_eq_some_iff.1 carries
    obtain ⟨rfl, rfl⟩ := Prod.mk.inj same
    exact ⟨listed, there⟩
  · rintro ⟨listed, carries⟩
    exact ⟨token, listed, by rw [carries]; rfl⟩

/-- The text under which token metadata lists the name. -/
def nameText (token : Token) : String := Text.ofBytesLenient token.name.bytes

/-- The entry of a token under its policy. -/
def namedEntry (found : Token × Metadatum) : String × Metadatum := (found.1.nameText, found.2)

/-- Adds a token with metadata to the groups. -/
def addDescribed (groups : MetadataGroups) (found : Token × Metadatum) : MetadataGroups :=
  addToGroups found.1.policy.id.text (namedEntry found) groups

theorem metadataGroups_eq (tokens : List Token) :
    metadataGroups tokens = (described tokens).foldl addDescribed [] := by
  unfold metadataGroups described
  rw [List.foldl_filterMap]
  congr 1
  funext groups token
  cases token.metadata <;> rfl

section

variable {policy : String} {entry : String × Metadatum} {groups : MetadataGroups}

theorem keys_addToGroups :
    (addToGroups policy entry groups).map (·.1) =
      if policy ∈ groups.map (·.1) then groups.map (·.1) else groups.map (·.1) ++ [policy] := by
  induction groups with
  | nil => rfl
  | cons group rest ih =>
      obtain ⟨other, entries⟩ := group
      unfold addToGroups
      by_cases here : other = policy
      · simp [here]
      · have elsewhere : policy ∈ other :: rest.map (·.1) ↔ policy ∈ rest.map (·.1) := by
          simp [Ne.symm here]
        rw [if_neg here, List.map_cons, ih, List.map_cons]
        simp only [elsewhere]
        split <;> rfl

/-- A group after an addition is that of another policy, or that of the policy with the entry at
its end. -/
theorem mem_addToGroups {group : String × List (String × Metadatum)}
    (distinct : (groups.map (·.1)).Nodup) (member : group ∈ addToGroups policy entry groups) :
    (group.1 ≠ policy ∧ group ∈ groups) ∨
      (group.1 = policy ∧ ((∃ held, (policy, held) ∈ groups ∧ group.2 = held ++ [entry]) ∨
        (policy ∉ groups.map (·.1) ∧ group.2 = [entry]))) := by
  induction groups with
  | nil =>
      rw [List.mem_singleton.1 member]
      exact .inr ⟨rfl, .inr ⟨nofun, rfl⟩⟩
  | cons first rest ih =>
      obtain ⟨other, entries⟩ := first
      rw [List.map_cons, List.nodup_cons] at distinct
      unfold addToGroups at member
      by_cases here : other = policy
      · rw [if_pos here] at member
        rcases List.mem_cons.1 member with rfl | later
        · exact .inr ⟨here, .inl ⟨entries, here ▸ List.mem_cons_self, rfl⟩⟩
        · refine .inl ⟨fun same => distinct.1 ?_, List.mem_cons_of_mem _ later⟩
          exact List.mem_map.2 ⟨group, later, same.trans here.symm⟩
      · rw [if_neg here] at member
        rcases List.mem_cons.1 member with rfl | later
        · exact .inl ⟨here, List.mem_cons_self⟩
        · rcases ih distinct.2 later with ⟨apart, held⟩ | ⟨same, ⟨held, there, made⟩ | ⟨new, made⟩⟩
          · exact .inl ⟨apart, List.mem_cons_of_mem _ held⟩
          · exact .inr ⟨same, .inl ⟨held, List.mem_cons_of_mem _ there, made⟩⟩
          · refine .inr ⟨same, .inr ⟨fun listed => ?_, made⟩⟩
            rcases List.mem_cons.1 listed with first | later
            · exact here first.symm
            · exact new later

end

/-- The groups of tokens with metadata: one for each policy, with the entries of its tokens. -/
structure Grouped (found : List (Token × Metadatum)) (groups : MetadataGroups) : Prop where
  distinct : (groups.map (·.1)).Nodup
  policies : ∀ policy, policy ∈ groups.map (·.1) ↔
    ∃ one ∈ found, one.1.policy.id.text = policy
  entries : ∀ group ∈ groups,
    group.2 = (found.filter fun one => one.1.policy.id.text = group.1).map namedEntry

/-- One more token goes to the end of the group of its policy. -/
theorem Grouped.add {found : List (Token × Metadatum)} {groups : MetadataGroups}
    (grouped : Grouped found groups) (one : Token × Metadatum) :
    Grouped (found ++ [one]) (addDescribed groups one) := by
  refine ⟨?_, fun policy => ?_, fun group member => ?_⟩
  · unfold addDescribed
    rw [keys_addToGroups]
    split
    next => exact grouped.distinct
    next new =>
      exact List.nodup_append'.2 ⟨grouped.distinct, List.nodup_singleton _,
        List.disjoint_singleton.2 new⟩
  · have keys : policy ∈ (addDescribed groups one).map (·.1) ↔
        policy ∈ groups.map (·.1) ∨ policy = one.1.policy.id.text := by
      unfold addDescribed
      rw [keys_addToGroups]
      split
      next old => exact ⟨.inl, fun either => either.elim id fun same => same ▸ old⟩
      next => rw [List.mem_append, List.mem_singleton]
    rw [keys, grouped.policies]
    simp only [List.mem_append, List.mem_singleton, or_and_right, exists_or, exists_eq_left]
    exact or_congr_right eq_comm
  · rw [List.filter_append, List.map_append]
    rcases mem_addToGroups grouped.distinct member with
      ⟨apart, held⟩ | ⟨same, ⟨held, there, made⟩ | ⟨new, made⟩⟩
    · rw [grouped.entries group held, List.filter_singleton]
      simp [Ne.symm apart]
    · have before : held = _ := grouped.entries _ there
      rw [made, same, before, List.filter_singleton]
      simp
    · have none : found.filter (fun one => one.1.policy.id.text = group.1) = [] := by
        rw [List.filter_eq_nil_iff]
        intro other listed named
        exact new ((grouped.policies _).2 ⟨other, listed, (of_decide_eq_true named).trans same⟩)
      rw [none, made, same, List.filter_singleton]
      simp

theorem grouped_foldl (found : List (Token × Metadatum)) :
    Grouped found (found.foldl addDescribed []) := by
  induction found using List.reverseRecOn with
  | nil => exact ⟨List.nodup_nil, fun _ => ⟨nofun, fun ⟨_, listed, _⟩ => nomatch listed⟩, nofun⟩
  | append_singleton earlier one ih =>
      rw [List.foldl_append]
      exact ih.add one

/-! ## The metadata of a batch -/

theorem metadataEntry_eq_ok {tokens : List Token} {label : UInt64} {datum : Metadatum}
    (made : metadataEntry tokens = .ok (some (label, datum))) :
    label = metadataLabel ∧ datum = .ofNamed
      ((metadataGroups tokens).map fun group => (group.1, .ofNamed group.2)) := by
  unfold metadataEntry at made
  simp only at made
  split at made
  · cases made
  · obtain ⟨entries, read, made⟩ := Except.bind_eq_ok.1 made
    obtain ⟨whole, written, made⟩ := Except.bind_eq_ok.1 made
    obtain ⟨rfl, rfl⟩ := Prod.mk.inj (Option.some.inj (Except.ok.inj made))
    refine ⟨rfl, ?_⟩
    rw [Metadatum.ofTextEntries_eq_ok written, Except.eq_map_of_mapM ?_ read]
    intro group entry here
    obtain ⟨assets, read, made⟩ := Except.bind_eq_ok.1 here
    rw [← Except.ok.inj made, Metadatum.ofTextEntries_eq_ok read]

/-- Pairs are distinct exactly when the second parts are distinct for each first part. -/
theorem nodup_map_pair_iff {α β γ : Type} [DecidableEq β] (first : α → β) (second : α → γ)
    (items : List α) :
    (items.map fun item => (first item, second item)).Nodup ↔
      ∀ key, ((items.filter fun item => first item = key).map second).Nodup := by
  simp only [List.Nodup, List.pairwise_map, List.pairwise_filter, decide_eq_true_eq]
  constructor
  · intro apart key
    exact apart.imp fun {one other} differ here there same =>
      differ (Prod.ext (here.trans there.symm) same)
  · intro apart
    rw [List.pairwise_iff_forall_sublist]
    intro one other inside same
    obtain ⟨keys, values⟩ := Prod.mk.inj same
    exact List.pairwise_iff_forall_sublist.1 (apart (first other)) inside keys rfl values

/-- The tokens of a policy that carry metadata, with it. -/
def ofPolicy (tokens : List Token) (policy : PolicyId) : List (Token × Metadatum) :=
  (described tokens).filter fun one => one.1.policy.id = policy

theorem filter_text_eq_ofPolicy (tokens : List Token) (policy : PolicyId) :
    ((described tokens).filter fun one => one.1.policy.id.text = policy.text) =
      ofPolicy tokens policy := by
  unfold ofPolicy
  simp only [Hash.text_injective.eq_iff]

/-- The metadata lists the policies of the tokens that carry metadata, and under a policy the
metadata of its tokens. -/
theorem mem_entries_iff {tokens : List Token} {label : UInt64} {datum : Metadatum}
    (made : metadataEntry tokens = .ok (some (label, datum))) {key group : Metadatum} :
    (key, group) ∈ datum.entries ↔ ∃ policy, ofPolicy tokens policy ≠ [] ∧
      key = .text policy.text ∧ group = .ofNamed ((ofPolicy tokens policy).map namedEntry) := by
  have grouped := grouped_foldl (described tokens)
  rw [← metadataGroups_eq] at grouped
  have listed : (key, group) ∈ datum.entries ↔
      ∃ policy named, (policy, named) ∈ metadataGroups tokens ∧
        key = .text policy ∧ group = .ofNamed named := by
    rw [(metadataEntry_eq_ok made).2]
    simp only [Metadatum.ofNamed, Metadatum.entries, List.map_map, List.mem_map, Prod.exists,
      Function.comp_apply, Prod.mk.injEq]
    exact exists_congr fun policy => exists_congr fun named =>
      and_congr_right' (and_congr eq_comm eq_comm)
  rw [listed]
  constructor
  · rintro ⟨policy, named, member, rfl, rfl⟩
    obtain ⟨one, carried, rfl⟩ :=
      (grouped.policies policy).1 (List.mem_map_of_mem member)
    refine ⟨one.1.policy.id, ?_, rfl, ?_⟩
    · exact List.ne_nil_of_mem (List.mem_filter.2 ⟨carried, decide_eq_true rfl⟩)
    · rw [← filter_text_eq_ofPolicy, ← grouped.entries _ member]
  · rintro ⟨policy, some, rfl, rfl⟩
    obtain ⟨one, member⟩ := List.exists_mem_of_ne_nil _ some
    obtain ⟨carried, same⟩ := List.mem_filter.1 member
    have named : policy.text ∈ (metadataGroups tokens).map (·.1) :=
      (grouped.policies _).2 ⟨one, carried, congrArg Hash.text (of_decide_eq_true same)⟩
    obtain ⟨⟨_, entries⟩, there, rfl⟩ := List.mem_map.1 named
    refine ⟨policy.text, entries, there, rfl, ?_⟩
    rw [← filter_text_eq_ofPolicy, ← grouped.entries _ there]

/-- The policies of token metadata are distinct. Under a policy it lists the tokens of the policy
that carry metadata, in order, so each of them is found under its policy and name and no other
token is. The names under each policy are distinct exactly when no two tokens with metadata share
the policy and the text of the name. -/
theorem metadataEntry_lists {tokens : List Token} {label : UInt64} {datum : Metadatum}
    (made : metadataEntry tokens = .ok (some (label, datum))) :
    label = metadataLabel ∧ datum.keys.Nodup ∧
      (∀ key group, (key, group) ∈ datum.entries ↔ ∃ policy, ofPolicy tokens policy ≠ [] ∧
        key = .text policy.text ∧
        group = .ofNamed ((ofPolicy tokens policy).map namedEntry)) ∧
      (∀ token ∈ tokens, ∀ carried, token.metadata = some carried →
        ∃ group, (.text token.policy.id.text, group) ∈ datum.entries ∧
          (.text token.nameText, carried) ∈ group.entries) ∧
      ((∀ key group, (key, group) ∈ datum.entries → group.keys.Nodup) ↔
        ((described tokens).map fun one => (one.1.policy.id, one.1.nameText)).Nodup) := by
  obtain ⟨rfl, whole⟩ := metadataEntry_eq_ok made
  refine ⟨rfl, ?_, fun _ _ => mem_entries_iff made, ?_, ?_⟩
  · have grouped := grouped_foldl (described tokens)
    rw [← metadataGroups_eq] at grouped
    rw [whole, Metadatum.nodup_keys_ofNamed, List.map_map]
    exact grouped.distinct
  · intro token member carried carries
    have inside : (token, carried) ∈ ofPolicy tokens token.policy.id :=
      List.mem_filter.2 ⟨mem_described.2 ⟨member, carries⟩, decide_eq_true rfl⟩
    refine ⟨_, (mem_entries_iff made).2 ⟨_, List.ne_nil_of_mem inside, rfl, rfl⟩, ?_⟩
    exact List.mem_map.2 ⟨_, List.mem_map_of_mem inside, rfl⟩
  · rw [nodup_map_pair_iff]
    have names (policy : PolicyId) :
        (Metadatum.ofNamed ((ofPolicy tokens policy).map namedEntry)).keys.Nodup ↔
          ((ofPolicy tokens policy).map fun one => one.1.nameText).Nodup := by
      rw [Metadatum.nodup_keys_ofNamed, List.map_map]
      rfl
    constructor
    · intro distinct policy
      by_cases none : ofPolicy tokens policy = []
      · rw [show (described tokens).filter (fun one => one.1.policy.id = policy) = [] from none]
        exact List.nodup_nil
      · exact (names policy).1 (distinct _ _ ((mem_entries_iff made).2 ⟨policy, none, rfl, rfl⟩))
    · rintro distinct key group member
      obtain ⟨policy, _, _, rfl⟩ := (mem_entries_iff made).1 member
      exact (names policy).2 (distinct policy)

namespace Sample

def policy (byte : UInt8) : PolicyId := ⟨.replicate 28 byte⟩

/-- A name of one byte. -/
def name (byte : UInt8) : AssetName := ⟨[byte], by simp⟩

def coin (issuer byte : UInt8) (carried : Option Metadatum) : Token :=
  ⟨⟨"coins", .id (policy issuer)⟩, name byte, 1, carried⟩

def note : Metadatum := .text "note"

/-- Two policies; of three names under the first one, one comes without metadata. -/
def tokens : List Token :=
  [coin 1 0x41 (some note), coin 2 0x41 (some note), coin 1 0x42 none, coin 1 0x43 (some note)]

def listing : Metadatum :=
  .ofNamed [((policy 1).text, .ofNamed [("A", note), ("C", note)]),
    ((policy 2).text, .ofNamed [("A", note)])]

/-- One token twice. -/
def repeated : List Token := [coin 1 0x41 (some note), coin 1 0x41 (some note)]

end Sample

theorem metadataEntry_lists_sample :
    metadataEntry Sample.tokens = .ok (some (metadataLabel, Sample.listing)) ∧
      Sample.listing.keys.Nodup ∧
      ∀ key group, (key, group) ∈ Sample.listing.entries → group.keys.Nodup := by
  have made : metadataEntry Sample.tokens = .ok (some (metadataLabel, Sample.listing)) := by rfl
  obtain ⟨_, policies, _, _, names⟩ := metadataEntry_lists made
  refine ⟨made, policies, names.2 ?_⟩
  decide

/-- What one token twice is listed as. -/
def Sample.repetition : Metadatum := .ofNamed [("A", note), ("A", note)]

/-- A token that is given twice is minted twice, and its name stands twice under its policy. -/
theorem metadataEntry_repeats_name :
    (mint Sample.repeated).get ⟨Sample.policy 1, Sample.name 0x41⟩ = 2 ∧
      metadataEntry Sample.repeated = .ok (some (metadataLabel,
        .ofNamed [((Sample.policy 1).text, Sample.repetition)])) ∧
      ¬ Sample.repetition.keys.Nodup := by
  refine ⟨by decide, by rfl, ?_⟩
  rw [Sample.repetition, Metadatum.nodup_keys_ofNamed]
  decide

end Token

end UtxoLedger
