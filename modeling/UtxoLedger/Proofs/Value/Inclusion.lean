import Mathlib.Algebra.Order.BigOperators.Group.List
import Mathlib.Algebra.Order.Ring.Nat
import Mathlib.Data.List.Forall2
import UtxoLedger.Proofs.Value.Quantities

/-!
# Bundles inside others

A bundle lies inside another one when each of its entries is an entry of the
other, with the same quantity. The groups of the inner bundle are then found
in the outer one in the same order, and the entries of each group among those
of its partner.
-/

namespace UtxoLedger

open List (SublistForall₂)

/-! ## Increasing lists -/

section

open Ranked

variable {α κ : Type} [Ranked κ] {key : α → κ} {Matches : α → α → Prop} {first second : List α}

/-- Where every item of an increasing list has a match of its own key in another one, the matches
stand in the same order. -/
theorem sublistForall₂_of_ascending
    (left : first.Pairwise fun earlier later => Before (key earlier) (key later))
    (right : second.Pairwise fun earlier later => Before (key earlier) (key later))
    (keyed : ∀ item other, Matches item other → key item = key other)
    (found : ∀ item ∈ first, ∃ other ∈ second, Matches item other) :
    SublistForall₂ Matches first second := by
  induction second generalizing first with
  | nil =>
      cases first with
      | nil => exact .nil
      | cons item rest =>
          obtain ⟨other, absent, _⟩ := found item List.mem_cons_self
          exact absurd absent List.not_mem_nil
  | cons head others ih =>
      cases first with
      | nil => exact .nil
      | cons item rest =>
          obtain ⟨above, restAscending⟩ := List.pairwise_cons.1 left
          obtain ⟨aboveHead, othersAscending⟩ := List.pairwise_cons.1 right
          obtain ⟨partner, listed, matched⟩ := found item List.mem_cons_self
          rcases List.mem_cons.1 listed with rfl | further
          · refine .cons matched (ih restAscending othersAscending fun later member => ?_)
            obtain ⟨other, among, fitting⟩ := found later (List.mem_cons_of_mem _ member)
            rcases List.mem_cons.1 among with rfl | beyond
            · have same := (keyed _ _ matched).trans (keyed _ _ fitting).symm
              exact absurd (above later member) (same ▸ Before.irrefl (key item))
            · exact ⟨other, beyond, fitting⟩
          · -- The first item is matched further on, and so is everything above it.
            have below : Before (key head) (key item) :=
              keyed _ _ matched ▸ aboveHead partner further
            refine .cons_right (ih left othersAscending fun later member => ?_)
            obtain ⟨other, among, fitting⟩ := found later member
            rcases List.mem_cons.1 among with rfl | beyond
            · have higher : Before (key other) (key later) := by
                rcases List.mem_cons.1 member with rfl | after
                · exact below
                · exact below.trans (above later after)
              exact absurd higher (keyed _ _ fitting ▸ Before.irrefl (key later))
            · exact ⟨other, beyond, fitting⟩

theorem sublist_of_ascending
    (left : first.Pairwise fun earlier later => Before (key earlier) (key later))
    (right : second.Pairwise fun earlier later => Before (key earlier) (key later))
    (within : first ⊆ second) : first.Sublist second := by
  have matched : SublistForall₂ (· = ·) first second :=
    sublistForall₂_of_ascending left right (fun _ _ same => congrArg key same)
      fun item member => ⟨item, within member, rfl⟩
  obtain ⟨partners, same, inside⟩ := List.sublistForall₂_iff.1 matched
  rw [List.forall₂_eq_eq_eq] at same
  exact same ▸ inside

end

/-- Where partners weigh more by at least what they count more, and no item counts more than it
weighs, the weights differ by at least what the counts differ by. -/
theorem sum_add_le_of_sublistForall₂ {α : Type} {Matches : α → α → Prop} {first second : List α}
    (weight count : α → Nat) (matched : SublistForall₂ Matches first second)
    (grows : ∀ item other, Matches item other →
      weight item + count other ≤ weight other + count item)
    (counted : ∀ item, count item ≤ weight item) :
    (first.map weight).sum + (second.map count).sum ≤
      (second.map weight).sum + (first.map count).sum := by
  induction matched with
  | @nil others =>
      have all : (others.map count).sum ≤ (others.map weight).sum :=
        List.sum_le_sum fun item _ => counted item
      simpa using all
  | cons fitting _ ih =>
      have here := grows _ _ fitting
      simp only [List.map_cons, List.sum_cons]
      omega
  | @cons_right other _ _ _ ih =>
      have here := counted other
      simp only [List.map_cons, List.sum_cons]
      omega

/-! ## Groups -/

namespace MultiAsset

variable {first second : MultiAsset}

theorem mem_entries_iff_exists_group {bundle : MultiAsset} {asset : Asset} {quantity : Int64} :
    (asset, quantity) ∈ bundle.entries ↔
      ∃ group, (asset.policy, group) ∈ bundle.policies.entries ∧
        (asset.name, quantity) ∈ group.entries := by
  unfold entries
  rw [List.mem_flatMap]
  constructor
  · rintro ⟨⟨policy, group⟩, grouped, listed⟩
    obtain ⟨⟨name, amount⟩, member, same⟩ := List.mem_map.1 listed
    cases same
    exact ⟨group, grouped, member⟩
  · rintro ⟨group, grouped, listed⟩
    exact ⟨(asset.policy, group), grouped, List.mem_map.2 ⟨(asset.name, quantity), listed, rfl⟩⟩

/-- Groups of one policy, the first of which lies inside the second. -/
structure GroupWithin (first second : PolicyId × OrderedMap AssetName Int64) : Prop where
  policy : first.1 = second.1
  entries : first.2.entries.Sublist second.2.entries

theorem exists_groupWithin (within : first.entries ⊆ second.entries)
    {group : PolicyId × OrderedMap AssetName Int64} (grouped : group ∈ first.policies.entries) :
    ∃ outer ∈ second.policies.entries, GroupWithin group outer := by
  obtain ⟨policy, group⟩ := group
  have moved {entry : AssetName × Int64} (member : entry ∈ group.entries) :
      ∃ outer, (policy, outer) ∈ second.policies.entries ∧ entry ∈ outer.entries := by
    have listed : ((⟨policy, entry.1⟩ : Asset), entry.2) ∈ first.entries :=
      mem_entries_iff_exists_group.2 ⟨group, grouped, member⟩
    exact mem_entries_iff_exists_group.1 (within listed)
  obtain ⟨some, member⟩ :=
    List.exists_mem_of_ne_nil _ (first.canonical (policy, group) grouped).1
  obtain ⟨outer, present, _⟩ := moved member
  refine ⟨(policy, outer), present, rfl, sublist_of_ascending group.ascending outer.ascending ?_⟩
  intro entry member
  obtain ⟨other, alsoPresent, listed⟩ := moved member
  have same : other = outer := by
    have here := OrderedMap.lookup_of_mem second.policies.ascending present
    have there := OrderedMap.lookup_of_mem second.policies.ascending alsoPresent
    exact Option.some.inj (there.symm.trans here)
  exact same ▸ listed

theorem groupsWithin (within : first.entries ⊆ second.entries) :
    SublistForall₂ GroupWithin first.policies.entries second.policies.entries :=
  sublistForall₂_of_ascending first.policies.ascending second.policies.ascending
    (fun _ _ inside => inside.policy) fun _ => exists_groupWithin within

theorem isEmpty_iff_entries (bundle : MultiAsset) :
    bundle.isEmpty = true ↔ bundle.entries = [] := by
  rw [isEmpty_iff, List.eq_nil_iff_forall_not_mem]
  constructor
  · rintro nothing ⟨asset, quantity⟩ listed
    obtain ⟨rfl, present⟩ := (mem_entries_iff bundle asset quantity).1 listed
    exact present (nothing asset)
  · intro unlisted asset
    by_contra present
    exact unlisted (asset, bundle.get asset) ((mem_entries_iff bundle asset _).2 ⟨rfl, present⟩)

/-- What lies inside nothing is nothing. -/
theorem isEmpty_of_within (within : first.entries ⊆ second.entries)
    (nothing : second.isEmpty = true) : first.isEmpty = true := by
  rw [isEmpty_iff_entries] at nothing ⊢
  exact List.subset_nil.1 (nothing ▸ within)

/-! ## Counts -/

theorem policyCount_le (within : first.entries ⊆ second.entries) :
    first.policyCount ≤ second.policyCount := by
  obtain ⟨partners, matched, inside⟩ := List.sublistForall₂_iff.1 (groupsWithin within)
  exact matched.length_eq.trans_le inside.length_le

theorem assetCount_eq_sum (bundle : MultiAsset) :
    bundle.assetCount = (bundle.policies.entries.map fun group => group.2.size).sum := by
  unfold assetCount entries
  rw [List.length_flatMap]
  simp only [List.length_map]
  rfl

theorem assetCount_of_isEmpty {bundle : MultiAsset} (nothing : bundle.isEmpty = true) :
    bundle.assetCount = 0 := by
  rw [assetCount, (isEmpty_iff_entries bundle).1 nothing, List.length_nil]

theorem assetCount_le (within : first.entries ⊆ second.entries) :
    first.assetCount ≤ second.assetCount := by
  have sums := sum_add_le_of_sublistForall₂ (fun group => group.2.size) (fun _ => 0)
    (groupsWithin within) (fun _ _ inside => inside.entries.length_le) fun _ => Nat.zero_le _
  rw [assetCount_eq_sum, assetCount_eq_sum]
  simpa using sums

end MultiAsset

end UtxoLedger
