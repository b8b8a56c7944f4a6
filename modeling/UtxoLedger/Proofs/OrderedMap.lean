import Mathlib.Data.List.Nodup
import Mathlib.Data.List.Perm.Subperm
import UtxoLedger.OrderedMap

/-!
# Maps made of pairs

A map is made of pairs by setting them in turn: of the pairs of one place the
last one is kept. So the map has an entry for every pair exactly when no two
pairs share a place, and it then holds every one of them.
-/

namespace UtxoLedger

open Ranked

namespace OrderedMap

variable {κ ν : Type} [Ranked κ]

/-- The places of the keys of some pairs. -/
def places (pairs : List (κ × ν)) : List (List Nat) := pairs.map fun pair => rank pair.1

theorem nodup_places (map : OrderedMap κ ν) : (places map.entries).Nodup :=
  List.pairwise_map.2 (map.ascending.imp rank_ne_of_before)

theorem isSome_lookupPlace_iff {key : κ} {list : List (κ × ν)} :
    (lookupPlace key list).isSome = true ↔ rank key ∈ places list := by
  induction list with
  | nil => simp [lookupPlace, places]
  | cons head rest ih =>
      rw [lookupPlace, places, List.map_cons, List.mem_cons]
      by_cases here : rank head.1 = rank key
      · rw [if_pos here]
        exact iff_of_true rfl (.inl here.symm)
      · rw [if_neg here, ih]
        exact ⟨.inr, fun member => member.resolve_left (Ne.symm here)⟩

/-- Where no place is taken twice, the value listed for a place is the one that stands there. -/
theorem lookupPlace_eq_some_iff {key : κ} {value : ν} {list : List (κ × ν)}
    (distinct : (places list).Nodup) :
    lookupPlace key list = some value ↔ ∃ other, rank other = rank key ∧ (other, value) ∈ list := by
  induction list with
  | nil => simp [lookupPlace]
  | cons head rest ih =>
      obtain ⟨place, listed⟩ := head
      obtain ⟨unlike, later⟩ := List.nodup_cons.1 distinct
      rw [lookupPlace]
      by_cases here : rank place = rank key
      · rw [if_pos here, Option.some.injEq]
        constructor
        · rintro rfl
          exact ⟨place, here, List.mem_cons_self⟩
        · rintro ⟨other, level, member⟩
          rcases List.mem_cons.1 member with same | behind
          · exact (Prod.mk.inj same).2.symm
          · have taken : rank other ∈ places rest := List.mem_map_of_mem behind
            rw [level, ← here] at taken
            exact absurd taken unlike
      · rw [if_neg here, ih later]
        constructor
        · rintro ⟨other, level, member⟩
          exact ⟨other, level, List.mem_cons_of_mem _ member⟩
        · rintro ⟨other, level, member⟩
          rcases List.mem_cons.1 member with same | behind
          · exact absurd ((Prod.mk.inj same).1 ▸ level) here
          · exact ⟨other, level, behind⟩

theorem atPlace?_congr {key other : κ} (same : rank key = rank other) (map : OrderedMap κ ν) :
    map.atPlace? key = map.atPlace? other :=
  lookupPlace_congr same map.entries

theorem lookupPlace_append (key : κ) (first second : List (κ × ν)) :
    lookupPlace key (first ++ second) = (lookupPlace key first).or (lookupPlace key second) := by
  induction first with
  | nil => rfl
  | cons head rest ih =>
      rw [List.cons_append, lookupPlace, lookupPlace, ih]
      by_cases here : rank head.1 = rank key
      · rw [if_pos here, if_pos here]
        rfl
      · rw [if_neg here, if_neg here]

theorem atPlace?_foldl_insert (pairs : List (κ × ν)) (map : OrderedMap κ ν) (key : κ) :
    (pairs.foldl (fun map pair => map.insert pair.1 pair.2) map).atPlace? key =
      (lookupPlace key pairs.reverse).or (map.atPlace? key) := by
  induction pairs generalizing map with
  | nil => rfl
  | cons first rest ih =>
      rw [List.foldl_cons, ih, insert, atPlace?_alter, List.reverse_cons, lookupPlace_append,
        Option.or_assoc, lookupPlace, lookupPlace]
      by_cases here : rank first.1 = rank key
      · rw [if_pos here, if_pos here]
        rfl
      · rw [if_neg here, if_neg here]
        rfl

/-- The last pair of a place is kept. -/
theorem atPlace?_ofList (pairs : List (κ × ν)) (key : κ) :
    (ofList pairs).atPlace? key = lookupPlace key pairs.reverse := by
  rw [ofList, atPlace?_foldl_insert]
  exact Option.or_none

theorem mem_places_ofList_iff {pairs : List (κ × ν)} {place : List Nat} :
    place ∈ places (ofList pairs).entries ↔ place ∈ places pairs := by
  have same (key : κ) : rank key ∈ places (ofList pairs).entries ↔ rank key ∈ places pairs := by
    rw [← isSome_lookupPlace_iff]
    change ((ofList pairs).atPlace? key).isSome = true ↔ _
    rw [atPlace?_ofList, isSome_lookupPlace_iff, places, List.map_reverse, List.mem_reverse]
    rfl
  constructor
  · intro member
    obtain ⟨entry, _, rfl⟩ := List.mem_map.1 member
    exact (same entry.1).1 member
  · intro member
    obtain ⟨pair, _, rfl⟩ := List.mem_map.1 member
    exact (same pair.1).2 member

/-- A map has an entry for every pair exactly when no two pairs share a place. -/
theorem size_ofList_eq_iff (pairs : List (κ × ν)) :
    (ofList pairs).size = pairs.length ↔ (places pairs).Nodup := by
  have left : (places (ofList pairs).entries).length = (ofList pairs).size := List.length_map _
  have right : (places pairs).length = pairs.length := List.length_map _
  have kept := nodup_places (ofList pairs)
  rw [← left, ← right]
  constructor
  · intro sizes
    have inside := List.subperm_of_subset kept fun _ => mem_places_ofList_iff.1
    exact (inside.perm_of_length_le (Nat.le_of_eq sizes.symm)).nodup_iff.1 kept
  · intro distinct
    exact ((List.perm_ext_iff_of_nodup kept distinct).2 fun _ => mem_places_ofList_iff).length_eq

theorem nodup_places_iff [LawfulRanked κ] {pairs : List (κ × ν)} :
    (places pairs).Nodup ↔ (pairs.map Prod.fst).Nodup := by
  have byKey : places pairs = (pairs.map Prod.fst).map rank := by rw [places, List.map_map]; rfl
  rw [byKey]
  exact List.nodup_map_iff fun _ _ => LawfulRanked.rank_injective

/-- A map has an entry for every pair exactly when no two pairs have one key. -/
theorem size_ofList_eq_iff_nodup [LawfulRanked κ] (pairs : List (κ × ν)) :
    (ofList pairs).size = pairs.length ↔ (pairs.map Prod.fst).Nodup :=
  (size_ofList_eq_iff pairs).trans nodup_places_iff

/-- A map that is made of pairs of distinct keys holds every pair. -/
theorem get?_ofList [LawfulRanked κ] [DecidableEq κ] {pairs : List (κ × ν)}
    (distinct : (pairs.map Prod.fst).Nodup) {key : κ} {value : ν} (member : (key, value) ∈ pairs) :
    (ofList pairs).get? key = some value := by
  rw [get?_eq_atPlace?, atPlace?_ofList]
  have apart : (places pairs.reverse).Nodup := by
    rw [places, List.map_reverse, List.nodup_reverse]
    exact nodup_places_iff.2 distinct
  exact (lookupPlace_eq_some_iff apart).2 ⟨key, rfl, List.mem_reverse.2 member⟩

end OrderedMap

end UtxoLedger
