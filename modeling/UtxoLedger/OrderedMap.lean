/-!
# Maps in key order

A map is the list of its entries in strictly increasing key order, so equal
maps are equal lists and a walk over the map is a walk over the list. Keys
are compared through their *rank*, a list of numbers compared
lexicographically. Keys of one rank share one place; the order is lawful when
only equal keys do.
-/

namespace UtxoLedger

/-- Items that stand level keep their order in a sorted list. -/
theorem filter_mergeSort {α : Type} {le : α → α → Bool} {accepts : α → Bool}
    (trans : ∀ first second third, le first second = true → le second third = true →
      le first third = true)
    (total : ∀ first second, (le first second || le second first) = true) (items : List α)
    (level : ∀ first second, accepts first = true → accepts second = true →
      le first second = true) : (items.mergeSort le).filter accepts = items.filter accepts := by
  have flat : (items.filter accepts).Pairwise fun first second => le first second = true := by
    refine List.pairwise_of_forall_mem_list ?_
    intro first left second right
    exact level first second (List.mem_filter.1 left).2 (List.mem_filter.1 right).2
  have inside : (items.filter accepts).Sublist (items.mergeSort le) :=
    List.sublist_mergeSort trans total flat List.filter_sublist
  have kept := inside.filter accepts
  simp only [List.filter_filter, Bool.and_self] at kept
  exact (kept.eq_of_length ((List.mergeSort_perm items le).filter accepts).length_eq.symm).symm

/-- Keys with a place in an order: ranks are compared lexicographically. -/
class Ranked (κ : Type) where
  rank : κ → List Nat

/-- Distinct keys have distinct places. -/
class LawfulRanked (κ : Type) [Ranked κ] : Prop where
  rank_injective : ∀ {first second : κ}, Ranked.rank first = Ranked.rank second → first = second

namespace Ranked

variable {κ : Type} [Ranked κ]

/-- The first key comes strictly before the second one. -/
def Before (first second : κ) : Prop := rank first < rank second

instance (first second : κ) : Decidable (Before first second) :=
  inferInstanceAs (Decidable (rank first < rank second))

theorem Before.trans {first second third : κ} (left : Before first second)
    (right : Before second third) : Before first third :=
  List.lt_trans left right

theorem Before.irrefl (key : κ) : ¬ Before key key :=
  List.lt_irrefl (rank key)

theorem Before.asymm {first second : κ} (left : Before first second) :
    ¬ Before second first :=
  fun right => Before.irrefl first (left.trans right)

theorem rank_eq_of_not_before {first second : κ} (left : ¬ Before first second)
    (right : ¬ Before second first) : rank first = rank second :=
  List.le_antisymm (List.not_lt.1 right) (List.not_lt.1 left)

theorem rank_ne_of_before {first second : κ} (before : Before first second) :
    rank first ≠ rank second := by
  intro same
  unfold Before at before
  rw [same] at before
  exact List.lt_irrefl _ before

theorem eq_of_not_before [LawfulRanked κ] {first second : κ} (left : ¬ Before first second)
    (right : ¬ Before second first) : first = second :=
  LawfulRanked.rank_injective (rank_eq_of_not_before left right)

/-- Lists with front parts of one length are ordered by these, then by what follows. -/
theorem append_lt_append_iff {first second third fourth : List Nat}
    (sizes : first.length = third.length) :
    first ++ second < third ++ fourth ↔ first < third ∨ first = third ∧ second < fourth := by
  induction first generalizing third with
  | nil =>
      obtain rfl := List.length_eq_zero_iff.1 sizes.symm
      simp
  | cons head rest ih =>
      cases third with
      | nil => cases sizes
      | cons other later =>
          rw [List.cons_append, List.cons_append, List.cons_lt_cons_iff, List.cons_lt_cons_iff,
            ih (Nat.succ.inj sizes), List.cons.injEq]
          grind

/-- The first key comes before the second one or is the same. -/
def atMost (first second : κ) : Bool := decide (¬ Before second first)

/-- The keys by increasing rank; keys of one rank stay in their order. -/
def sort (keys : List κ) : List κ := keys.mergeSort atMost

theorem sort_perm (keys : List κ) : (sort keys).Perm keys := List.mergeSort_perm keys atMost

theorem atMost_trans (first second third : κ) (left : atMost first second = true)
    (right : atMost second third = true) : atMost first third = true := by
  simp only [atMost, decide_eq_true_eq] at left right ⊢
  intro after
  exact left (List.lt_of_le_of_lt (List.not_lt.1 right) after)

theorem atMost_total (first second : κ) :
    (atMost first second || atMost second first) = true := by
  simp only [atMost, Bool.or_eq_true, decide_eq_true_eq]
  by_cases before : Before second first
  · exact .inr before.asymm
  · exact .inl before

theorem sort_pairwise (keys : List κ) :
    (sort keys).Pairwise fun first second => ¬ Before second first :=
  (List.pairwise_mergeSort atMost_trans atMost_total keys).imp fun ordered => by
    simpa [atMost] using ordered

/-- Keys of one place keep their order. -/
theorem filter_sort {accepts : κ → Bool} (keys : List κ)
    (level : ∀ first second, accepts first = true → accepts second = true →
      ¬ Before second first) : (sort keys).filter accepts = keys.filter accepts :=
  filter_mergeSort atMost_trans atMost_total keys fun first second left right => by
    simpa [atMost] using level first second left right

section

variable {α : Type} (key : α → κ)

/-- Strictly increasing keys are distinct. -/
theorem nodup_of_ascending {items : List α}
    (ascending : items.Pairwise fun earlier later => Before (key earlier) (key later)) :
    (items.map key).Nodup := by
  refine List.pairwise_map.2 (ascending.imp ?_)
  intro earlier later before same
  rw [same] at before
  exact Before.irrefl (key later) before

/-- Strictly increasing lists with the same members are the same. -/
theorem eq_of_ascending {first second : List α}
    (left : first.Pairwise fun earlier later => Before (key earlier) (key later))
    (right : second.Pairwise fun earlier later => Before (key earlier) (key later))
    (same : ∀ item, item ∈ first ↔ item ∈ second) : first = second := by
  have distinct {items : List α}
      (ascending : items.Pairwise fun earlier later => Before (key earlier) (key later)) :
      items.Nodup := by
    refine (List.pairwise_map.1 (nodup_of_ascending key ascending)).imp ?_
    exact fun different same => different (congrArg key same)
  have perm := (List.perm_ext_iff_of_nodup (distinct left) (distinct right)).2 same
  refine List.Perm.eq_of_pairwise ?_ left right perm
  intro earlier later _ _ before after
  exact absurd after before.asymm

end

end Ranked

instance : Ranked UInt64 where
  rank word := [word.toNat]

instance : LawfulRanked UInt64 where
  rank_injective same := UInt64.toNat_inj.1 (List.head_eq_of_cons_eq same)

/-- Entries in strictly increasing key order. -/
structure OrderedMap (κ ν : Type) [Ranked κ] where
  entries : List (κ × ν)
  ascending : entries.Pairwise fun first second => Ranked.Before first.1 second.1

namespace OrderedMap

open Ranked

variable {κ ν μ : Type} [Ranked κ]

theorem ext {first second : OrderedMap κ ν} (same : first.entries = second.entries) :
    first = second := by
  cases first
  cases second
  cases same
  rfl

instance [DecidableEq κ] [DecidableEq ν] : DecidableEq (OrderedMap κ ν) :=
  fun first second =>
    if same : first.entries = second.entries then isTrue (ext same)
    else isFalse fun equal => same (congrArg entries equal)

/-- The map without entries. -/
def empty : OrderedMap κ ν := ⟨[], List.Pairwise.nil⟩

instance : Inhabited (OrderedMap κ ν) := ⟨empty⟩

def isEmpty (map : OrderedMap κ ν) : Bool := map.entries.isEmpty

def size (map : OrderedMap κ ν) : Nat := map.entries.length

def keys (map : OrderedMap κ ν) : List κ := map.entries.map Prod.fst

def values (map : OrderedMap κ ν) : List ν := map.entries.map Prod.snd

/-! ## Look-up -/

/-- The value listed for a key. -/
def lookup [DecidableEq κ] (key : κ) : List (κ × ν) → Option ν
  | [] => none
  | (other, value) :: rest => if key = other then some value else lookup key rest

/-- The value at a key. -/
def get? [DecidableEq κ] (map : OrderedMap κ ν) (key : κ) : Option ν :=
  lookup key map.entries

/-- The value listed for a key or for another key of its place. -/
def lookupPlace (key : κ) : List (κ × ν) → Option ν
  | [] => none
  | (other, value) :: rest => if rank other = rank key then some value else lookupPlace key rest

/-- The value at the place of a key. -/
def atPlace? (map : OrderedMap κ ν) (key : κ) : Option ν := lookupPlace key map.entries

/-! ## Update -/

/-- Rewrites the value at a key in a sorted entry list; `none` is an absent value. -/
def alterEntries (key : κ) (change : Option ν → Option ν) : List (κ × ν) → List (κ × ν)
  | [] =>
      match change none with
      | some value => [(key, value)]
      | none => []
  | (other, value) :: rest =>
      if Before key other then
        match change none with
        | some fresh => (key, fresh) :: (other, value) :: rest
        | none => (other, value) :: rest
      else if Before other key then
        (other, value) :: alterEntries key change rest
      else
        match change (some value) with
        | some fresh => (other, fresh) :: rest
        | none => rest

theorem mem_alterEntries {key : κ} {change : Option ν → Option ν} {list : List (κ × ν)}
    {entry : κ × ν} (member : entry ∈ alterEntries key change list) :
    entry.1 = key ∨ ∃ value, (entry.1, value) ∈ list := by
  induction list with
  | nil =>
      unfold alterEntries at member
      split at member <;> simp_all
  | cons head rest ih =>
      obtain ⟨other, value⟩ := head
      unfold alterEntries at member
      split at member
      · split at member
        · rcases List.mem_cons.1 member with rfl | old
          · exact .inl rfl
          · exact .inr ⟨entry.2, old⟩
        · exact .inr ⟨entry.2, member⟩
      · split at member
        · rcases List.mem_cons.1 member with rfl | old
          · exact .inr ⟨value, List.mem_cons_self⟩
          · rcases ih old with same | ⟨found, listed⟩
            · exact .inl same
            · exact .inr ⟨found, List.mem_cons_of_mem _ listed⟩
        · split at member
          · rcases List.mem_cons.1 member with rfl | old
            · exact .inr ⟨value, List.mem_cons_self⟩
            · exact .inr ⟨entry.2, List.mem_cons_of_mem _ old⟩
          · exact .inr ⟨entry.2, List.mem_cons_of_mem _ member⟩

theorem alterEntries_ascending (key : κ) (change : Option ν → Option ν) (list : List (κ × ν))
    (sorted : list.Pairwise fun first second => Before first.1 second.1) :
    (alterEntries key change list).Pairwise fun first second => Before first.1 second.1 := by
  induction list with
  | nil => unfold alterEntries; split <;> simp
  | cons head rest ih =>
      obtain ⟨other, value⟩ := head
      obtain ⟨above, tail⟩ := List.pairwise_cons.1 sorted
      unfold alterEntries
      split
      next earlier =>
        split
        · refine List.pairwise_cons.2 ⟨?_, sorted⟩
          intro entry member
          rcases List.mem_cons.1 member with rfl | old
          · exact earlier
          · exact earlier.trans (above entry old)
        · exact sorted
      next notEarlier =>
        split
        next later =>
          refine List.pairwise_cons.2 ⟨?_, ih tail⟩
          intro entry member
          rcases mem_alterEntries member with same | ⟨found, listed⟩
          · rw [same]; exact later
          · exact above (entry.1, found) listed
        next notLater =>
          split
          · exact List.pairwise_cons.2 ⟨above, tail⟩
          · exact tail

/-- Rewrites the value at a key; `none` stands for an absent value on both sides. -/
def alter (map : OrderedMap κ ν) (key : κ) (change : Option ν → Option ν) : OrderedMap κ ν :=
  ⟨alterEntries key change map.entries, alterEntries_ascending key change _ map.ascending⟩

/-- Sets the value at a key, replacing any earlier one. -/
def insert (map : OrderedMap κ ν) (key : κ) (value : ν) : OrderedMap κ ν :=
  map.alter key fun _ => some value

/-- The map that results from inserting the pairs in turn; the last pair of a key wins. -/
def ofList (pairs : List (κ × ν)) : OrderedMap κ ν :=
  pairs.foldl (fun map pair => map.insert pair.1 pair.2) empty

/-! ## Look-up after an update -/

omit [Ranked κ] in
theorem mem_of_lookup [DecidableEq κ] {key : κ} {value : ν} {list : List (κ × ν)}
    (found : lookup key list = some value) : (key, value) ∈ list := by
  induction list with
  | nil => simp [lookup] at found
  | cons head rest ih =>
      obtain ⟨other, listed⟩ := head
      by_cases same : key = other
      · rw [lookup, if_pos same, Option.some.injEq] at found
        rw [same, found]
        exact List.mem_cons_self
      · rw [lookup, if_neg same] at found
        exact List.mem_cons_of_mem _ (ih found)

omit [Ranked κ] in
theorem lookup_eq_none [DecidableEq κ] {key : κ} {list : List (κ × ν)}
    (absent : ∀ entry ∈ list, key ≠ entry.1) : lookup key list = none := by
  cases found : lookup key list with
  | none => rfl
  | some value => exact absurd rfl (absent (key, value) (mem_of_lookup found))

/-- A value after an update is an old one or what the update makes of an old or absent one. -/
theorem value_of_mem_alterEntries {key : κ} {change : Option ν → Option ν} {list : List (κ × ν)}
    {entry : κ × ν} (member : entry ∈ alterEntries key change list) :
    entry ∈ list ∨ ∃ found, (∀ value, found = some value → ∃ other, (other, value) ∈ list) ∧
      change found = some entry.2 := by
  induction list with
  | nil =>
      unfold alterEntries at member
      cases fresh : change none with
      | none => simp [fresh] at member
      | some value =>
          simp only [fresh, List.mem_singleton] at member
          exact .inr ⟨none, nofun, by rw [fresh, member]⟩
  | cons head rest ih =>
      obtain ⟨other, value⟩ := head
      unfold alterEntries at member
      split at member
      · cases fresh : change none with
        | none => exact .inl (by simpa [fresh] using member)
        | some made =>
            rw [fresh] at member
            rcases List.mem_cons.1 member with rfl | old
            · exact .inr ⟨none, nofun, fresh⟩
            · exact .inl old
      · split at member
        · rcases List.mem_cons.1 member with rfl | old
          · exact .inl List.mem_cons_self
          · rcases ih old with listed | ⟨found, sound, made⟩
            · exact .inl (List.mem_cons_of_mem _ listed)
            · refine .inr ⟨found, fun value same => ?_, made⟩
              obtain ⟨place, listed⟩ := sound value same
              exact ⟨place, List.mem_cons_of_mem _ listed⟩
        · cases fresh : change (some value) with
          | none =>
              rw [fresh] at member
              exact .inl (List.mem_cons_of_mem _ member)
          | some made =>
              rw [fresh] at member
              rcases List.mem_cons.1 member with rfl | old
              · refine .inr ⟨some value, fun found same => ?_, fresh⟩
                rw [← Option.some.inj same]
                exact ⟨other, List.mem_cons_self⟩
              · exact .inl (List.mem_cons_of_mem _ old)

/-- A key that comes before the first entry is not listed. -/
theorem lookup_eq_none_of_before [DecidableEq κ] {key : κ} {list : List (κ × ν)}
    (below : ∀ entry ∈ list, Before key entry.1) : lookup key list = none :=
  lookup_eq_none fun entry member same =>
    Before.irrefl key (by simpa [← same] using below entry member)

theorem lookupPlace_congr {key other : κ} (same : rank key = rank other) (list : List (κ × ν)) :
    lookupPlace key list = lookupPlace other list := by
  induction list with
  | nil => rfl
  | cons head rest ih => rw [lookupPlace, lookupPlace, same, ih]

/-- A place before the first entry is empty. -/
theorem lookupPlace_eq_none_of_before {key : κ} {list : List (κ × ν)}
    (below : ∀ entry ∈ list, Before key entry.1) : lookupPlace key list = none := by
  induction list with
  | nil => rfl
  | cons head rest ih =>
      have first := rank_ne_of_before (below head List.mem_cons_self)
      rw [lookupPlace, if_neg first.symm]
      exact ih fun entry member => below entry (List.mem_cons_of_mem _ member)

theorem lookupPlace_alterEntries (key other : κ) (change : Option ν → Option ν)
    {list : List (κ × ν)}
    (sorted : list.Pairwise fun first second => Before first.1 second.1) :
    lookupPlace other (alterEntries key change list) =
      if rank key = rank other then change (lookupPlace key list) else lookupPlace other list := by
  induction list with
  | nil => cases fresh : change none <;> simp [alterEntries, lookupPlace, fresh]
  | cons head rest ih =>
      obtain ⟨place, value⟩ := head
      obtain ⟨above, tail⟩ := List.pairwise_cons.1 sorted
      unfold alterEntries
      split
      next earlier =>
        have absent : lookupPlace key ((place, value) :: rest) = none := by
          refine lookupPlace_eq_none_of_before fun entry member => ?_
          rcases List.mem_cons.1 member with rfl | later
          · exact earlier
          · exact earlier.trans (above entry later)
        rw [absent]
        by_cases same : rank key = rank other
        · cases fresh : change none with
          | none => rw [if_pos same, ← lookupPlace_congr same]; exact absent
          | some made => rw [if_pos same, lookupPlace, if_pos same]
        · cases fresh : change none with
          | none => rw [if_neg same]
          | some made => rw [if_neg same, lookupPlace, if_neg same]
      next notEarlier =>
        split
        next later =>
          have different := rank_ne_of_before later
          by_cases same : rank place = rank other
          · rw [lookupPlace, if_pos same, if_neg fun equal => different (same.trans equal.symm),
              lookupPlace, if_pos same]
          · rw [lookupPlace, if_neg same, ih tail, lookupPlace, if_neg different, lookupPlace,
              if_neg same]
        next notLater =>
          have shared : rank place = rank key := (rank_eq_of_not_before notEarlier notLater).symm
          have gone : lookupPlace place rest = none := lookupPlace_eq_none_of_before above
          by_cases same : rank key = rank other
          · have here := shared.trans same
            cases fresh : change (some value) with
            | none =>
                rw [if_pos same, lookupPlace, if_pos shared, fresh, ← lookupPlace_congr here, gone]
            | some made => rw [if_pos same, lookupPlace, if_pos here, lookupPlace, if_pos shared, fresh]
          · have apart : rank place ≠ rank other := fun equal => same (shared.symm.trans equal)
            cases fresh : change (some value) with
            | none => rw [if_neg same, lookupPlace, if_neg apart]
            | some made => rw [if_neg same, lookupPlace, if_neg apart, lookupPlace, if_neg apart]

theorem atPlace?_alter (map : OrderedMap κ ν) (key other : κ) (change : Option ν → Option ν) :
    (map.alter key change).atPlace? other =
      if rank key = rank other then change (map.atPlace? key) else map.atPlace? other :=
  lookupPlace_alterEntries key other change map.ascending

/-- Where only equal keys share a place, the value at a place is the value at the key. -/
theorem get?_eq_atPlace? [LawfulRanked κ] [DecidableEq κ] (map : OrderedMap κ ν) (key : κ) :
    map.get? key = map.atPlace? key := by
  unfold get? atPlace?
  induction map.entries with
  | nil => rfl
  | cons head rest ih =>
      obtain ⟨other, value⟩ := head
      by_cases same : key = other
      · rw [lookup, if_pos same, lookupPlace, if_pos (by rw [same])]
      · have apart : rank other ≠ rank key :=
          fun equal => same (LawfulRanked.rank_injective equal).symm
        rw [lookup, if_neg same, lookupPlace, if_neg apart, ih]

theorem get?_alter [LawfulRanked κ] [DecidableEq κ] (map : OrderedMap κ ν) (key other : κ)
    (change : Option ν → Option ν) :
    (map.alter key change).get? other =
      if other = key then change (map.get? key) else map.get? other := by
  rw [get?_eq_atPlace?, get?_eq_atPlace?, get?_eq_atPlace?, atPlace?_alter]
  by_cases same : other = key
  · rw [if_pos same, if_pos (by rw [same])]
  · rw [if_neg same, if_neg fun equal => same (LawfulRanked.rank_injective equal).symm]

@[simp]
theorem get?_empty [DecidableEq κ] (key : κ) : (empty : OrderedMap κ ν).get? key = none := rfl

/-! ## Content -/

theorem lookup_of_mem [DecidableEq κ] {key : κ} {value : ν} {list : List (κ × ν)}
    (sorted : list.Pairwise fun first second => Before first.1 second.1)
    (member : (key, value) ∈ list) : lookup key list = some value := by
  induction list with
  | nil => exact absurd member List.not_mem_nil
  | cons head rest ih =>
      obtain ⟨other, listed⟩ := head
      obtain ⟨above, tail⟩ := List.pairwise_cons.1 sorted
      rcases List.mem_cons.1 member with here | later
      · obtain ⟨rfl, rfl⟩ := Prod.mk.inj here
        rw [lookup, if_pos rfl]
      · have different : key ≠ other := by
          rintro rfl
          exact Before.irrefl key (above (key, value) later)
        rw [lookup, if_neg different]
        exact ih tail later

/-- Maps with the same value at every key are the same. -/
theorem ext_get? [DecidableEq κ] {first second : OrderedMap κ ν}
    (same : ∀ key, first.get? key = second.get? key) : first = second := by
  have listed (map : OrderedMap κ ν) (entry : κ × ν) :
      entry ∈ map.entries ↔ map.get? entry.1 = some entry.2 :=
    ⟨lookup_of_mem map.ascending, mem_of_lookup⟩
  apply ext
  apply eq_of_ascending Prod.fst first.ascending second.ascending
  intro entry
  rw [listed, listed, same]

/-! ## Keys -/

omit [Ranked κ] in
theorem isSome_lookup_iff [DecidableEq κ] {key : κ} {list : List (κ × ν)} :
    (lookup key list).isSome = true ↔ key ∈ list.map Prod.fst := by
  induction list with
  | nil => simp [lookup]
  | cons head rest ih =>
      obtain ⟨other, value⟩ := head
      by_cases same : key = other
      · simp [lookup, same]
      · rw [lookup, if_neg same, ih, List.map_cons, List.mem_cons]
        exact ⟨.inr, fun member => member.resolve_left same⟩

/-- No key is listed twice. -/
theorem nodup_keys (map : OrderedMap κ ν) : map.keys.Nodup :=
  nodup_of_ascending Prod.fst map.ascending

theorem mem_keys_insert [LawfulRanked κ] [DecidableEq κ] (map : OrderedMap κ ν) (key other : κ)
    (value : ν) : other ∈ (map.insert key value).keys ↔ other = key ∨ other ∈ map.keys := by
  have found := get?_alter map key other fun _ => some value
  unfold get? at found
  unfold keys
  rw [← isSome_lookup_iff, ← isSome_lookup_iff, insert, found]
  by_cases same : other = key
  · simp [same]
  · simp [same]

theorem mem_keys_foldl_insert [LawfulRanked κ] [DecidableEq κ] (pairs : List (κ × ν))
    (map : OrderedMap κ ν) (key : κ) :
    key ∈ (pairs.foldl (fun map pair => map.insert pair.1 pair.2) map).keys ↔
      key ∈ map.keys ∨ key ∈ pairs.map Prod.fst := by
  induction pairs generalizing map with
  | nil => simp
  | cons first rest ih =>
      rw [List.foldl_cons, ih, mem_keys_insert, List.map_cons, List.mem_cons, or_assoc,
        or_left_comm]

/-- A map has the keys of the pairs that it is made of. -/
theorem mem_keys_ofList [LawfulRanked κ] [DecidableEq κ] (pairs : List (κ × ν)) (key : κ) :
    key ∈ (ofList pairs).keys ↔ key ∈ pairs.map Prod.fst := by
  rw [ofList, mem_keys_foldl_insert]
  exact ⟨fun member => member.resolve_left List.not_mem_nil, .inr⟩

/-- A key of a map is a key of one of the pairs that it is made of, also where keys of one
place may differ. -/
theorem mem_map_fst_of_mem_ofList {pairs : List (κ × ν)} {entry : κ × ν}
    (member : entry ∈ (ofList pairs).entries) : entry.1 ∈ pairs.map Prod.fst := by
  have general (pairs : List (κ × ν)) (map : OrderedMap κ ν) (entry : κ × ν)
      (member : entry ∈ (pairs.foldl (fun map pair => map.insert pair.1 pair.2) map).entries) :
      entry.1 ∈ map.keys ∨ entry.1 ∈ pairs.map Prod.fst := by
    induction pairs generalizing map with
    | nil => exact .inl (List.mem_map_of_mem member)
    | cons first rest ih =>
        rcases ih (map.insert first.1 first.2) member with inserted | later
        · obtain ⟨other, listed, same⟩ := List.mem_map.1 inserted
          rw [← same]
          rcases mem_alterEntries listed with new | ⟨value, old⟩
          · rw [new]
            exact .inr List.mem_cons_self
          · exact .inl (List.mem_map.2 ⟨_, old, rfl⟩)
        · exact .inr (List.mem_cons_of_mem _ later)
  exact (general pairs empty entry member).resolve_left List.not_mem_nil

/-! ## Rebuilding -/

/-- Setting a key above all others adds an entry at the end. -/
theorem alterEntries_of_above {key : κ} {value : ν} {list : List (κ × ν)}
    (below : ∀ entry ∈ list, Before entry.1 key) :
    alterEntries key (fun _ => some value) list = list ++ [(key, value)] := by
  induction list with
  | nil => rfl
  | cons head rest ih =>
      obtain ⟨other, old⟩ := head
      have earlier := below (other, old) List.mem_cons_self
      rw [alterEntries, if_neg earlier.asymm, if_pos earlier,
        ih fun entry member => below entry (List.mem_cons_of_mem _ member)]
      rfl

theorem entries_foldl_insert {rest : List (κ × ν)} (map : OrderedMap κ ν)
    (sorted : (map.entries ++ rest).Pairwise fun first second => Before first.1 second.1) :
    (rest.foldl (fun map pair => map.insert pair.1 pair.2) map).entries = map.entries ++ rest := by
  induction rest generalizing map with
  | nil => simp
  | cons head rest ih =>
      have added : (map.insert head.1 head.2).entries = map.entries ++ [head] :=
        alterEntries_of_above fun entry member =>
          (List.pairwise_append.1 sorted).2.2 entry member head List.mem_cons_self
      rw [List.foldl_cons, ih (map.insert head.1 head.2) (by simpa [added] using sorted), added]
      simp

/-- The entries of a map make the map. -/
theorem ofList_entries (map : OrderedMap κ ν) : ofList map.entries = map :=
  ext (entries_foldl_insert empty map.ascending)

/-! ## Order of updates -/

/-- Setting values at keys of different places, in either order. -/
theorem alterEntries_comm {first second : κ} (before : Before first second) (value other : ν)
    (list : List (κ × ν)) :
    alterEntries first (fun _ => some value) (alterEntries second (fun _ => some other) list) =
      alterEntries second (fun _ => some other) (alterEntries first (fun _ => some value) list) := by
  have after : ¬ Before second first := before.asymm
  induction list with
  | nil => simp [alterEntries, before, after]
  | cons head rest ih =>
      obtain ⟨key, old⟩ := head
      by_cases below : Before second key
      · have further := before.trans below
        simp [alterEntries, before, after, below, further]
      · by_cases above : Before key second
        · by_cases early : Before first key
          · simp [alterEntries, before, after, below, above, early]
          · by_cases late : Before key first
            · simp [alterEntries, below, above, early, late, ih]
            · simp [alterEntries, below, above, early, late]
        · -- The second key is listed, so the first one comes before it.
          have early : Before first key := by
            unfold Before at before ⊢
            rwa [rank_eq_of_not_before above below]
          simp [alterEntries, before, after, below, above, early]

theorem insert_comm (map : OrderedMap κ ν) {first second : κ}
    (different : rank first ≠ rank second) (value other : ν) :
    (map.insert first value).insert second other =
      (map.insert second other).insert first value := by
  apply ext
  by_cases before : Before first second
  · exact (alterEntries_comm before value other map.entries).symm
  · by_cases after : Before second first
    · exact alterEntries_comm after other value map.entries
    · exact absurd (rank_eq_of_not_before before after) different

/-- Pairs at keys of different places may be inserted in any order. -/
theorem foldl_insert_perm {first second : List (κ × ν)} (same : first.Perm second)
    (apart : first.Pairwise fun pair other => rank pair.1 ≠ rank other.1) (map : OrderedMap κ ν) :
    first.foldl (fun map pair => map.insert pair.1 pair.2) map =
      second.foldl (fun map pair => map.insert pair.1 pair.2) map := by
  induction same generalizing map with
  | nil => rfl
  | cons pair _ ih =>
      rw [List.foldl_cons, List.foldl_cons]
      exact ih (List.pairwise_cons.1 apart).2 _
  | swap pair other rest =>
      have different := (List.pairwise_cons.1 apart).1 pair List.mem_cons_self
      simp only [List.foldl_cons]
      rw [insert_comm map different]
  | trans left _ ihLeft ihRight =>
      have between := (left.pairwise_iff fun different => Ne.symm different).1 apart
      exact (ihLeft apart map).trans (ihRight between map)

/-! ## Rewriting values -/

/-- The map with every value rewritten. -/
def mapValues (change : κ → ν → μ) (map : OrderedMap κ ν) : OrderedMap κ μ :=
  ⟨map.entries.map fun entry => (entry.1, change entry.1 entry.2), by
    refine List.pairwise_map.2 ?_
    exact map.ascending⟩

theorem atPlace?_mapValues (map : OrderedMap κ ν) (change : ν → μ) (key : κ) :
    (map.mapValues fun _ => change).atPlace? key = (map.atPlace? key).map change := by
  unfold atPlace? mapValues
  dsimp only
  induction map.entries with
  | nil => rfl
  | cons head rest ih =>
      by_cases here : rank head.1 = rank key
      · rw [List.map_cons, lookupPlace, if_pos here, lookupPlace, if_pos here]
        rfl
      · rw [List.map_cons, lookupPlace, if_neg here, ih, lookupPlace, if_neg here]

end OrderedMap

/-- A set of keys in increasing order. -/
abbrev OrderedSet (κ : Type) [Ranked κ] := OrderedMap κ Unit

namespace OrderedSet

variable {κ : Type} [Ranked κ]

def ofList (keys : List κ) : OrderedSet κ :=
  OrderedMap.ofList (keys.map fun key => (key, ()))

def toList (set : OrderedSet κ) : List κ := set.keys

/-- A set holds what it is made of. -/
theorem mem_toList_ofList [LawfulRanked κ] [DecidableEq κ] (keys : List κ) (key : κ) :
    key ∈ (ofList keys).toList ↔ key ∈ keys := by
  rw [toList, ofList, OrderedMap.mem_keys_ofList, List.map_map]
  simp

/-- Lists with the same members make the same set. -/
theorem ofList_eq [LawfulRanked κ] [DecidableEq κ] {first second : List κ}
    (same : ∀ key, key ∈ first ↔ key ∈ second) : ofList first = ofList second := by
  have listed (keys : List κ) (key : κ) : ((ofList keys).get? key).isSome = true ↔ key ∈ keys :=
    OrderedMap.isSome_lookup_iff.trans (mem_toList_ofList keys key)
  apply OrderedMap.ext_get?
  intro key
  have both : ((ofList first).get? key).isSome = ((ofList second).get? key).isSome := by
    rw [Bool.eq_iff_iff, listed, listed, same]
  cases left : (ofList first).get? key <;> cases right : (ofList second).get? key <;>
    simp_all

theorem nodup_toList (set : OrderedSet κ) : set.toList.Nodup := OrderedMap.nodup_keys set

theorem length_toList (set : OrderedSet κ) : set.toList.length = set.size := List.length_map _

end OrderedSet

end UtxoLedger
