import UtxoLedger.MultiAsset

/-!
# Quantities in bundles

A bundle is seen through the quantity that it holds of each asset. Every
operation on bundles is the operation on quantities, asset by asset; a bundle
is empty exactly when it holds nothing of any asset.
-/

namespace UtxoLedger

/-! ## Entries of a key -/

namespace OrderedMap

open Ranked

variable {κ ν : Type} [Ranked κ] [LawfulRanked κ] [DecidableEq κ]

omit [LawfulRanked κ] in
/-- In key order there is one entry of a key at the most. -/
theorem filter_key (key : κ) {list : List (κ × ν)}
    (sorted : list.Pairwise fun first second => Before first.1 second.1) :
    list.filter (fun entry => decide (entry.1 = key)) =
      ((lookup key list).map fun value => (key, value)).toList := by
  induction list with
  | nil => rfl
  | cons head rest ih =>
      obtain ⟨other, value⟩ := head
      obtain ⟨above, tail⟩ := List.pairwise_cons.1 sorted
      by_cases same : key = other
      · subst same
        have gone : rest.filter (fun entry => decide (entry.1 = key)) = [] := by
          rw [ih tail, lookup_eq_none_of_before above]
          rfl
        simp [lookup, gone]
      · have different : ¬ other = key := fun equal => same equal.symm
        simp [lookup, same, different, ih tail]

end OrderedMap

namespace MultiAsset

/-! ## Entries of an asset -/

theorem get_eq_lookup (bundle : MultiAsset) (asset : Asset) :
    bundle.get asset =
      ((OrderedMap.lookup asset.policy bundle.policies.entries).bind fun group =>
        OrderedMap.lookup asset.name group.entries).getD 0 := rfl

/-- The entries of an asset in the group of its policy. -/
theorem filter_group (policy : PolicyId) (group : OrderedMap AssetName Int64) (asset : Asset) :
    (group.entries.map fun entry => ((⟨policy, entry.1⟩ : Asset), entry.2)).filter
        (fun entry => decide (entry.1 = asset)) =
      if policy = asset.policy then
        ((OrderedMap.lookup asset.name group.entries).map fun value => (asset, value)).toList
      else [] := by
  rw [List.filter_map]
  by_cases same : policy = asset.policy
  · have selects : ((fun entry : Asset × Int64 => decide (entry.1 = asset)) ∘
        fun entry : AssetName × Int64 => ((⟨policy, entry.1⟩ : Asset), entry.2)) =
        fun entry => decide (entry.1 = asset.name) := by
      funext entry
      cases asset
      simp_all
    rw [selects, OrderedMap.filter_key asset.name group.ascending, if_pos same]
    cases OrderedMap.lookup asset.name group.entries with
    | none => rfl
    | some value => simp [same]
  · have selects : ((fun entry : Asset × Int64 => decide (entry.1 = asset)) ∘
        fun entry : AssetName × Int64 => ((⟨policy, entry.1⟩ : Asset), entry.2)) =
        fun _ => false := by
      funext entry
      cases asset
      simp_all
    rw [selects, if_neg same]
    simp

theorem flatMap_if {α β : Type} (list : List α) (accepts : α → Bool) (make : α → List β) :
    (list.flatMap fun item => if accepts item then make item else []) =
      (list.filter accepts).flatMap make := by
  induction list with
  | nil => rfl
  | cons first rest ih => cases accepted : accepts first <;> simp [accepted, ih]

/-- A listed quantity is not zero. -/
theorem ne_zero_of_lookup {bundle : MultiAsset} {policy : PolicyId} {name : AssetName}
    {group : OrderedMap AssetName Int64} {quantity : Int64}
    (grouped : OrderedMap.lookup policy bundle.policies.entries = some group)
    (listed : OrderedMap.lookup name group.entries = some quantity) : quantity ≠ 0 :=
  (bundle.canonical (policy, group) (OrderedMap.mem_of_lookup grouped)).2 (name, quantity)
    (OrderedMap.mem_of_lookup listed)

/-- An asset is listed once when its quantity is not zero, and else not at all. -/
theorem filter_entries (bundle : MultiAsset) (asset : Asset) :
    bundle.entries.filter (fun entry => decide (entry.1 = asset)) =
      if bundle.get asset = 0 then [] else [(asset, bundle.get asset)] := by
  have grouped : bundle.entries.filter (fun entry => decide (entry.1 = asset)) =
      (bundle.policies.entries.filter fun group => decide (group.1 = asset.policy)).flatMap
        fun group => ((OrderedMap.lookup asset.name group.2.entries).map
          fun value => (asset, value)).toList := by
    rw [entries, List.filter_flatMap, ← flatMap_if]
    simp only [filter_group, decide_eq_true_eq]
  rw [grouped, OrderedMap.filter_key asset.policy bundle.policies.ascending, get_eq_lookup]
  cases found : OrderedMap.lookup asset.policy bundle.policies.entries with
  | none => simp
  | some group =>
      cases listed : OrderedMap.lookup asset.name group.entries with
      | none => simp [listed]
      | some quantity =>
          have present := ne_zero_of_lookup found listed
          simp [listed, present]

theorem mem_entries_iff (bundle : MultiAsset) (asset : Asset) (quantity : Int64) :
    (asset, quantity) ∈ bundle.entries ↔ bundle.get asset = quantity ∧ quantity ≠ 0 := by
  have listed : (asset, quantity) ∈ bundle.entries ↔
      (asset, quantity) ∈ bundle.entries.filter (fun entry => decide (entry.1 = asset)) := by
    simp
  rw [listed, filter_entries]
  by_cases absent : bundle.get asset = 0
  · simp only [absent, if_true, List.not_mem_nil, false_iff]
    exact fun found => found.2 found.1.symm
  · simp only [absent, if_false, List.mem_singleton, Prod.mk.injEq, true_and]
    exact ⟨fun same => ⟨same.symm, same ▸ absent⟩, fun found => found.1.symm⟩

/-- A bundle is empty exactly when it holds nothing of any asset. -/
theorem isEmpty_iff (bundle : MultiAsset) :
    bundle.isEmpty = true ↔ ∀ asset, bundle.get asset = 0 := by
  constructor
  · intro none asset
    have nothing : bundle.policies.entries = [] := by
      simpa [isEmpty, OrderedMap.isEmpty] using none
    simp [get_eq_lookup, nothing, OrderedMap.lookup]
  · intro zero
    cases groups : bundle.policies.entries with
    | nil => simp [isEmpty, OrderedMap.isEmpty, groups]
    | cons group rest =>
        obtain ⟨filled, nonzero⟩ :=
          bundle.canonical group (by rw [groups]; exact List.mem_cons_self)
        cases quantities : group.2.entries with
        | nil => exact absurd quantities filled
        | cons entry others =>
            have listed : ((⟨group.1, entry.1⟩ : Asset), entry.2) ∈ bundle.entries := by
              simp [entries, groups, quantities]
            obtain ⟨found, present⟩ := (mem_entries_iff bundle _ _).1 listed
            exact absurd (found.symm.trans (zero _)) present

/-- The quantities that are listed are those that are not zero. -/
theorem listed_eq (bundle : MultiAsset) (asset : Asset) :
    ((bundle.policies.get? asset.policy).bind (·.get? asset.name)) =
      if bundle.get asset = 0 then none else some (bundle.get asset) := by
  unfold get
  cases grouped : bundle.policies.get? asset.policy with
  | none => rfl
  | some group =>
      cases listed : group.get? asset.name with
      | none => simp [listed]
      | some quantity =>
          have present : quantity ≠ 0 := ne_zero_of_lookup grouped listed
          simp [listed, present]

/-- The group of a policy lists an asset. -/
theorem exists_listed {bundle : MultiAsset} {policy : PolicyId}
    {group : OrderedMap AssetName Int64} (grouped : bundle.policies.get? policy = some group) :
    ∃ name, group.get? name ≠ none := by
  have filled := (bundle.canonical (policy, group) (OrderedMap.mem_of_lookup grouped)).1
  obtain ⟨⟨name, quantity⟩, member⟩ := List.exists_mem_of_ne_nil _ filled
  have listed : group.get? name = some quantity := OrderedMap.lookup_of_mem group.ascending member
  exact ⟨name, by simp [listed]⟩

/-- Bundles with the same quantity of every asset are the same. -/
theorem ext_get {first second : MultiAsset} (same : ∀ asset, first.get asset = second.get asset) :
    first = second := by
  have listed (policy : PolicyId) (name : AssetName) :
      ((first.policies.get? policy).bind (·.get? name)) =
        ((second.policies.get? policy).bind (·.get? name)) := by
    have left := listed_eq first ⟨policy, name⟩
    have right := listed_eq second ⟨policy, name⟩
    rw [same] at left
    exact left.trans right.symm
  have policies : first.policies = second.policies := by
    apply OrderedMap.ext_get?
    intro policy
    cases left : first.policies.get? policy with
    | none =>
        cases right : second.policies.get? policy with
        | none => rfl
        | some group =>
            obtain ⟨name, present⟩ := exists_listed right
            exact absurd (by simpa [left, right] using (listed policy name).symm) present
    | some group =>
        cases right : second.policies.get? policy with
        | none =>
            obtain ⟨name, present⟩ := exists_listed left
            exact absurd (by simpa [left, right] using listed policy name) present
        | some other =>
            have equal : group = other := by
              apply OrderedMap.ext_get?
              intro name
              simpa [left, right] using listed policy name
            rw [equal]
  cases first
  cases second
  cases policies
  rfl

/-! ## Operations on quantities -/

theorem get_empty (asset : Asset) : empty.get asset = 0 := rfl

theorem getD_addQuantity (quantity : Int64) (found : Option Int64) :
    (addQuantity quantity found).getD 0 = (found.getD 0).saturatingAdd quantity := by
  unfold addQuantity
  by_cases cancelled : (found.getD 0).saturatingAdd quantity = 0 <;> simp [cancelled]

theorem lookup_addToGroup (name other : AssetName) (quantity : Int64)
    (found : Option (OrderedMap AssetName Int64)) :
    ((addToGroup name quantity found).bind (·.get? other)).getD 0 =
      if other = name then ((found.bind (·.get? name)).getD 0).saturatingAdd quantity
      else (found.bind (·.get? other)).getD 0 := by
  have inside : ((found.getD .empty).alter name (addQuantity quantity)).get? other =
      if other = name then addQuantity quantity (found.bind (·.get? name))
      else found.bind (·.get? other) := by
    rw [OrderedMap.get?_alter]
    cases found <;> simp
  have answer : ((addToGroup name quantity found).bind (·.get? other)) =
      ((found.getD .empty).alter name (addQuantity quantity)).get? other := by
    unfold addToGroup
    by_cases gone : ((found.getD .empty).alter name (addQuantity quantity)).isEmpty
    · have nothing : ((found.getD .empty).alter name (addQuantity quantity)).entries = [] := by
        simpa [OrderedMap.isEmpty] using gone
      simp [gone, OrderedMap.get?, nothing, OrderedMap.lookup]
    · simp [gone]
  rw [answer, inside]
  by_cases same : other = name
  · rw [if_pos same, if_pos same, getD_addQuantity]
  · rw [if_neg same, if_neg same]

theorem get_add (bundle : MultiAsset) (asset other : Asset) (quantity : Int64) :
    (bundle.add asset quantity).get other =
      if other = asset then (bundle.get asset).saturatingAdd quantity else bundle.get other := by
  unfold get add
  rw [OrderedMap.get?_alter]
  by_cases grouped : other.policy = asset.policy
  · rw [if_pos grouped, lookup_addToGroup, grouped]
    by_cases named : other.name = asset.name
    · have same : other = asset := by cases other; cases asset; simp_all
      rw [if_pos named, if_pos same]
    · rw [if_neg named, if_neg fun same => named (congrArg Asset.name same)]
  · rw [if_neg grouped, if_neg fun same => grouped (congrArg Asset.policy same)]

/-- Adding entries adds, to the quantity of an asset, the entries of that asset in turn. -/
theorem get_addAll (bundle : MultiAsset) (entries : List (Asset × Int64)) (asset : Asset) :
    (bundle.addAll entries).get asset =
      (entries.filter fun entry => decide (entry.1 = asset)).foldl
        (fun total entry => total.saturatingAdd entry.2) (bundle.get asset) := by
  induction entries generalizing bundle with
  | nil => rfl
  | cons first rest ih =>
      have step : (bundle.addAll (first :: rest)) = (bundle.add first.1 first.2).addAll rest := rfl
      rw [step, ih, get_add]
      by_cases same : first.1 = asset
      · rw [if_pos same.symm, List.filter_cons_of_pos (by simpa using same), List.foldl_cons, same]
      · rw [if_neg fun equal => same equal.symm, List.filter_cons_of_neg (by simpa using same)]

theorem get_plus (first second : MultiAsset) (asset : Asset) :
    (first + second).get asset = (first.get asset).saturatingAdd (second.get asset) := by
  change (first.addAll second.entries).get asset = _
  rw [get_addAll, filter_entries]
  by_cases absent : second.get asset = 0
  · rw [if_pos absent, absent, Int64.saturatingAdd_zero]
    rfl
  · rw [if_neg absent]
    rfl

/-- The entry of an asset among the negated ones. -/
theorem filter_negatedEntries (bundle : MultiAsset) (asset : Asset) :
    bundle.negatedEntries.filter (fun entry => decide (entry.1 = asset)) =
      if bundle.get asset = 0 then [] else [(asset, (bundle.get asset).saturatingNeg)] := by
  have moved : bundle.negatedEntries.filter (fun entry => decide (entry.1 = asset)) =
      (bundle.entries.filter fun entry => decide (entry.1 = asset)).map
        fun entry => (entry.1, entry.2.saturatingNeg) := by
    rw [negatedEntries, List.filter_map]
    rfl
  rw [moved, filter_entries]
  by_cases absent : bundle.get asset = 0 <;> simp [absent]

theorem get_sub (first second : MultiAsset) (asset : Asset) :
    (first - second).get asset =
      (first.get asset).saturatingAdd (second.get asset).saturatingNeg := by
  change (first.addAll second.negatedEntries).get asset = _
  rw [get_addAll, filter_negatedEntries]
  by_cases absent : second.get asset = 0
  · rw [if_pos absent, absent, Int64.saturatingNeg_zero, Int64.saturatingAdd_zero]
    rfl
  · rw [if_neg absent]
    rfl

theorem get_neg (bundle : MultiAsset) (asset : Asset) :
    (-bundle).get asset = (bundle.get asset).saturatingNeg := by
  change (empty.addAll bundle.negatedEntries).get asset = _
  rw [get_addAll, filter_negatedEntries, get_empty]
  by_cases absent : bundle.get asset = 0
  · rw [if_pos absent, absent, Int64.saturatingNeg_zero]
    rfl
  · rw [if_neg absent]
    exact Int64.zero_saturatingAdd _

theorem get_filter (bundle : MultiAsset) (accepts : Asset → Int64 → Bool) (asset : Asset) :
    (bundle.filter accepts).get asset =
      if accepts asset (bundle.get asset) then bundle.get asset else 0 := by
  have kept : (bundle.entries.filter fun entry => accepts entry.1 entry.2).filter
      (fun entry => decide (entry.1 = asset)) =
      (bundle.entries.filter fun entry => decide (entry.1 = asset)).filter
        fun entry => accepts entry.1 entry.2 := by
    simp only [List.filter_filter, Bool.and_comm]
  change (empty.addAll _).get asset = _
  rw [get_addAll, kept, filter_entries, get_empty]
  by_cases absent : bundle.get asset = 0
  · simp [absent]
  · by_cases accepted : accepts asset (bundle.get asset) = true
    · simp [absent, accepted, Int64.zero_saturatingAdd]
    · simp [absent, accepted]

/-! ## Reading -/

open Cbor in
/-- A bundle is read wherever the map of maps that it holds stands. -/
theorem run_decode_iff {cursor after : Cursor} {bundle : MultiAsset} :
    (decode : Decoder MultiAsset).run cursor = .ok (bundle, after) ↔
      (decode : Decoder (OrderedMap PolicyId (OrderedMap AssetName Int64))).run cursor =
        .ok (bundle.policies, after) := by
  constructor
  · intro read
    obtain ⟨start, between, here, read⟩ := Decoder.run_bind_eq_ok.1 read
    cases here
    obtain ⟨policies, behind, found, read⟩ := Decoder.run_bind_eq_ok.1 read
    split at read
    next => cases read
    next =>
      cases read
      exact found
  · intro found
    have sound := (fault?_eq_none_iff bundle.policies).2 bundle.canonical
    refine Decoder.run_bind_eq_ok.2 ⟨cursor.position, cursor, rfl, ?_⟩
    refine Decoder.run_bind_eq_ok.2 ⟨bundle.policies, after, found, ?_⟩
    split
    next reason fault => cases sound.symm.trans fault
    next => rfl

end MultiAsset

end UtxoLedger
