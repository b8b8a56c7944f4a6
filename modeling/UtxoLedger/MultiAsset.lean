import UtxoLedger.AssetName
import UtxoLedger.Saturating

/-!
# Bundles of assets

A bundle holds a signed quantity of each asset, grouped by policy. Absent
assets count as zero, and the operations keep bundles canonical: no quantity
is zero and no policy is without assets. Sums stop at the ends of the signed
64-bit range.
-/

namespace UtxoLedger

/-- The hash of the script that controls an asset. -/
abbrev PolicyId := Hash 28

/-- An asset is a name under a policy. -/
structure Asset where
  policy : PolicyId
  name : AssetName
  deriving DecidableEq

/-- No quantity is zero and no policy is without assets. -/
def IsCanonical (policies : OrderedMap PolicyId (OrderedMap AssetName Int64)) : Prop :=
  ∀ group ∈ policies.entries, group.2.entries ≠ [] ∧ ∀ entry ∈ group.2.entries, entry.2 ≠ 0

/-- Quantities of assets by policy and name. -/
structure MultiAsset where
  policies : OrderedMap PolicyId (OrderedMap AssetName Int64)
  canonical : IsCanonical policies
  deriving DecidableEq

namespace MultiAsset

def empty : MultiAsset := ⟨.empty, nofun⟩

instance : Inhabited MultiAsset := ⟨empty⟩

def isEmpty (bundle : MultiAsset) : Bool := bundle.policies.isEmpty

/-! ## Content -/

/-- The quantity of an asset, zero when it is absent. -/
def get (bundle : MultiAsset) (asset : Asset) : Int64 :=
  ((bundle.policies.get? asset.policy).bind (·.get? asset.name)).getD 0

/-- The assets and their quantities, by policy and name. -/
def entries (bundle : MultiAsset) : List (Asset × Int64) :=
  bundle.policies.entries.flatMap fun group =>
    group.2.entries.map fun entry => (⟨group.1, entry.1⟩, entry.2)

def policyCount (bundle : MultiAsset) : Nat := bundle.policies.size

def assetCount (bundle : MultiAsset) : Nat := bundle.entries.length

/-! ## Sums -/

/-- Adds a quantity to one that may be absent; a sum of zero is absent. -/
def addQuantity (quantity : Int64) (found : Option Int64) : Option Int64 :=
  let total := (found.getD 0).saturatingAdd quantity
  if total = 0 then none else some total

/-- Adds a quantity of a name to a group that may be absent; an empty group is absent. -/
def addToGroup (name : AssetName) (quantity : Int64)
    (found : Option (OrderedMap AssetName Int64)) : Option (OrderedMap AssetName Int64) :=
  let group := (found.getD .empty).alter name (addQuantity quantity)
  if group.isEmpty then none else some group

theorem addQuantity_ne_zero {quantity total : Int64} {found : Option Int64}
    (made : addQuantity quantity found = some total) : total ≠ 0 := by
  unfold addQuantity at made
  by_cases cancelled : (found.getD 0).saturatingAdd quantity = 0
  · simp [cancelled] at made
  · simp only [cancelled, if_false, Option.some.injEq] at made
    exact made ▸ cancelled

/-- A group that results from an addition has quantities, and none of them is zero. -/
theorem addToGroup_canonical {name : AssetName} {quantity : Int64}
    {found : Option (OrderedMap AssetName Int64)} {group : OrderedMap AssetName Int64}
    (old : ∀ entries, found = some entries → ∀ entry ∈ entries.entries, entry.2 ≠ 0)
    (made : addToGroup name quantity found = some group) :
    group.entries ≠ [] ∧ ∀ entry ∈ group.entries, entry.2 ≠ 0 := by
  unfold addToGroup at made
  by_cases gone : ((found.getD .empty).alter name (addQuantity quantity)).isEmpty
  · simp [gone] at made
  · simp only [gone, if_false, Option.some.injEq, Bool.false_eq_true] at made
    subst made
    refine ⟨fun none => gone (by simp [OrderedMap.isEmpty, none]), fun entry member => ?_⟩
    rcases OrderedMap.value_of_mem_alterEntries member with listed | ⟨_, _, made⟩
    · cases found with
      | none => simp [OrderedMap.empty] at listed
      | some entries => exact old entries rfl entry listed
    · exact addQuantity_ne_zero made

theorem alter_canonical {policies : OrderedMap PolicyId (OrderedMap AssetName Int64)}
    (canonical : IsCanonical policies) (asset : Asset) (quantity : Int64) :
    IsCanonical (policies.alter asset.policy (addToGroup asset.name quantity)) := by
  intro group member
  rcases OrderedMap.value_of_mem_alterEntries member with listed | ⟨found, sound, made⟩
  · exact canonical group listed
  · refine addToGroup_canonical (fun entries same => ?_) made
    obtain ⟨policy, listed⟩ := sound entries same
    exact (canonical (policy, entries) listed).2

/-- Adds a quantity of an asset. -/
def add (bundle : MultiAsset) (asset : Asset) (quantity : Int64) : MultiAsset :=
  ⟨bundle.policies.alter asset.policy (addToGroup asset.name quantity),
    alter_canonical bundle.canonical asset quantity⟩

/-- Adds quantities one after the other. -/
def addAll (bundle : MultiAsset) (entries : List (Asset × Int64)) : MultiAsset :=
  entries.foldl (fun total entry => total.add entry.1 entry.2) bundle

def ofEntries (entries : List (Asset × Int64)) : MultiAsset := empty.addAll entries

/-- The quantities with the opposite sign. -/
def negatedEntries (bundle : MultiAsset) : List (Asset × Int64) :=
  bundle.entries.map fun entry => (entry.1, entry.2.saturatingNeg)

instance : Add MultiAsset := ⟨fun first second => first.addAll second.entries⟩

instance : Sub MultiAsset := ⟨fun first second => first.addAll second.negatedEntries⟩

instance : Neg MultiAsset := ⟨fun bundle => ofEntries bundle.negatedEntries⟩

/-! ## Parts -/

/-- The entries that a condition accepts. -/
def filter (accepts : Asset → Int64 → Bool) (bundle : MultiAsset) : MultiAsset :=
  ofEntries (bundle.entries.filter fun entry => accepts entry.1 entry.2)

/-- The entries above zero. -/
def positive (bundle : MultiAsset) : MultiAsset := bundle.filter fun _ quantity => 0 < quantity

/-- The entries below zero. -/
def negative (bundle : MultiAsset) : MultiAsset := bundle.filter fun _ quantity => quantity < 0

/-! ## Order -/

/-- There is at least as much of every asset in the first bundle as in the second. -/
def covers (first second : MultiAsset) : Bool :=
  second.entries.all (fun entry => entry.2 ≤ first.get entry.1) &&
    first.entries.all (fun entry => second.get entry.1 ≤ entry.2)

/-! ## Text and wire form -/

/-- The quantities of a policy between braces. -/
def groupText (group : OrderedMap AssetName Int64) : String :=
  let parts := group.entries.map fun entry => s!"{entry.1.debug}: {entry.2}"
  "\x7b" ++ ", ".intercalate parts ++ "\x7d"

def debug (bundle : MultiAsset) : String :=
  let parts := bundle.policies.entries.map fun group =>
    s!"\"{group.1.text}\": {groupText group.2}"
  "\x7b" ++ ", ".intercalate parts ++ "\x7d"

/-- Why a map of maps is not canonical, at its first fault. -/
def fault? : List (PolicyId × OrderedMap AssetName Int64) → Option String
  | [] => none
  | (policy, group) :: rest =>
      if group.isEmpty then some s!"policy {policy.text} has no assets"
      else
        match group.entries.find? (·.2 = 0) with
        | some entry => some s!"asset {policy.text}.{entry.1.hex} has a zero quantity"
        | none => fault? rest

theorem fault?_eq_none_iff (policies : OrderedMap PolicyId (OrderedMap AssetName Int64)) :
    fault? policies.entries = none ↔ IsCanonical policies := by
  unfold IsCanonical
  induction policies.entries with
  | nil => simp [fault?]
  | cons head rest ih =>
      obtain ⟨policy, group⟩ := head
      cases entries : group.entries with
      | nil => simp [fault?, OrderedMap.isEmpty, entries]
      | cons first others =>
          rw [List.forall_mem_cons, ← ih, fault?]
          simp only [OrderedMap.isEmpty, entries, List.isEmpty_cons, Bool.false_eq_true, if_false]
          cases zero : List.find? (fun entry => decide (entry.2 = 0)) (first :: others) with
          | none =>
              have clean := List.find?_eq_none.1 zero
              simp only [decide_eq_true_eq] at clean
              simpa using fun _ => clean
          | some entry =>
              have member := List.mem_of_find?_eq_some zero
              have cancelled : entry.2 = 0 := by simpa using List.find?_some zero
              simp only [reduceCtorEq, ne_eq, not_false_eq_true, true_and, false_iff, not_and]
              intro clean
              exact absurd cancelled (clean entry member)

instance : Cbor.Codec MultiAsset where
  encode bundle := Cbor.encode bundle.policies
  decode := do
    let start ← Cbor.Decoder.position
    let policies ← Cbor.decode
    match fault : fault? policies.entries with
    | some reason => Cbor.Decoder.failAt start (.rejected reason)
    | none => return ⟨policies, (fault?_eq_none_iff policies).1 fault⟩

end MultiAsset

end UtxoLedger
