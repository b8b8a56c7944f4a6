import UtxoLedger.Proofs.Outcome
import UtxoLedger.Proofs.Value.Sums

/-!
# Bundles made by operations

Bundles are made by adding and collecting quantities, by sums, differences and
opposites of bundles, by leaving out entries and by reading bytes. An
expression is a tree of such operations. It is evaluated to a bundle, and it
also has a meaning without bundles: a quantity of every asset, where each
operation acts on the quantities of one asset alone. The bundle that an
expression makes lists exactly the quantities that are not zero, so bundles
with the same quantities are the same, however they were made.
-/

namespace UtxoLedger.MultiAsset

open Cbor

/-- The number nearest to an integer in the range of signed words. -/
def clamp (number : Int) : Int := max signedMin (min number signedMax)

/-- A way to make a bundle. -/
inductive Expression where
  | empty
  | added (bundle : Expression) (asset : Asset) (quantity : Int64)
  | collected (entries : List (Asset × Int64))
  | sum (first second : Expression)
  | difference (first second : Expression)
  | opposite (bundle : Expression)
  | filtered (accepts : Asset → Int64 → Bool) (bundle : Expression)
  | positive (bundle : Expression)
  | negative (bundle : Expression)
  /-- The bundle that stands at a place of some bytes. -/
  | decoded (cursor : Cursor)

namespace Expression

/-- The bundle that an expression makes. There is none when bytes cannot be read. -/
def evaluate? : Expression → Option MultiAsset
  | empty => some .empty
  | added bundle asset quantity => bundle.evaluate?.map (·.add asset quantity)
  | collected entries => some (.ofEntries entries)
  | sum first second =>
      first.evaluate?.bind fun left => second.evaluate?.map fun right => left + right
  | difference first second =>
      first.evaluate?.bind fun left => second.evaluate?.map fun right => left - right
  | opposite bundle => bundle.evaluate?.map fun made => -made
  | filtered accepts bundle => bundle.evaluate?.map (·.filter accepts)
  | positive bundle => bundle.evaluate?.map (·.positive)
  | negative bundle => bundle.evaluate?.map (·.negative)
  | decoded cursor => ((decode : Decoder MultiAsset).run cursor).toOption.map Prod.fst

/-- What a map of maps lists for an asset, zero when it lists nothing. -/
def listed (policies : OrderedMap PolicyId (OrderedMap AssetName Int64)) (asset : Asset) : Int :=
  (((policies.get? asset.policy).bind (·.get? asset.name)).getD 0).toInt

/-- The quantity of an asset that an expression means. -/
def quantity : Expression → Asset → Int
  | empty, _ => 0
  | added bundle asset amount, other =>
      if other = asset then clamp (bundle.quantity asset + amount.toInt) else bundle.quantity other
  | collected entries, asset =>
      (entries.filter fun entry => decide (entry.1 = asset)).foldl
        (fun total entry => clamp (total + entry.2.toInt)) 0
  | sum first second, asset => clamp (first.quantity asset + second.quantity asset)
  | difference first second, asset =>
      clamp (first.quantity asset + clamp (-second.quantity asset))
  | opposite bundle, asset => clamp (-bundle.quantity asset)
  | filtered accepts bundle, asset =>
      if accepts asset (Int64.ofInt (bundle.quantity asset)) then bundle.quantity asset else 0
  | positive bundle, asset => max (bundle.quantity asset) 0
  | negative bundle, asset => min (bundle.quantity asset) 0
  | decoded cursor, asset =>
      match (decode : Decoder (OrderedMap PolicyId (OrderedMap AssetName Int64))).run cursor with
      | .ok (policies, _) => listed policies asset
      | .error _ => 0

end Expression

/-! ## Quantities after an operation -/

theorem quantity_add (bundle : MultiAsset) (asset other : Asset) (amount : Int64) :
    (bundle.add asset amount).quantity other =
      if other = asset then clamp (bundle.quantity asset + amount.toInt)
      else bundle.quantity other := by
  unfold quantity
  rw [get_add]
  by_cases same : other = asset
  · rw [if_pos same, if_pos same]
    exact Int64.toInt_saturatingAdd _ _
  · rw [if_neg same, if_neg same]

/-- The entries of an asset are added up one after the other. -/
theorem quantity_ofEntries (entries : List (Asset × Int64)) (asset : Asset) :
    (ofEntries entries).quantity asset =
      (entries.filter fun entry => decide (entry.1 = asset)).foldl
        (fun total entry => clamp (total + entry.2.toInt)) 0 := by
  unfold quantity ofEntries
  rw [get_addAll, get_empty]
  exact (List.foldl_hom Int64.toInt fun total entry =>
    (Int64.toInt_saturatingAdd total entry.2).symm).symm

theorem quantity_plus_eq_clamp (first second : MultiAsset) (asset : Asset) :
    (first + second).quantity asset = clamp (first.quantity asset + second.quantity asset) := by
  unfold quantity
  rw [get_plus]
  exact Int64.toInt_saturatingAdd _ _

theorem quantity_neg_eq_clamp (bundle : MultiAsset) (asset : Asset) :
    (-bundle).quantity asset = clamp (-bundle.quantity asset) := by
  unfold quantity
  rw [get_neg]
  exact Int64.toInt_saturatingNeg _

/-- The opposite quantity is clamped before it is added. -/
theorem quantity_sub_eq_clamp (first second : MultiAsset) (asset : Asset) :
    (first - second).quantity asset =
      clamp (first.quantity asset + clamp (-second.quantity asset)) := by
  unfold quantity
  rw [get_sub, ← show (second.get asset).saturatingNeg.toInt = clamp (-(second.get asset).toInt)
    from Int64.toInt_saturatingNeg _]
  exact Int64.toInt_saturatingAdd _ _

namespace Expression

/-- A made bundle holds the quantities that its expression means. -/
theorem quantity_of_evaluate? {expression : Expression} {bundle : MultiAsset}
    (made : expression.evaluate? = some bundle) (asset : Asset) :
    bundle.quantity asset = expression.quantity asset := by
  induction expression generalizing bundle asset with
  | empty =>
      cases made
      rfl
  | added inner other amount ih =>
      obtain ⟨before, evaluated, rfl⟩ := Option.map_eq_some_iff.1 made
      rw [quantity_add, ih evaluated, ih evaluated]
      rfl
  | collected entries =>
      cases made
      exact quantity_ofEntries entries asset
  | sum first second ihFirst ihSecond =>
      obtain ⟨left, evaluated, made⟩ := Option.bind_eq_some_iff.1 made
      obtain ⟨right, alsoEvaluated, rfl⟩ := Option.map_eq_some_iff.1 made
      rw [quantity_plus_eq_clamp, ihFirst evaluated, ihSecond alsoEvaluated]
      rfl
  | difference first second ihFirst ihSecond =>
      obtain ⟨left, evaluated, made⟩ := Option.bind_eq_some_iff.1 made
      obtain ⟨right, alsoEvaluated, rfl⟩ := Option.map_eq_some_iff.1 made
      rw [quantity_sub_eq_clamp, ihFirst evaluated, ihSecond alsoEvaluated]
      rfl
  | opposite inner ih =>
      obtain ⟨before, evaluated, rfl⟩ := Option.map_eq_some_iff.1 made
      rw [quantity_neg_eq_clamp, ih evaluated]
      rfl
  | filtered accepts inner ih =>
      obtain ⟨before, evaluated, rfl⟩ := Option.map_eq_some_iff.1 made
      have word : before.get asset = Int64.ofInt (inner.quantity asset) := by
        rw [← ih evaluated]
        exact (Int64.ofInt_toInt _).symm
      rw [MultiAsset.quantity_filter, word, ih evaluated]
      rfl
  | positive inner ih =>
      obtain ⟨before, evaluated, rfl⟩ := Option.map_eq_some_iff.1 made
      rw [quantity_positive, ih evaluated]
      rfl
  | negative inner ih =>
      obtain ⟨before, evaluated, rfl⟩ := Option.map_eq_some_iff.1 made
      rw [quantity_negative, ih evaluated]
      rfl
  | decoded cursor =>
      obtain ⟨⟨found, after⟩, read, rfl⟩ := Option.map_eq_some_iff.1 made
      have policies := run_decode_iff.1 (Except.toOption_eq_some.1 read)
      unfold quantity
      rw [policies]
      rfl

end Expression

/-! ## Storing quantities -/

/-- A policy is stored when it has an asset of a quantity that is not zero. -/
theorem mem_policies_iff (bundle : MultiAsset) (policy : PolicyId) :
    policy ∈ bundle.policies.keys ↔ ∃ name, bundle.get ⟨policy, name⟩ ≠ 0 := by
  unfold OrderedMap.keys
  rw [← OrderedMap.isSome_lookup_iff, Option.isSome_iff_exists]
  constructor
  · rintro ⟨group, grouped⟩
    have kept : bundle.policies.get? policy = some group := grouped
    obtain ⟨name, present⟩ := exists_listed kept
    refine ⟨name, fun zero => present ?_⟩
    have listed := listed_eq bundle ⟨policy, name⟩
    rw [if_pos zero] at listed
    change (OrderedMap.lookup policy bundle.policies.entries).bind _ = none at listed
    rwa [grouped] at listed
  · rintro ⟨name, present⟩
    cases grouped : OrderedMap.lookup policy bundle.policies.entries with
    | none => exact absurd (by simp [get_eq_lookup, grouped]) present
    | some group => exact ⟨group, rfl⟩

/-- A bundle that stores the quantities that are not zero, and nothing else. -/
structure Stores (bundle : MultiAsset) (held : Asset → Int) : Prop where
  exact : ∀ asset, (bundle.get asset).toInt = held asset
  filled : ∀ group ∈ bundle.policies.entries, group.2.entries ≠ []
  nonzero : ∀ group ∈ bundle.policies.entries, ∀ entry ∈ group.2.entries, entry.2 ≠ 0
  listed : ∀ asset quantity,
    (asset, quantity) ∈ bundle.entries ↔ quantity.toInt = held asset ∧ held asset ≠ 0
  policies : ∀ policy, policy ∈ bundle.policies.keys ↔ ∃ name, held ⟨policy, name⟩ ≠ 0

theorem stores_quantity (bundle : MultiAsset) : bundle.Stores bundle.quantity where
  exact _ := rfl
  filled group member := (bundle.canonical group member).1
  nonzero group member := (bundle.canonical group member).2
  listed asset quantity := by
    rw [mem_entries_iff]
    constructor
    · rintro ⟨rfl, present⟩
      exact ⟨rfl, fun zero => present (Int64.toInt_inj.1 zero)⟩
    · rintro ⟨same, present⟩
      obtain rfl := Int64.toInt_inj.1 same
      exact ⟨rfl, fun zero => present (congrArg Int64.toInt zero)⟩
  policies policy := by
    rw [mem_policies_iff]
    exact exists_congr fun name => not_congr Int64.toInt_inj.symm

namespace Expression

/-- Every bundle that is made stores the quantities that its expression means and is told by
them, and sums are clamped sums of quantities. -/
theorem bundles_pointwise {expression other : Expression} {first second : MultiAsset}
    (made : expression.evaluate? = some first) (alsoMade : other.evaluate? = some second) :
    first.Stores expression.quantity ∧
      (first = second ↔ ∀ asset, first.get asset = second.get asset) ∧
      (first = second ↔ ∀ asset, expression.quantity asset = other.quantity asset) ∧
      ∀ asset, ((first + second).get asset).toInt =
        clamp ((first.get asset).toInt + (second.get asset).toInt) := by
  have means : first.quantity = expression.quantity := funext (quantity_of_evaluate? made)
  have alsoMeans : second.quantity = other.quantity := funext (quantity_of_evaluate? alsoMade)
  have told : first = second ↔ ∀ asset, first.get asset = second.get asset :=
    ⟨fun same _ => same ▸ rfl, ext_get⟩
  refine ⟨means ▸ stores_quantity first, told, ?_, quantity_plus_eq_clamp first second⟩
  rw [told, ← means, ← alsoMeans]
  exact forall_congr' fun asset => Int64.toInt_inj.symm

/-! ### A bundle made in two ways -/

namespace Sample

def asset : Asset := ⟨⟨.replicate 28 1⟩, .empty⟩

def other : Asset := ⟨⟨.replicate 28 2⟩, .empty⟩

/-- Five of the asset, in a map of one policy. -/
def bytes : Bytes := [0xa1, 0x58, 0x1c] ++ List.replicate 28 1 ++ [0xa1, 0x40, 5]

/-- What is read, with quantities that cancel. -/
def rejoined : Expression :=
  .difference (.sum (.decoded ⟨bytes, 0⟩) (.collected [(asset, 2), (other, 7)]))
    (.added .empty other 7)

/-- The sum stops at the largest word before it is lowered. -/
def lowered : Expression :=
  .added (.added (.added .empty asset 9223372036854775807) asset 5) asset (-9223372036854775800)

end Sample

theorem bundles_pointwise_rejoined :
    Sample.rejoined.evaluate? = some (MultiAsset.empty.add Sample.asset 7) ∧
      Sample.lowered.evaluate? = some (MultiAsset.empty.add Sample.asset 7) ∧
      (MultiAsset.empty.add Sample.asset 7).Stores Sample.rejoined.quantity ∧
      ∀ asset, Sample.rejoined.quantity asset = Sample.lowered.quantity asset := by
  have made : Sample.rejoined.evaluate? = some (MultiAsset.empty.add Sample.asset 7) := by
    decide +kernel
  have alsoMade : Sample.lowered.evaluate? = some (MultiAsset.empty.add Sample.asset 7) := by
    decide +kernel
  obtain ⟨stores, _, told, _⟩ := bundles_pointwise made alsoMade
  exact ⟨made, alsoMade, stores, told.1 rfl⟩

end Expression

end UtxoLedger.MultiAsset
