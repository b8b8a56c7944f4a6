import UtxoLedger.Proofs.Selection.Splits
import UtxoLedger.Proofs.Value.Order

/-!
# Selections cover their request

What a selection chooses holds the coin it is asked for, counted exactly, and
every asset as long as no chosen output holds a negative quantity. More
outputs never hold less.
-/

namespace UtxoLedger

namespace Utxo

/-! ## What outputs hold -/

/-- The coin of outputs, counted exactly. -/
def coinHeld (utxos : List Utxo) : Nat := coinTotal (utxos.map (·.output.amount.coin))

/-- The quantity of an asset in outputs, counted exactly. -/
def assetHeld (utxos : List Utxo) (asset : Asset) : Int :=
  (utxos.map (·.output.amount.quantity asset)).sum

/-- No output holds less than nothing of an asset. -/
def Nonnegative (utxos : List Utxo) : Prop :=
  ∀ utxo ∈ utxos, ∀ asset, 0 ≤ utxo.output.amount.quantity asset

theorem Nonnegative.of_append_left {first second : List Utxo}
    (all : Nonnegative (first ++ second)) : Nonnegative first :=
  fun utxo member => all utxo (List.mem_append_left _ member)

theorem Nonnegative.of_append_right {first second : List Utxo}
    (all : Nonnegative (first ++ second)) : Nonnegative second :=
  fun utxo member => all utxo (List.mem_append_right _ member)

theorem assetHeld_nonneg {utxos : List Utxo} (all : Nonnegative utxos) (asset : Asset) :
    0 ≤ assetHeld utxos asset := by
  refine List.sum_nonneg fun quantity member => ?_
  obtain ⟨utxo, inside, rfl⟩ := List.mem_map.1 member
  exact all utxo inside asset

theorem coinHeld_append (first second : List Utxo) :
    coinHeld (first ++ second) = coinHeld first + coinHeld second := by
  simp [coinHeld]

theorem assetHeld_append (first second : List Utxo) (asset : Asset) :
    assetHeld (first ++ second) asset = assetHeld first asset + assetHeld second asset := by
  simp [assetHeld]

theorem coinHeld_perm {first second : List Utxo} (same : first.Perm second) :
    coinHeld first = coinHeld second := by
  have words := same.map fun utxo => utxo.output.amount.coin
  exact (words.map UInt64.toNat).sum_nat

theorem assetHeld_perm {first second : List Utxo} (same : first.Perm second) (asset : Asset) :
    assetHeld first asset = assetHeld second asset := by
  have quantities := same.map fun utxo => utxo.output.amount.quantity asset
  exact quantities.foldr_eq' (fun first _ second _ rest => Int.add_left_comm second first rest) 0

/-- The sum of outputs holds their coin, or the largest word where that is less. -/
theorem coin_total_eq_min (utxos : List Utxo) :
    (total utxos).coin.toNat = min (coinHeld utxos) wordMax := by
  rw [total, Value.coin_sum_eq_min, List.map_map]
  rfl

/-- A sum that fits a word is exact. -/
theorem coin_total {utxos : List Utxo} (fits : coinHeld utxos < bound64) :
    (total utxos).coin.toNat = coinHeld utxos := by
  rw [coin_total_eq_min]
  exact Nat.min_eq_left (Nat.le_pred_of_lt fits)

/-- The sum of outputs holds what they hold of an asset, or the greatest word where that is
less. -/
theorem quantity_total_eq_min {utxos : List Utxo} (all : Nonnegative utxos) (asset : Asset) :
    (total utxos).quantity asset = min (assetHeld utxos asset) signedMax := by
  have held : ∀ value ∈ utxos.map (·.output.amount), 0 ≤ value.quantity asset := by
    intro value member
    obtain ⟨utxo, inside, rfl⟩ := List.mem_map.1 member
    exact all utxo inside asset
  rw [total, Value.quantity_sum_eq_min held, List.map_map]
  rfl

theorem quantity_total {utxos : List Utxo} {asset : Asset} (all : Nonnegative utxos)
    (fits : assetHeld utxos asset ≤ signedMax) :
    (total utxos).quantity asset = assetHeld utxos asset := by
  rw [quantity_total_eq_min all]
  exact Int.min_eq_left fits

/-- Outputs without negative quantities may be summed in any order. -/
theorem total_perm {first second : List Utxo} (same : first.Perm second)
    (all : Nonnegative first) : total first = total second := by
  unfold total Value.sum
  rw [List.foldl_map, List.foldl_map]
  apply same.foldl_eq'
  intro utxo listed other there start
  exact Value.add_right_comm start (all utxo listed) (all other there)

end Utxo

open Utxo

/-! ## Parts of what outputs hold -/

namespace RandomImprove.Part

/-- How much of a part outputs hold, counted exactly. -/
def heldBy (utxos : List Utxo) : Part → Int
  | coin => coinHeld utxos
  | asset name => assetHeld utxos name

/-- Coin, or any part when nothing negative is held. -/
def Countable (part : Part) (utxos : List Utxo) : Prop := part = .coin ∨ Nonnegative utxos

/-- The largest quantity of a part that a value holds. -/
def most : Part → Int
  | coin => wordMax
  | asset _ => signedMax

theorem quantity_le_most (part : Part) (value : Value) : part.quantity value ≤ part.most := by
  cases part with
  | coin => exact Int.ofNat_le.2 (Nat.le_pred_of_lt value.coin.toNat_lt)
  | asset name => exact (value.assets.get name).toInt_le_signedMax

/-- The sum of outputs holds what they hold of a part, or the largest word where that is less. -/
theorem quantity_total_eq_min {part : Part} {utxos : List Utxo}
    (countable : part.Countable utxos) :
    part.quantity (Utxo.total utxos) = min (part.heldBy utxos) part.most := by
  cases part with
  | coin =>
      change ((Utxo.total utxos).coin.toNat : Int) = min (coinHeld utxos : Int) (wordMax : Int)
      rw [coin_total_eq_min]
      omega
  | asset name =>
      rcases countable with coin | all
      · cases coin
      · exact Utxo.quantity_total_eq_min all name

theorem heldBy_append (part : Part) (first second : List Utxo) :
    part.heldBy (first ++ second) = part.heldBy first + part.heldBy second := by
  cases part with
  | coin => exact congrArg Int.ofNat (coinHeld_append first second)
  | asset name => exact assetHeld_append first second name

theorem heldBy_nonneg {part : Part} {utxos : List Utxo} (countable : part.Countable utxos) :
    0 ≤ part.heldBy utxos := by
  cases part with
  | coin => exact Int.natCast_nonneg _
  | asset name =>
      rcases countable with coin | all
      · cases coin
      · exact assetHeld_nonneg all name

theorem heldBy_mono (part : Part) {first second : List Utxo} (extended : first <+: second)
    (countable : part.Countable second) :
    part.Countable first ∧ part.heldBy first ≤ part.heldBy second := by
  obtain ⟨more, rfl⟩ := extended
  have added : part.Countable more := countable.imp_right Nonnegative.of_append_right
  have rest := heldBy_nonneg added
  refine ⟨countable.imp_right Nonnegative.of_append_left, ?_⟩
  rw [heldBy_append]
  omega

theorem atMost_iff {first second : Value} :
    first.atMost second = true ↔ ∀ part : Part, part.quantity first ≤ part.quantity second := by
  rw [Value.atMost_iff, UInt64.le_iff_toNat_le]
  constructor
  · rintro ⟨coin, assets⟩ part
    cases part with
    | coin => exact Int.ofNat_le.2 coin
    | asset name => exact Int64.le_iff_toInt_le.1 (assets name)
  · intro each
    exact ⟨Int.ofNat_le.1 (each .coin), fun name => Int64.le_iff_toInt_le.2 (each (.asset name))⟩

end RandomImprove.Part

namespace Utxo

open RandomImprove (Part)

/-- Outputs hold what is asked for. -/
structure Cover (utxos : List Utxo) (asked : Value) : Prop where
  coin : asked.coin.toNat ≤ coinHeld utxos
  assets : Nonnegative utxos → ∀ asset, asked.quantity asset ≤ assetHeld utxos asset

theorem cover_iff {utxos : List Utxo} {asked : Value} :
    Cover utxos asked ↔
      ∀ part : Part, part.Countable utxos → part.quantity asked ≤ part.heldBy utxos := by
  constructor
  · rintro ⟨coin, assets⟩ part countable
    cases part with
    | coin => exact Int.ofNat_le.2 coin
    | asset name =>
        rcases countable with coin | all
        · cases coin
        · exact assets all name
  · intro each
    exact ⟨Int.ofNat_le.1 (each .coin (.inl rfl)), fun all name => each (.asset name) (.inr all)⟩

theorem Cover.perm {first second : List Utxo} {asked : Value} (cover : Cover first asked)
    (same : first.Perm second) : Cover second asked where
  coin := coinHeld_perm same ▸ cover.coin
  assets all asset := by
    have nonnegative : Nonnegative first := fun utxo member => all utxo (same.subset member)
    rw [← assetHeld_perm same]
    exact cover.assets nonnegative asset

/-- More outputs hold as much. -/
theorem Cover.append {first : List Utxo} {asked : Value} (cover : Cover first asked)
    (second : List Utxo) : Cover (first ++ second) asked := by
  refine cover_iff.2 fun part countable => ?_
  obtain ⟨earlier, grows⟩ := part.heldBy_mono (List.prefix_append first second) countable
  exact Int.le_trans (cover_iff.1 cover part earlier) grows

theorem cover_of_atMost {asked : Value} {utxos : List Utxo}
    (reached : asked.atMost (total utxos) = true) : Cover utxos asked := by
  refine cover_iff.2 fun part countable => ?_
  have held := Part.atMost_iff.1 reached part
  rw [Part.quantity_total_eq_min countable] at held
  exact Int.le_trans held (Int.min_le_left _ _)

/-- A sum that saturates still holds whatever can be asked for. -/
theorem atMost_total_iff {asked : Value} {utxos : List Utxo} (all : Nonnegative utxos) :
    asked.atMost (total utxos) = true ↔ Cover utxos asked := by
  refine ⟨cover_of_atMost, fun cover => Part.atMost_iff.2 fun part => ?_⟩
  rw [Part.quantity_total_eq_min (.inr all)]
  exact Int.le_min.2 ⟨cover_iff.1 cover part (.inr all), part.quantity_le_most asked⟩

end Utxo

/-! ## Largest first -/

theorem LargestFirst.pick_covers {request : SelectionRequest} {asked : Value} {pool : List Utxo}
    {made : Pick} (done : pick request asked pool = .ok made) : Cover made.chosen asked := by
  obtain ⟨_, reached⟩ := take_keeps (fun _ => True) (fun _ _ => trivial) trivial (pick_eq_ok done).1
  exact cover_of_atMost reached

/-! ## Random selection -/

namespace RandomImprove

/-- Choosing only adds to what is chosen. -/
theorem keptByChoosing_extends (request : SelectionRequest) (base : List Utxo) :
    KeptByChoosing request (base <+: ·.chosen) :=
  fun extended _ _ => extended.trans (List.prefix_append _ _)

variable {request : SelectionRequest}

/-- What meets a demand is kept by the later ones. -/
theorem gatherAll_meets {demands : List Demand} {pick next : Pick} {draws left : Draws}
    (done : gatherAll request demands pick draws = (.ok next, left)) :
    ∀ demand ∈ demands, demand.part.Countable next.chosen →
      demand.quantity ≤ demand.part.heldBy next.chosen := by
  induction demands generalizing pick draws with
  | nil => exact fun _ none => absurd none List.not_mem_nil
  | cons first later ih =>
      unfold gatherAll at done
      cases gathered : gather request first pick draws with
      | mk result rest =>
          cases result with
          | error error => simp [gathered] at done
          | ok met =>
              simp only [gathered] at done
              have extended : met.chosen <+: next.chosen :=
                gatherAll_keeps (keptByChoosing_extends request _) (List.prefix_refl _) done
              intro demand member countable
              rcases List.mem_cons.1 member with rfl | further
              · have enough := (gather_keeps (keptByChoosing_extends request pick.chosen)
                  (List.prefix_refl _) gathered).2
                obtain ⟨earlier, grows⟩ := Part.heldBy_mono _ extended countable
                have held : demand.quantity ≤ demand.part.quantity (Utxo.total met.chosen) := enough
                rw [Part.quantity_total_eq_min earlier] at held
                exact Int.le_trans held (Int.le_trans (Int.min_le_left _ _) grows)
              · exact ih done demand further countable

/-- The positive parts of a total are demanded. -/
theorem Demand.mem_ofTotal_iff {demand : Demand} {asked : Value} :
    demand ∈ Demand.ofTotal asked ↔
      0 < demand.quantity ∧ demand.quantity = demand.part.quantity asked := by
  obtain ⟨part, quantity⟩ := demand
  unfold Demand.ofTotal
  simp only [(List.mergeSort_perm _ _).mem_iff, List.mem_append, List.mem_filterMap]
  cases part with
  | coin =>
      have zero : asked.coin = 0 ↔ asked.coin.toNat = 0 := UInt64.toNat_inj.symm
      change _ ↔ 0 < quantity ∧ quantity = (asked.coin.toNat : Int)
      constructor
      · rintro (listed | ⟨_, _, made⟩)
        · split at listed
          · cases listed
          next some =>
            obtain rfl : quantity = asked.coin.toNat := by simpa using listed
            rw [zero] at some
            omega
        · split at made <;> simp at made
      · rintro ⟨positive, rfl⟩
        have some : ¬ asked.coin = 0 := by rw [zero]; omega
        exact .inl (by simp [some])
  | asset name =>
      change _ ↔ 0 < quantity ∧ quantity = asked.quantity name
      constructor
      · rintro (listed | ⟨⟨other, held⟩, listed, made⟩)
        · split at listed <;> simp at listed
        · obtain ⟨rfl, _⟩ := (MultiAsset.mem_entries_iff asked.assets other held).1 listed
          split at made
          next positive =>
            obtain ⟨rfl, rfl⟩ : other = name ∧ _ = quantity := by simpa using made
            exact ⟨Int64.lt_iff_toInt_lt.1 positive, rfl⟩
          · cases made
      · rintro ⟨positive, rfl⟩
        have above : 0 < asked.assets.get name := Int64.lt_iff_toInt_lt.2 positive
        have present : asked.assets.get name ≠ 0 := fun zero => by
          rw [zero] at above
          exact absurd above (by decide)
        have listed := (MultiAsset.mem_entries_iff asked.assets name _).2 ⟨rfl, present⟩
        exact .inr ⟨_, listed, by simp only [if_pos above]; rfl⟩

theorem pick_covers {maxRounds : Option Nat} {asked : Value} {pool : List Utxo}
    {draws left : Draws} {made : Pick}
    (done : pick maxRounds request asked pool draws = (.ok made, left)) :
    Cover made.chosen asked := by
  obtain ⟨covering, rest, rounds, gathered, rfl⟩ := pick_eq_ok done
  have extended : covering.chosen <+:
      (improveAll request (Demand.ofTotal asked).reverse ⟨covering, rounds⟩ rest).1.pick.chosen :=
    improveAll_keeps (keptByChoosing_extends request _) (List.prefix_refl _)
  refine cover_iff.2 fun part countable => ?_
  by_cases positive : 0 < part.quantity asked
  · obtain ⟨earlier, grows⟩ := part.heldBy_mono extended countable
    have demanded : ⟨part, part.quantity asked⟩ ∈ Demand.ofTotal asked :=
      Demand.mem_ofTotal_iff.2 ⟨positive, rfl⟩
    exact Int.le_trans (gatherAll_meets gathered _ demanded earlier) grows
  · have held := Part.heldBy_nonneg countable
    omega

end RandomImprove

/-! ## Selectors -/

namespace Selector

theorem pick_covers {selector next : Selector} {request : SelectionRequest} {asked : Value}
    {pool : List Utxo} {made : Pick}
    (done : selector.pick request asked pool = (.ok made, next)) : Cover made.chosen asked := by
  rcases pick_eq_ok done with taken | ⟨_, _, _, drawn⟩
  · exact LargestFirst.pick_covers taken
  · exact RandomImprove.pick_covers drawn

theorem cover_ofPick {request : SelectionRequest} {asked : Value} {pick : Pick}
    (cover : Cover pick.chosen asked) : Cover (Selection.ofPick request asked pick).selected asked :=
  cover.perm (Ranked.sort_perm pick.chosen).symm

theorem Chooses.covers {selector : Selector} {parameters : ProtocolParameters}
    {request : SelectionRequest} {pool : List Utxo} {made : Pick}
    (chooses : Chooses parameters request pool selector made) :
    Cover made.chosen (request.total parameters) := by
  cases chooses with
  | alone picked => exact pick_covers picked
  | toppedUp picked further room => exact (pick_covers picked).append _

/-- What is selected holds the total of the request. -/
theorem select_covers {selector next : Selector} {parameters : ProtocolParameters}
    {request : SelectionRequest} {pool : List Utxo} {selection : Selection}
    (done : selector.select parameters request pool = (.ok selection, next)) :
    Cover selection.selected (request.total parameters) := by
  obtain ⟨made, chooses, rfl⟩ := select_eq_ok done
  exact cover_ofPick chooses.covers

end Selector

end UtxoLedger
