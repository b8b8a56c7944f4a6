import Mathlib.Data.List.Nodup
import UtxoLedger.Proofs.Selection.Coverage

/-!
# Selections answer their request

Whatever strategy selects, whatever it draws and whether or not it tops up
for the change: it spends outputs of the pool, each of them once, and keeps
the others in the order of the pool; it lists what it spends by name, within
the number of inputs that is allowed; what it spends covers the total; and
the change it states is what is left of it.
-/

namespace UtxoLedger

open Utxo

/-! ## Room for inputs and the order of the rest -/

/-- A pick within the number of inputs that is allowed, with its rest in the order of the pool. -/
structure Pick.Respects (pick : Pick) (request : SelectionRequest) (pool : List Utxo) : Prop where
  room : request.Allows pick.chosen.length
  ordered : pick.rest.Sublist pool

theorem Pick.respects_start (request : SelectionRequest) (pool : List Utxo) :
    (Pick.start pool).Respects request pool :=
  ⟨fun most _ => Nat.zero_le most, List.Sublist.refl pool⟩

theorem LargestFirst.pick_respects {request : SelectionRequest} {total : Value}
    {pool : List Utxo} {made : Pick} (done : pick request total pool = .ok made) :
    made.Respects request pool := by
  obtain ⟨taking, others⟩ := pick_eq_ok done
  have counted := take_keeps (fun taken => request.Allows taken.length)
    (fun {taken next} _ room => by simpa using room) (Pick.respects_start request pool).room taking
  exact ⟨counted.1, others ▸ List.filter_sublist⟩

theorem RandomImprove.keptByChoosing_room (request : SelectionRequest) :
    KeptByChoosing request (request.Allows ·.chosen.length) :=
  fun _ _ room => by simpa [Pick.choose] using room

theorem RandomImprove.keptByChoosing_ordered (request : SelectionRequest) (pool : List Utxo) :
    KeptByChoosing request (·.rest.Sublist pool) :=
  fun ordered _ _ => (List.eraseIdx_sublist _ _).trans ordered

theorem RandomImprove.pick_respects {maxRounds : Option Nat} {request : SelectionRequest}
    {total : Value} {pool : List Utxo} {draws left : Draws} {made : Pick}
    (done : pick maxRounds request total pool draws = (.ok made, left)) :
    made.Respects request pool := by
  have kept : KeptByChoosing request (·.Respects request pool) := fun before drawn room =>
    ⟨keptByChoosing_room request before.room drawn room,
      keptByChoosing_ordered request pool before.ordered drawn room⟩
  exact pick_keeps kept (Pick.respects_start request pool) done

namespace Selector

theorem pick_respects {selector next : Selector} {request : SelectionRequest} {total : Value}
    {pool : List Utxo} {made : Pick}
    (done : selector.pick request total pool = (.ok made, next)) :
    made.Respects request pool := by
  rcases pick_eq_ok done with taken | ⟨_, _, _, drawn⟩
  · exact LargestFirst.pick_respects taken
  · exact RandomImprove.pick_respects drawn

/-- A top-up leaves a part of the rest, and the whole is counted again. -/
theorem Chooses.respects {selector : Selector} {parameters : ProtocolParameters}
    {request : SelectionRequest} {pool : List Utxo} {made : Pick}
    (chooses : Chooses parameters request pool selector made) : made.Respects request pool := by
  cases chooses with
  | alone picked => exact pick_respects picked
  | toppedUp picked further room =>
      exact ⟨room, (pick_respects further).ordered.trans (pick_respects picked).ordered⟩

end Selector

/-! ## The change -/

namespace SelectionRequest

/-- No sum on the way to the change of chosen outputs leaves the range of its words. -/
structure ChangeFits (request : SelectionRequest) (total : Value) (chosen : List Utxo) :
    Prop where
  coin : coinHeld chosen + request.existing.coin.toNat < bound64
  held : ∀ asset, assetHeld chosen asset ≤ signedMax
  joined : ∀ asset, IsSigned (assetHeld chosen asset + request.existing.quantity asset)
  opposite : ∀ asset, total.quantity asset ≠ signedMin
  left : ∀ asset, IsSigned (assetHeld chosen asset + request.existing.quantity asset -
    total.quantity asset)

variable {request : SelectionRequest} {total : Value} {chosen : List Utxo}

theorem coin_change (room : coinHeld chosen + request.existing.coin.toNat < bound64)
    (cover : total.coin.toNat ≤ coinHeld chosen) :
    (request.change total chosen).coin.toNat + total.coin.toNat =
      coinHeld chosen + request.existing.coin.toNat := by
  have held : (Utxo.total chosen).coin.toNat = coinHeld chosen := coin_total (by omega)
  have joined : (Utxo.total chosen + request.existing).coin.toNat =
      (Utxo.total chosen).coin.toNat + request.existing.coin.toNat :=
    toNat_saturatingAdd_of_lt (by omega)
  have left : (request.change total chosen).coin.toNat =
      (Utxo.total chosen + request.existing).coin.toNat - total.coin.toNat :=
    UInt64.toNat_saturatingSub _ _
  omega

theorem quantity_change (fits : request.ChangeFits total chosen) (all : Nonnegative chosen)
    (asset : Asset) :
    (request.change total chosen).quantity asset + total.quantity asset =
      assetHeld chosen asset + request.existing.quantity asset := by
  have held := quantity_total all (fits.held asset)
  have joinedFits := fits.joined asset
  rw [← held] at joinedFits
  have joined : (Utxo.total chosen + request.existing).quantity asset =
      (Utxo.total chosen).quantity asset + request.existing.quantity asset :=
    MultiAsset.quantity_plus joinedFits
  have leftFits := fits.left asset
  rw [← held, ← joined] at leftFits
  have left : (request.change total chosen).quantity asset =
      (Utxo.total chosen + request.existing).quantity asset - total.quantity asset :=
    MultiAsset.quantity_sub (fits.opposite asset) leftFits
  omega

end SelectionRequest

/-! ## Whole selections -/

/-- By name, which is strict when names are distinct. -/
theorem Utxo.sort_ascending {utxos : List Utxo} (distinct : (utxos.map (·.input)).Nodup) :
    (Ranked.sort utxos).Pairwise fun first second => Ranked.Before first.input second.input := by
  have apart : ((Ranked.sort utxos).map (·.input)).Nodup :=
    ((Ranked.sort_perm utxos).map (·.input)).nodup_iff.2 distinct
  have sorted := (Ranked.sort_pairwise utxos).and (List.pairwise_map.1 apart)
  refine sorted.imp fun {first second} ordered => ?_
  by_cases before : Ranked.Before first.input second.input
  · exact before
  · exact absurd (Ranked.eq_of_not_before before ordered.1) ordered.2

/-- What a selection from a pool has to be for a request of a total. -/
structure Selection.Answers (selection : Selection) (request : SelectionRequest) (total : Value)
    (pool : List Utxo) : Prop where
  splits : selection.Splits pool
  /-- By transaction, then by place. -/
  ascending : selection.selected.Pairwise fun first second =>
    Ranked.Before first.input.transaction second.input.transaction ∨
      first.input.transaction = second.input.transaction ∧ first.input.index < second.input.index
  ordered : selection.remaining.Sublist pool
  room : request.Allows selection.selected.length
  coin : total.coin.toNat ≤ coinHeld selection.selected
  assets : ∀ asset, total.quantity asset ≤ assetHeld selection.selected asset
  coinChange : request.ChangeFits total selection.selected →
    selection.change.coin.toNat + total.coin.toNat =
      coinHeld selection.selected + request.existing.coin.toNat
  assetChange : request.ChangeFits total selection.selected → ∀ asset,
    selection.change.quantity asset + total.quantity asset =
      assetHeld selection.selected asset + request.existing.quantity asset

namespace Selector

/-- Every selection answers its request, with and without a top-up for the change. -/
theorem select_answers {selector next : Selector} {parameters : ProtocolParameters}
    {request : SelectionRequest} {pool : List Utxo} {selection : Selection}
    (distinct : (pool.map (·.input)).Nodup) (nonnegative : Nonnegative pool)
    (done : selector.select parameters request pool = (.ok selection, next)) :
    selection.Answers request (request.total parameters) pool := by
  have cover := select_covers done
  obtain ⟨made, chooses, rfl⟩ := select_eq_ok done
  have splits := chooses.splits (List.Nodup.of_map _ distinct)
  have respects := chooses.respects
  have whole : (Selection.ofPick request (request.total parameters) made).Splits pool :=
    Selection.splits_ofPick splits
  have names : (made.chosen.map (·.input)).Nodup := by
    have apart := (splits.map (·.input)).nodup_iff.2 distinct
    rw [List.map_append] at apart
    exact (List.nodup_append.1 apart).1
  have all : Nonnegative (Ranked.sort made.chosen) := fun utxo member =>
    nonnegative utxo (splits.subset (List.mem_append_left _
      ((Ranked.sort_perm made.chosen).subset member)))
  exact {
    splits := whole
    ascending := (sort_ascending names).imp fun before => (TransactionInput.before_iff _ _).1 before
    ordered := respects.ordered
    room := (Ranked.sort_perm made.chosen).length_eq ▸ respects.room
    coin := cover.coin
    assets := cover.assets all
    coinChange := fun fits => SelectionRequest.coin_change fits.coin cover.coin
    assetChange := fun fits => SelectionRequest.quantity_change fits all }

/-! ### A selection with a top-up -/

namespace Sample

def asset : Asset := ⟨⟨.replicate 28 1⟩, .empty⟩

def address : Address := .shelley ⟨.testnet, .key ⟨.replicate 28 7⟩, .none⟩

def utxo (index coin : UInt64) (quantity : Int64) : Utxo :=
  ⟨⟨⟨.replicate 32 5⟩, index⟩, .plain address ⟨coin, MultiAsset.empty.add asset quantity⟩⟩

def pool : List Utxo := [utxo 1 2000000 5, utxo 0 1500000 0, utxo 2 7000000 0]

/-- Asks for coin that the first output of the pool covers. What is left of it is too little coin
for the tokens. -/
def request : SelectionRequest where
  outputs := [.plain address (.ofCoin 1500000)]
  maxInputs := some 2
  includesMaxFee := false
  respectsMinimum := true
  existing := .ofCoin 100000

theorem nonnegative_pool : Nonnegative pool := by
  intro utxo member
  have counted : ∀ utxo ∈ pool, utxo.output.amount.assets.negative.isEmpty = true := by decide
  exact (MultiAsset.negative_isEmpty_iff _).1 (counted utxo member)

theorem changeFits {selected : List Utxo}
    (splits : (selected ++ [utxo 2 7000000 0]).Perm pool) :
    request.ChangeFits (request.total .preset) selected := by
  have coin : coinHeld selected = 3500000 := by
    have whole := coinHeld_perm splits
    rw [coinHeld_append, show coinHeld pool = 10500000 by decide,
      show coinHeld [utxo 2 7000000 0] = 7000000 by decide] at whole
    omega
  have held (other : Asset) : assetHeld selected other = if other = asset then 5 else 0 := by
    have each (index coin : UInt64) (quantity : Int64) :
        (utxo index coin quantity).output.amount.quantity other =
          if other = asset then quantity.toInt else 0 :=
      MultiAsset.quantity_add_empty asset other quantity
    have whole := assetHeld_perm splits other
    rw [assetHeld_append] at whole
    simp only [assetHeld, pool, List.map_cons, List.map_nil, each] at whole ⊢
    by_cases same : other = asset <;> simpa [same] using whole
  have nothing (other : Asset) : request.existing.quantity other = 0 ∧
      (request.total .preset).quantity other = 0 := ⟨rfl, rfl⟩
  refine ⟨by rw [coin]; decide, fun other => ?_, fun other => ?_, fun other => ?_, fun other => ?_⟩
  all_goals obtain ⟨existing, total⟩ := nothing other
  · rw [held]
    split <;> decide
  · rw [held, existing]
    split <;> exact ⟨by decide, by decide⟩
  · rw [total]
    decide
  · rw [held, existing, total]
    split <;> exact ⟨by decide, by decide⟩

end Sample

/-- A random selection tops up from its rest and has no room for a further input. -/
theorem select_answers_toppedUp :
    ∃ selection next, (randomImprove (some 0) [0, 0]).select .preset Sample.request
        Sample.pool = (.ok selection, next) ∧
      selection.remaining = [Sample.utxo 2 7000000 0] ∧
      Sample.request.ChangeFits (Sample.request.total .preset) selection.selected ∧
      selection.Answers Sample.request (Sample.request.total .preset) Sample.pool := by
  have selects : ((randomImprove (some 0) [0, 0]).select .preset Sample.request
      Sample.pool).1.toOption.map (·.remaining) = some [Sample.utxo 2 7000000 0] := by
    decide +kernel
  have distinct : (Sample.pool.map (·.input)).Nodup := by decide
  cases done : (randomImprove (some 0) [0, 0]).select .preset Sample.request Sample.pool with
  | mk result next =>
      rw [done] at selects
      cases result with
      | error error => simp [Except.toOption] at selects
      | ok selection =>
          have left : selection.remaining = [Sample.utxo 2 7000000 0] := by
            simpa [Except.toOption] using selects
          have answers := select_answers distinct Sample.nonnegative_pool done
          exact ⟨selection, next, rfl, left, Sample.changeFits (left ▸ answers.splits), answers⟩

end Selector

end UtxoLedger
