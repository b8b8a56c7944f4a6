import UtxoLedger.Proofs.Build.Preparation
import UtxoLedger.Proofs.Selection.Soundness

/-!
# Change that stands on its own

A request may ask for change that can be an output of its own. When the change
of a pick has too little coin for that, the selector selects for the coin that
it lacks. The outputs that this adds may bring assets, and more coin takes
more bytes, so the least coin of the change moves while it is being reached:
the change stands on its own unless its least coin grows by more than what is
added beyond the coin that was asked for.
-/

namespace UtxoLedger

open Utxo

/-! ## Coin that is asked for -/

namespace SelectionRequest

variable {request : SelectionRequest} {parameters : ProtocolParameters} {total : Value}
  {chosen : List Utxo} {first : TransactionOutput}

/-- The least coin of the change as an output at an address. -/
def leastChange (request : SelectionRequest) (parameters : ProtocolParameters)
    (address : Address) (total : Value) (chosen : List Utxo) : UInt64 :=
  (TransactionOutput.plain address (request.change total chosen)).minCoin parameters

theorem change_perm {other : List Utxo} (same : chosen.Perm other) (all : Nonnegative chosen) :
    request.change total chosen = request.change total other := by
  unfold change
  rw [total_perm same all]

/-- Nothing is asked for when the change has enough coin. -/
theorem leastChange_le_of_topUp?_eq_none (paid : request.outputs.head? = some first)
    (unasked : request.topUp? parameters total chosen = none) :
    request.leastChange parameters first.address total chosen ≤
      (request.change total chosen).coin := by
  unfold topUp? at unasked
  cases outputs : request.outputs with
  | nil => simp [outputs] at paid
  | cons output rest =>
      obtain rfl : output = first := by simpa [outputs] using paid
      simp only [outputs] at unasked
      split at unasked
      · cases unasked
      next enough => exact UInt64.not_lt.1 enough

/-- What is asked for is the coin that the change lacks. -/
theorem coin_add_of_topUp?_eq_some {topUp : SelectionRequest}
    (paid : request.outputs.head? = some first)
    (asked : request.topUp? parameters total chosen = some topUp) :
    (request.change total chosen).coin.toNat + (topUp.total parameters).coin.toNat =
      (request.leastChange parameters first.address total chosen).toNat := by
  unfold topUp? at asked
  cases outputs : request.outputs with
  | nil => simp [outputs] at paid
  | cons output rest =>
      obtain rfl : output = first := by simpa [outputs] using paid
      simp only [outputs] at asked
      split at asked
      next lacks =>
        have lacking : (topUp.total parameters).coin =
            request.leastChange parameters output.address total chosen -
              (request.change total chosen).coin := by
          rw [← Option.some.inj asked]
          exact UInt64.zero_saturatingAdd _
        have below : (request.change total chosen).coin ≤
            request.leastChange parameters output.address total chosen := UInt64.le_of_lt lacks
        rw [lacking, UInt64.toNat_sub_of_le _ _ below]
        exact Nat.add_sub_cancel' (UInt64.le_iff_toNat_le.1 below)
      · cases asked

end SelectionRequest

/-! ## Topping up -/

namespace Selector

/-- The least coin of the change grows by more than the selection for the coin that the change
lacked brings beyond that coin. -/
inductive Outgrows (selector : Selector) (parameters : ProtocolParameters)
    (request : SelectionRequest) (pool : List Utxo) (address : Address) (change : Value) :
    Prop where
  | toppedUp {next last : Selector} {made : Pick} {topUp : SelectionRequest} {extra : Selection}
      (picked : selector.pick request (request.total parameters) pool = (.ok made, next))
      (asked : request.topUp? parameters (request.total parameters) made.chosen = some topUp)
      (further : next.selectCovering parameters topUp made.rest = (.ok extra, last))
      (short :
        (request.leastChange parameters address (request.total parameters) made.chosen).toNat +
            coinHeld extra.selected <
          ((TransactionOutput.plain address change).minCoin parameters).toNat +
            (topUp.total parameters).coin.toNat) :
      Outgrows selector parameters request pool address change

section

variable {selector next : Selector} {parameters : ProtocolParameters}
  {request : SelectionRequest} {pool : List Utxo} {selection : Selection}
  {first : TransactionOutput}

/-- The change is what is left of the selected outputs. -/
theorem change_of_select
    (done : selector.select parameters request pool = (.ok selection, next)) :
    selection.change = request.change (request.total parameters) selection.selected := by
  obtain ⟨_, _, rfl⟩ := select_eq_ok done
  rfl

/-- The coin of the change after a top-up is that of the change before it and what is added. -/
theorem coin_change_toppedUp {left : Selector} {made : Pick} {extra : Selection}
    (picked : selector.pick request (request.total parameters) pool = (.ok made, left))
    (added : addSelection request (request.total parameters) made extra = .ok selection)
    (room : coinHeld selection.selected + request.existing.coin.toNat < bound64) :
    selection.change.coin.toNat =
      (request.change (request.total parameters) made.chosen).coin.toNat +
        coinHeld extra.selected := by
  obtain ⟨_, rfl⟩ := addSelection_eq_ok added
  have held : coinHeld (Ranked.sort (made.chosen ++ extra.selected)) =
      coinHeld made.chosen + coinHeld extra.selected := by
    rw [coinHeld_perm (Ranked.sort_perm _), coinHeld_append]
  change coinHeld (Ranked.sort (made.chosen ++ extra.selected)) + _ < bound64 at room
  have cover := (pick_covers picked).coin
  have fits : coinHeld made.chosen + request.existing.coin.toNat < bound64 := by omega
  have before := SelectionRequest.coin_change fits cover
  have after := SelectionRequest.coin_change room (by omega : (request.total parameters).coin.toNat ≤ _)
  change (request.change _ (Ranked.sort (made.chosen ++ extra.selected))).coin.toNat = _
  omega

/-- Where change has to stand on its own it does, unless a top-up makes it outgrow itself. -/
theorem select_change_meetsMinimum_iff
    (done : selector.select parameters request pool = (.ok selection, next))
    (respects : request.respectsMinimum = true) (paid : request.outputs.head? = some first)
    (nonnegative : Nonnegative selection.selected)
    (room : coinHeld selection.selected + request.existing.coin.toNat < bound64) :
    (TransactionOutput.plain first.address selection.change).MeetsMinimum parameters ↔
      ¬ Outgrows selector parameters request pool first.address selection.change := by
  have asks (pick : Pick) : request.furtherRequest? parameters pick =
      request.topUp? parameters (request.total parameters) pick.chosen := if_pos respects
  obtain ⟨made, left, picked, ⟨unasked, same⟩ | ⟨topUp, extra, asked, further, added⟩⟩ :=
    select_cases done
  · rw [asks] at unasked
    have enough := SelectionRequest.leastChange_le_of_topUp?_eq_none paid unasked
    have change : selection.change =
        request.change (request.total parameters) made.chosen := by
      subst same
      exact SelectionRequest.change_perm (Ranked.sort_perm made.chosen) nonnegative
    refine iff_of_true (change ▸ enough) ?_
    -- A top-up would start from the same pick, which asks for none.
    rintro ⟨again, asked, _, _⟩
    rw [picked] at again
    obtain ⟨rfl, rfl⟩ : made = _ ∧ left = _ := by simpa using again
    simp [unasked] at asked
  · rw [asks] at asked
    have lacking := SelectionRequest.coin_add_of_topUp?_eq_some paid asked
    have coin := coin_change_toppedUp picked added room
    have meets : (TransactionOutput.plain first.address selection.change).MeetsMinimum parameters ↔
        ((TransactionOutput.plain first.address selection.change).minCoin parameters).toNat ≤
          selection.change.coin.toNat := UInt64.le_iff_toNat_le
    rw [meets]
    constructor
    · rintro enough ⟨again, other, repeated, short⟩
      rw [picked] at again
      obtain ⟨rfl, rfl⟩ : made = _ ∧ left = _ := by simpa using again
      obtain rfl := Option.some.inj (asked.symm.trans other)
      rw [further] at repeated
      obtain ⟨rfl, rfl⟩ : extra = _ ∧ next = _ := by simpa using repeated
      omega
    · intro covers
      by_contra lacks
      exact covers (.toppedUp picked asked further (by omega))

/-- The change of a selection whose rest is known. -/
theorem change_of_remaining {front back : List Utxo}
    (done : selector.select parameters request (front ++ back) = (.ok selection, next))
    (left : selection.remaining = back) (distinct : (front ++ back).Nodup)
    (nonnegative : Nonnegative (front ++ back)) :
    selection.selected.Perm front ∧
      selection.change = request.change (request.total parameters) front := by
  subst left
  have same := (List.perm_append_right_iff selection.remaining).1 (select_splits distinct done)
  have all : Nonnegative selection.selected := fun utxo member =>
    nonnegative utxo (List.mem_append_left _ (same.subset member))
  refine ⟨same, ?_⟩
  rw [change_of_select done]
  exact SelectionRequest.change_perm same all

end

/-! ### Top-ups with and without tokens -/

namespace ToppingUp

def request : SelectionRequest where
  outputs := [.plain Sample.address (.ofCoin 2000000)]
  maxInputs := none
  includesMaxFee := false
  respectsMinimum := true
  existing := .zero

/-- What the first output leaves is too little coin for an output; the second one adds enough, and
a quantity of tokens. -/
def spent (quantity : Int64) : List Utxo := [Sample.utxo 0 2500000 0, Sample.utxo 1 400000 quantity]

/-- One more output is not drawn. -/
def pool (quantity : Int64) : List Utxo := spent quantity ++ [Sample.utxo 2 300000 0]

/-- Draws the outputs of the pool in their order. -/
def selector : Selector := randomImprove (some 0) [0, 0, 0]

def change (quantity : Int64) : Value :=
  request.change (request.total .preset) (spent quantity)

theorem exists_selection {quantity : Int64}
    (draws : (selector.select .preset request (pool quantity)).1.toOption.map (·.remaining) =
      some [Sample.utxo 2 300000 0])
    (counted : ∀ utxo ∈ pool quantity, utxo.output.amount.assets.negative.isEmpty = true) :
    ∃ selection next, selector.select .preset request (pool quantity) = (.ok selection, next) ∧
      selection.selected.Perm (spent quantity) ∧ Nonnegative selection.selected ∧
      selection.change = change quantity := by
  have nonnegative : Nonnegative (pool quantity) := fun utxo member =>
    (MultiAsset.negative_isEmpty_iff _).1 (counted utxo member)
  have names : ((pool quantity).map (·.input)).Nodup :=
    show ((pool 0).map (·.input)).Nodup by decide
  cases done : selector.select .preset request (pool quantity) with
  | mk result next =>
      rw [done] at draws
      cases result with
      | error error => simp [Except.toOption] at draws
      | ok selection =>
          have left : selection.remaining = [Sample.utxo 2 300000 0] := by
            simpa [Except.toOption] using draws
          obtain ⟨same, change⟩ :=
            change_of_remaining done left (List.Nodup.of_map _ names) nonnegative
          have all : Nonnegative selection.selected := fun utxo member =>
            nonnegative utxo (List.mem_append_left _ (same.subset member))
          exact ⟨selection, next, rfl, same, all, change⟩

end ToppingUp

/-- A top-up of coin alone does not make the change outgrow itself. -/
theorem select_change_meetsMinimum_pure :
    ∃ selection next, ToppingUp.selector.select .preset ToppingUp.request (ToppingUp.pool 0) =
        (.ok selection, next) ∧
      ¬ Outgrows ToppingUp.selector .preset ToppingUp.request (ToppingUp.pool 0) Sample.address
        selection.change := by
  obtain ⟨selection, next, done, same, nonnegative, change⟩ :=
    @ToppingUp.exists_selection 0 (by decide +kernel) (by decide)
  have held : coinHeld selection.selected = 2900000 := by
    rw [coinHeld_perm same]
    decide
  have meets : (TransactionOutput.plain Sample.address selection.change).MeetsMinimum .preset := by
    rw [change]
    unfold TransactionOutput.MeetsMinimum
    decide +kernel
  refine ⟨selection, next, done, ?_⟩
  refine (select_change_meetsMinimum_iff done rfl rfl nonnegative ?_).1 meets
  rw [held]
  decide

/-- The tokens that a top-up brings make the change need more coin than it has. -/
theorem select_change_misses_minimum :
    ∃ selection next, ToppingUp.selector.select .preset ToppingUp.request (ToppingUp.pool 5) =
        (.ok selection, next) ∧
      ¬ (TransactionOutput.plain Sample.address selection.change).MeetsMinimum .preset := by
  obtain ⟨selection, next, done, _, _, change⟩ :=
    @ToppingUp.exists_selection 5 (by decide +kernel) (by decide)
  refine ⟨selection, next, done, ?_⟩
  rw [change]
  unfold TransactionOutput.MeetsMinimum
  decide +kernel

end Selector

end UtxoLedger
