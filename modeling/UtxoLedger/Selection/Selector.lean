import UtxoLedger.Selection.LargestFirst
import UtxoLedger.Selection.RandomImprove

/-!
# Selectors

A selector is a strategy together with the draws it has left. It picks
outputs until the total is covered and, where the request says so, picks more
until the change can stand as an output of its own.
-/

namespace UtxoLedger

inductive Selector where
  | largestFirst
  | randomImprove (maxRounds : Option Nat) (draws : RandomImprove.Draws)

namespace Selector

def name : Selector → String
  | largestFirst => "largest-first"
  | randomImprove _ _ => "random-improve"

/-- Splits the pool such that the total is covered. Gives back the selector with the draws it
has left. -/
def pick (selector : Selector) (request : SelectionRequest) (total : Value)
    (pool : List Utxo) : Except SelectionError Pick × Selector :=
  match selector with
  | largestFirst => (LargestFirst.pick request total pool, largestFirst)
  | randomImprove maxRounds draws =>
      let (result, left) := RandomImprove.pick maxRounds request total pool draws
      (result, randomImprove maxRounds left)

/-- Selects for a request without regard to the least coin of the change. -/
def selectCovering (selector : Selector) (parameters : ProtocolParameters)
    (request : SelectionRequest) (pool : List Utxo) :
    Except SelectionError Selection × Selector :=
  let total := request.total parameters
  match selector.pick request total pool with
  | (.error error, next) => (.error error, next)
  | (.ok pick, next) => (.ok (.ofPick request total pick), next)

/-- Adds a selection from the rest of a pick to the pick. -/
def addSelection (request : SelectionRequest) (total : Value) (pick : Pick)
    (extra : Selection) : Except SelectionError Selection :=
  let whole : Pick := ⟨pick.chosen ++ extra.selected, extra.remaining⟩
  match request.checkCount whole.chosen.length with
  | .error error => .error error
  | .ok () => .ok (.ofPick request total whole)

/-- Selects for a request. -/
def select (selector : Selector) (parameters : ProtocolParameters) (request : SelectionRequest)
    (pool : List Utxo) : Except SelectionError Selection × Selector :=
  let total := request.total parameters
  match selector.pick request total pool with
  | (.error error, next) => (.error error, next)
  | (.ok pick, next) =>
      match if request.respectsMinimum then request.topUp? parameters total pick.chosen
        else none with
      | none => (.ok (.ofPick request total pick), next)
      | some topUp =>
          match next.selectCovering parameters topUp pick.rest with
          | (.error error, last) => (.error error, last)
          | (.ok extra, last) => (addSelection request total pick extra, last)

end Selector

end UtxoLedger
