import UtxoLedger.Selection.Basic

/-!
# Largest first

The outputs with the most coin are taken first, until what is taken covers
the total. Outputs of equal coin keep the order of the pool.
-/

namespace UtxoLedger.LargestFirst

/-- The pool by decreasing coin. -/
def queue (pool : List Utxo) : List Utxo :=
  pool.mergeSort fun first second => second.output.amount.coin ≤ first.output.amount.coin

/-- Takes outputs from the front until they cover the total. -/
def take (request : SelectionRequest) (total : Value) (taken : List Utxo) :
    List Utxo → Except SelectionError (List Utxo)
  | [] => if total.atMost (Utxo.total taken) then .ok taken else .error .insufficientBalance
  | next :: rest =>
      if total.atMost (Utxo.total taken) then .ok taken
      else
        match request.checkCount (taken.length + 1) with
        | .error error => .error error
        | .ok () => take request total (taken ++ [next]) rest

/-- Splits the pool into what is taken and the others. -/
def pick (request : SelectionRequest) (total : Value) (pool : List Utxo) :
    Except SelectionError Pick :=
  match take request total [] (queue pool) with
  | .error error => .error error
  | .ok taken => .ok ⟨taken, pool.filter fun utxo => ¬ utxo ∈ taken⟩

end UtxoLedger.LargestFirst
