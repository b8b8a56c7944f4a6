import UtxoLedger.Failure
import UtxoLedger.Fee

/-!
# Selection of inputs

A selection splits a pool of unspent outputs into those to spend and those to
keep, such that the former cover a request. A strategy makes the split; what
is asked of it and how its outcome is stated are the same for all strategies.
-/

namespace UtxoLedger

namespace Utxo

/-- By the name of the output. -/
instance : Ranked Utxo where
  rank utxo := Ranked.rank utxo.input

/-- The sum of the amounts. -/
def total (utxos : List Utxo) : Value := .sum (utxos.map (·.output.amount))

end Utxo

/-- Why nothing was selected. -/
inductive SelectionError where
  /-- The whole pool does not cover the request. -/
  | insufficientBalance
  /-- There is no further candidate to draw. -/
  | inputsDepleted
  | tooManyInputs (most : Nat)
  | emptyRequest
  /-- No strategy succeeded. -/
  | allFailed (unfulfilled : Value)
  deriving DecidableEq

namespace SelectionError

def message : SelectionError → String
  | insufficientBalance => "UTxO balance insufficient"
  | inputsDepleted => "input UTxOs depleted"
  | tooManyInputs most => s!"max input count {most} exceeded"
  | emptyRequest => "nothing was requested"
  | allFailed unfulfilled => s!"all selectors failed, unfulfilled amount {unfulfilled.debug}"

instance : Failure SelectionError where
  name
    | insufficientBalance => "Selection.InsufficientBalance"
    | inputsDepleted => "Selection.InputsDepleted"
    | tooManyInputs _ => "Selection.MaxInputCountExceeded"
    | emptyRequest => "Selection.EmptyRequest"
    | allFailed _ => "Selection.AllSelectorsFailed"
  message := message

end SelectionError

/-- A pool that is being split: the chosen outputs in the order of choice, and the others. -/
structure Pick where
  chosen : List Utxo
  rest : List Utxo

namespace Pick

/-- Nothing is chosen yet. -/
def start (pool : List Utxo) : Pick := ⟨[], pool⟩

/-- The sum of what is chosen. -/
def amount (pick : Pick) : Value := Utxo.total pick.chosen

/-- Chooses the candidate at a place of the rest. -/
def choose (pick : Pick) (place : Nat) (candidate : Utxo) : Pick :=
  ⟨pick.chosen ++ [candidate], pick.rest.eraseIdx place⟩

end Pick

/-- What a selection has to cover. -/
structure SelectionRequest where
  outputs : List TransactionOutput
  /-- The most outputs that may be selected. -/
  maxInputs : Option Nat
  /-- Room for the largest fee is covered as well. -/
  includesMaxFee : Bool
  /-- The change has to be able to stand as an output of its own. -/
  respectsMinimum : Bool
  /-- What is at hand besides the selection; it counts towards the change. -/
  existing : Value

namespace SelectionRequest

/-- The amount to cover. -/
def total (request : SelectionRequest) (parameters : ProtocolParameters) : Value :=
  let paid := Value.sum (request.outputs.map (·.amount))
  if request.includesMaxFee then
    { paid with coin := paid.coin.saturatingAdd parameters.maxFee }
  else paid

/-- Refuses more inputs than the request allows. -/
def checkCount (request : SelectionRequest) (count : Nat) : Except SelectionError Unit :=
  match request.maxInputs with
  | some most => if most < count then .error (.tooManyInputs most) else .ok ()
  | none => .ok ()

/-- A number of inputs that may be selected. -/
def Allows (request : SelectionRequest) (count : Nat) : Prop :=
  ∀ most, request.maxInputs = some most → count ≤ most

theorem checkCount_eq_ok_iff (request : SelectionRequest) (count : Nat) :
    request.checkCount count = .ok () ↔ request.Allows count := by
  unfold checkCount Allows
  cases request.maxInputs with
  | none => simp
  | some most => simp

theorem checkCount_eq_error_iff (request : SelectionRequest) (count : Nat)
    (error : SelectionError) :
    request.checkCount count = .error error ↔
      ∃ most, request.maxInputs = some most ∧ most < count ∧ error = .tooManyInputs most := by
  unfold checkCount
  cases request.maxInputs with
  | none => simp
  | some most =>
      by_cases above : most < count
      · simp [above, eq_comm]
      · simp [above]

/-- What the chosen outputs leave of the total. -/
def change (request : SelectionRequest) (total : Value) (chosen : List Utxo) : Value :=
  Utxo.total chosen + request.existing - total

/-- The request for the coin that the change lacks to stand as an output, if it lacks some. -/
def topUp? (request : SelectionRequest) (parameters : ProtocolParameters) (total : Value)
    (chosen : List Utxo) : Option SelectionRequest :=
  match request.outputs with
  | [] => none
  | first :: _ =>
      let change := request.change total chosen
      let least := (TransactionOutput.plain first.address change).minCoin parameters
      if change.coin < least then
        some
          { outputs := [.plain first.address (.ofCoin (least - change.coin))]
            maxInputs := request.maxInputs.map (· - chosen.length)
            includesMaxFee := false
            respectsMinimum := false
            existing := .zero }
      else none

end SelectionRequest

/-- The outcome of a selection. -/
structure Selection where
  /-- By increasing name. -/
  selected : List Utxo
  /-- In the order of the pool. -/
  remaining : List Utxo
  change : Value

namespace Selection

/-- The outcome of a pick that covers the total. -/
def ofPick (request : SelectionRequest) (total : Value) (pick : Pick) : Selection :=
  let selected := Ranked.sort pick.chosen
  ⟨selected, pick.rest, request.change total selected⟩

/-- The sum of what is selected. -/
def amount (selection : Selection) : Value := Utxo.total selection.selected

end Selection

end UtxoLedger
