import UtxoLedger.Selection.Basic

/-!
# Random selection and improvement

Each part of the total is covered by candidates drawn from the pool. A second
pass walks the parts from the smallest to the largest and draws on: it takes
a candidate when that brings the chosen quantity of the part closer to twice
what is asked for, and not above three times. The candidates drawn depend on
a list of numbers alone, so a selection is repeated by repeating the list.
-/

namespace UtxoLedger.RandomImprove

/-- The numbers that decide what is drawn, each taken modulo the number of candidates. -/
abbrev Draws := List Nat

/-- A part of a value. -/
inductive Part where
  | coin
  | asset (name : Asset)
  deriving DecidableEq

namespace Part

/-- How much of the part a value holds. -/
def quantity (value : Value) : Part → Int
  | coin => value.coin.toNat
  | asset name => (value.assets.get name).toInt

end Part

/-- A quantity of a part that has to be covered. -/
structure Demand where
  part : Part
  quantity : Int
  deriving DecidableEq

namespace Demand

/-- How much of the demanded part is chosen. -/
def held (demand : Demand) (pick : Pick) : Int := demand.part.quantity pick.amount

/-- The demands of a total by decreasing quantity; of equal ones coin comes first. -/
def ofTotal (total : Value) : List Demand :=
  let coin : List Demand := if total.coin = 0 then [] else [⟨.coin, total.coin.toNat⟩]
  let assets := total.assets.entries.filterMap fun (asset, quantity) =>
    if 0 < quantity then some ⟨.asset asset, quantity.toInt⟩ else none
  (coin ++ assets).mergeSort fun first second => second.quantity ≤ first.quantity

/-- The candidate brings the quantity closer to twice the demand, and not above three times. -/
def isImprovedBy (demand : Demand) (pick : Pick) (candidate : Utxo) : Bool :=
  let ideal := 2 * demand.quantity
  let current := demand.held pick
  let next := current + demand.part.quantity candidate.output.amount
  (ideal - next).natAbs < (ideal - current).natAbs && next ≤ 3 * demand.quantity

end Demand

/-! ## Covering the demands -/

/-- Draws candidates until a demand is met. Gives back the draws that are left. -/
def gather (request : SelectionRequest) (demand : Demand) (pick : Pick) :
    Draws → Except SelectionError Pick × Draws
  | [] => (if demand.quantity ≤ demand.held pick then .ok pick else .error .inputsDepleted, [])
  | draw :: later =>
      if demand.quantity ≤ demand.held pick then (.ok pick, draw :: later)
      else
        let place := draw % pick.rest.length
        match pick.rest[place]? with
        | none => (.error .inputsDepleted, draw :: later)
        | some candidate =>
            match request.checkCount (pick.chosen.length + 1) with
            | .error error => (.error error, later)
            | .ok () => gather request demand (pick.choose place candidate) later

/-- Meets the demands one after the other. -/
def gatherAll (request : SelectionRequest) :
    List Demand → Pick → Draws → Except SelectionError Pick × Draws
  | [], pick, draws => (.ok pick, draws)
  | demand :: later, pick, draws =>
      match gather request demand pick draws with
      | (.ok next, left) => gatherAll request later next left
      | (.error error, left) => (.error error, left)

/-! ## Improvement -/

/-- The state of the second pass. -/
structure Pass where
  pick : Pick
  /-- How many candidates may still be looked at. -/
  rounds : Nat

/-- The second pass may look at a further candidate for a demand. -/
def mayImprove (request : SelectionRequest) (demand : Demand) (pass : Pass) : Bool :=
  demand.held pass.pick < 2 * demand.quantity && 0 < pass.rounds &&
    request.maxInputs.all fun most => pass.pick.chosen.length < most

/-- Draws candidates and chooses those that improve a demand. -/
def improve (request : SelectionRequest) (demand : Demand) (pass : Pass) :
    Draws → Pass × Draws
  | [] => (pass, [])
  | draw :: later =>
      if mayImprove request demand pass then
        let place := draw % pass.pick.rest.length
        match pass.pick.rest[place]? with
        | none => (pass, draw :: later)
        | some candidate =>
            let pick :=
              if demand.isImprovedBy pass.pick candidate then pass.pick.choose place candidate
              else pass.pick
            improve request demand ⟨pick, pass.rounds - 1⟩ later
      else (pass, draw :: later)

/-- Improves the demands one after the other. -/
def improveAll (request : SelectionRequest) : List Demand → Pass → Draws → Pass × Draws
  | [], pass, draws => (pass, draws)
  | demand :: later, pass, draws =>
      let (next, left) := improve request demand pass draws
      improveAll request later next left

/-- Splits the pool. Without a limit, the second pass looks at as many candidates as the first
one left. -/
def pick (maxRounds : Option Nat) (request : SelectionRequest) (total : Value)
    (pool : List Utxo) (draws : Draws) : Except SelectionError Pick × Draws :=
  let demands := Demand.ofTotal total
  if demands.isEmpty then (.error .emptyRequest, draws)
  else
    match gatherAll request demands (.start pool) draws with
    | (.error error, left) => (.error error, left)
    | (.ok covering, left) =>
        let pass := ⟨covering, maxRounds.getD covering.rest.length⟩
        let (improved, last) := improveAll request demands.reverse pass left
        (.ok improved.pick, last)

end UtxoLedger.RandomImprove
