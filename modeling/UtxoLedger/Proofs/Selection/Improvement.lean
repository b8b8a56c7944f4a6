import UtxoLedger.Proofs.Selection.Soundness

/-!
# The second pass of a random selection

Every draw of the second pass spends a round. The candidate that is drawn is
either chosen, if the request has room and the quantity of the demanded part
comes closer to twice the demand without exceeding three times, or left where it
is. Whether it comes closer is judged before the sum saturates: once the sum
holds as much as a value can hold, further candidates are chosen that do not
change it.
-/

namespace UtxoLedger

open Utxo

theorem Utxo.total_concat (utxos : List Utxo) (utxo : Utxo) :
    total (utxos ++ [utxo]) = total utxos + utxo.output.amount := by
  simp [total, Value.sum]

namespace RandomImprove

/-! ## One candidate -/

namespace Part

/-- The least quantity of a part that a value holds. -/
def least : Part → Int
  | coin => 0
  | asset _ => signedMin

theorem least_le_quantity (part : Part) (value : Value) : part.least ≤ part.quantity value := by
  cases part with
  | coin => exact Int.natCast_nonneg _
  | asset name => exact (value.assets.get name).signedMin_le_toInt

/-- Values are added part by part, as far as their words go. -/
theorem quantity_add (part : Part) (first second : Value) :
    part.quantity (first + second) =
      max part.least (min (part.quantity first + part.quantity second) part.most) := by
  cases part with
  | coin =>
      have added : (first + second).coin.toNat =
          min (first.coin.toNat + second.coin.toNat) wordMax := UInt64.toNat_saturatingAdd _ _
      change ((first + second).coin.toNat : Int) =
        max 0 (min ((first.coin.toNat : Int) + second.coin.toNat) wordMax)
      rw [added]
      omega
  | asset name =>
      change ((first.assets + second.assets).get name).toInt = _
      rw [MultiAsset.get_plus]
      exact Int64.toInt_saturatingAdd _ _

end Part

/-- How far what is chosen is from twice the demand. -/
def Demand.distance (demand : Demand) (pick : Pick) : Nat :=
  (2 * demand.quantity - demand.held pick).natAbs

theorem Demand.held_choose (demand : Demand) (pick : Pick) (place : Nat) (candidate : Utxo) :
    demand.held (pick.choose place candidate) =
      max demand.part.least
        (min (demand.held pick + demand.part.quantity candidate.output.amount)
          demand.part.most) := by
  have summed : (pick.choose place candidate).amount = pick.amount + candidate.output.amount :=
    total_concat pick.chosen candidate
  unfold Demand.held
  rw [summed, Part.quantity_add]

/-- What becomes of a pick when a candidate is accepted for a demand: the candidate moves to what
is chosen, and comes closer to twice the demand unless the sum is full already. -/
structure Accepts (request : SelectionRequest) (demand : Demand) (place : Nat) (candidate : Utxo)
    (before after : Pick) : Prop where
  room : request.Allows (before.chosen.length + 1)
  drawn : before.rest[place]? = some candidate
  chosen : after.chosen = before.chosen ++ [candidate]
  rest : after.rest = before.rest.eraseIdx place
  short : demand.held before < 2 * demand.quantity
  closer : demand.distance after < demand.distance before ↔ demand.held before < demand.part.most
  within : demand.held after ≤ 3 * demand.quantity

theorem accepts_choose {request : SelectionRequest} {demand : Demand} {pass : Pass} {place : Nat}
    {candidate : Utxo} (further : mayImprove request demand pass = true)
    (drawn : pass.pick.rest[place]? = some candidate)
    (improved : demand.isImprovedBy pass.pick candidate = true) :
    Accepts request demand place candidate pass.pick (pass.pick.choose place candidate) := by
  have held := demand.held_choose pass.pick place candidate
  have least := demand.part.least_le_quantity pass.pick.amount
  have most := demand.part.quantity_le_most pass.pick.amount
  change demand.part.least ≤ demand.held pass.pick at least
  change demand.held pass.pick ≤ demand.part.most at most
  obtain ⟨short, _, room⟩ := mayImprove_iff.1 further
  unfold Demand.isImprovedBy at improved
  simp only [Bool.and_eq_true, decide_eq_true_eq] at improved
  obtain ⟨nearer, within⟩ := improved
  refine ⟨room, drawn, rfl, rfl, short, ?_, ?_⟩
  · unfold Demand.distance
    omega
  · omega

/-- Why a candidate is left where it is: its quantity, added to what is held, comes no closer to
twice the demand or exceeds three times. -/
def Declines (demand : Demand) (pick : Pick) (candidate : Utxo) : Prop :=
  let next := demand.held pick + demand.part.quantity candidate.output.amount
  demand.distance pick ≤ (2 * demand.quantity - next).natAbs ∨ 3 * demand.quantity < next

theorem declines_iff {demand : Demand} {pick : Pick} {candidate : Utxo} :
    Declines demand pick candidate ↔ ¬ demand.isImprovedBy pick candidate = true := by
  unfold Declines Demand.isImprovedBy Demand.distance
  simp only [Bool.and_eq_true, decide_eq_true_eq, not_and_or, Nat.not_lt, Int.not_le]

/-! ## A run of rounds -/

/-- A run of the second pass for one demand: each draw spends a round on a candidate of the rest,
which is accepted or left in place. -/
inductive Rounds (request : SelectionRequest) (demand : Demand) : Pass → Draws → Pass → Prop where
  | done (pass : Pass) : Rounds request demand pass [] pass
  | accept {pass last : Pass} {draw : Nat} {later : Draws} {candidate : Utxo} {after : Pick}
      (budget : 0 < pass.rounds)
      (accepts : Accepts request demand (draw % pass.pick.rest.length) candidate pass.pick after)
      (onward : Rounds request demand ⟨after, pass.rounds - 1⟩ later last) :
      Rounds request demand pass (draw :: later) last
  | reject {pass last : Pass} {draw : Nat} {later : Draws} {candidate : Utxo}
      (budget : 0 < pass.rounds)
      (drawn : pass.pick.rest[draw % pass.pick.rest.length]? = some candidate)
      (declines : Declines demand pass.pick candidate)
      (onward : Rounds request demand ⟨pass.pick, pass.rounds - 1⟩ later last) :
      Rounds request demand pass (draw :: later) last

section

variable {request : SelectionRequest} {demand : Demand} {pass last : Pass} {draws used : Draws}

theorem Rounds.spent (run : Rounds request demand pass used last) :
    used.length + last.rounds = pass.rounds := by
  induction run with
  | done pass => exact Nat.zero_add _
  | accept budget accepts onward ih =>
      have spent : _ + _ = _ - 1 := ih
      rw [List.length_cons]
      omega
  | reject budget drawn declines onward ih =>
      have spent : _ + _ = _ - 1 := ih
      rw [List.length_cons]
      omega

/-- Improving is a run over the draws that it uses. -/
theorem improve_rounds (request : SelectionRequest) (demand : Demand) (pass : Pass) (draws : Draws) :
    ∃ used, draws = used ++ (improve request demand pass draws).2 ∧
      Rounds request demand pass used (improve request demand pass draws).1 := by
  induction draws generalizing pass with
  | nil => exact ⟨[], rfl, .done pass⟩
  | cons draw later ih =>
      unfold improve
      by_cases further : mayImprove request demand pass = true
      · simp only [if_pos further]
        have budget := (mayImprove_iff.1 further).2.1
        cases drawn : pass.pick.rest[draw % pass.pick.rest.length]? with
        | none => exact ⟨[], rfl, .done pass⟩
        | some candidate =>
            by_cases improved : demand.isImprovedBy pass.pick candidate = true
            · simp only [if_pos improved]
              obtain ⟨used, split, run⟩ := ih
                ⟨pass.pick.choose (draw % pass.pick.rest.length) candidate, pass.rounds - 1⟩
              refine ⟨draw :: used, congrArg (draw :: ·) split, ?_⟩
              exact .accept budget (accepts_choose further drawn improved) run
            · simp only [if_neg improved]
              obtain ⟨used, split, run⟩ := ih ⟨pass.pick, pass.rounds - 1⟩
              refine ⟨draw :: used, congrArg (draw :: ·) split, ?_⟩
              exact .reject budget drawn (declines_iff.2 improved) run
      · rw [if_neg further]
        exact ⟨[], rfl, .done pass⟩

theorem improve_of_not_mayImprove (ended : ¬ mayImprove request demand pass = true) :
    improve request demand pass draws = (pass, draws) := by
  unfold improve
  cases draws with
  | nil => rfl
  | cons draw later => exact if_neg ended

/-- A call goes on as long as it can. -/
theorem improve_stops (request : SelectionRequest) (demand : Demand) (pass : Pass) (draws : Draws) :
    (improve request demand pass draws).2 = [] ∨
      (improve request demand pass draws).1.pick.rest = [] ∨
      ¬ mayImprove request demand (improve request demand pass draws).1 = true := by
  induction draws generalizing pass with
  | nil => exact .inl rfl
  | cons draw later ih =>
      unfold improve
      by_cases further : mayImprove request demand pass = true
      · simp only [if_pos further]
        cases drawn : pass.pick.rest[draw % pass.pick.rest.length]? with
        | none => exact .inr (.inl (eq_nil_of_drawn drawn))
        | some candidate => exact ih _
      · rw [if_neg further]
        exact .inr (.inr further)

/-- Once there is a draw for every round, further draws are not looked at. -/
theorem improve_append (enough : pass.rounds ≤ draws.length) (more : Draws) :
    improve request demand pass (draws ++ more) =
      ((improve request demand pass draws).1, (improve request demand pass draws).2 ++ more) := by
  induction draws generalizing pass with
  | nil =>
      have ended : ¬ mayImprove request demand pass = true := fun further =>
        absurd (mayImprove_iff.1 further).2.1 (Nat.not_lt.2 enough)
      rw [improve_of_not_mayImprove ended, improve_of_not_mayImprove ended]
  | cons draw later ih =>
      rw [List.cons_append]
      unfold improve
      by_cases further : mayImprove request demand pass = true
      · simp only [if_pos further]
        cases drawn : pass.pick.rest[draw % pass.pick.rest.length]? with
        | none => rfl
        | some candidate => exact ih (Nat.sub_le_of_le_add enough)
      · rw [if_neg further, if_neg further]
        rfl

end

/-- All demands together spend a round for every draw. -/
theorem improveAll_spent (request : SelectionRequest) (demands : List Demand) (pass : Pass)
    (draws : Draws) :
    ∃ used, draws = used ++ (improveAll request demands pass draws).2 ∧
      used.length + (improveAll request demands pass draws).1.rounds = pass.rounds := by
  induction demands generalizing pass draws with
  | nil => exact ⟨[], rfl, Nat.zero_add _⟩
  | cons demand later ih =>
      obtain ⟨first, split, run⟩ := improve_rounds request demand pass draws
      obtain ⟨second, rest, spent⟩ := ih (improve request demand pass draws).1
        (improve request demand pass draws).2
      refine ⟨first ++ second, ?_, ?_⟩
      · rw [List.append_assoc]
        exact split.trans (congrArg (first ++ ·) rest)
      · have here := run.spent
        rw [List.length_append]
        change _ + (improveAll request later _ _).1.rounds = _
        omega

/-! ## Calls -/

/-- What a call for a demand does with a pass. -/
structure Improves (request : SelectionRequest) (demand : Demand) (pass : Pass) (draws : Draws)
    (outcome : Pass × Draws) : Prop where
  run : ∃ used, draws = used ++ outcome.2 ∧ used.length + outcome.1.rounds = pass.rounds ∧
    Rounds request demand pass used outcome.1
  /-- Draws are left only where the demand is held twice, the rounds are spent, the request has no
  room or nothing is left to draw. -/
  stops : outcome.2 = [] ∨ outcome.1.pick.rest = [] ∨
    2 * demand.quantity ≤ demand.held outcome.1.pick ∨ outcome.1.rounds = 0 ∨
    ¬ request.Allows (outcome.1.pick.chosen.length + 1)
  /-- As many draws as there are rounds decide the outcome. -/
  ends : pass.rounds ≤ draws.length → ∀ more,
    improve request demand pass (draws ++ more) = (outcome.1, outcome.2 ++ more)
  kept : pass.pick.chosen <+: outcome.1.pick.chosen
  room : request.Allows pass.pick.chosen.length → request.Allows outcome.1.pick.chosen.length
  splits : outcome.1.pick.Splits (pass.pick.chosen ++ pass.pick.rest)
  ordered : outcome.1.pick.rest.Sublist pass.pick.rest

/-- Every call ends within its rounds, only adds to what is chosen and stays within the room of the
request; all calls share the rounds. -/
theorem improve_improves (request : SelectionRequest) :
    (∀ demand pass draws, Improves request demand pass draws (improve request demand pass draws)) ∧
    ∀ demands pass draws, ∃ used, draws = used ++ (improveAll request demands pass draws).2 ∧
      used.length + (improveAll request demands pass draws).1.rounds = pass.rounds := by
  refine ⟨fun demand pass draws => ?_, improveAll_spent request⟩
  obtain ⟨used, split, run⟩ := improve_rounds request demand pass draws
  have stops := improve_stops request demand pass draws
  rw [mayImprove_iff, not_and_or, not_and_or, Int.not_lt, Nat.pos_iff_ne_zero, not_not] at stops
  exact {
    run := ⟨used, split, run.spent, run⟩
    stops := stops
    ends := improve_append
    kept := improve_keeps (keptByChoosing_extends request _) (List.prefix_refl _)
    room := improve_keeps (keptByChoosing_room request)
    splits := improve_keeps (keptByChoosing_splits request _) (List.Perm.refl _)
    ordered := improve_keeps (keptByChoosing_ordered request _) (List.Sublist.refl _) }

/-! ### A full sum -/

namespace Full

open Selector (Sample.address Sample.asset Sample.utxo)

/-- Asks for more than half of the tokens that a value can hold. -/
def request : SelectionRequest where
  outputs := [.plain Sample.address ⟨0, MultiAsset.empty.add Sample.asset 5000000000000000000⟩]
  maxInputs := none
  includesMaxFee := false
  respectsMinimum := false
  existing := .zero

def demand : Demand := ⟨.asset Sample.asset, 5000000000000000000⟩

/-- Two outputs that together hold more tokens than a value can. -/
def covering : List Utxo :=
  [Sample.utxo 0 2000000 4900000000000000000, Sample.utxo 1 2000000 9223372036854775807]

def further : Utxo := Sample.utxo 2 2000000 1

end Full

/-- With the sum full, a candidate is accepted though what is counted stays where it is, and what
is chosen moves away from twice the demand. -/
theorem improve_not_closer :
    Demand.ofTotal (Full.request.total .preset) = [Full.demand] ∧
    gatherAll Full.request [Full.demand] (.start (Full.covering ++ [Full.further])) [0, 0, 0] =
      (.ok ⟨Full.covering, [Full.further]⟩, [0]) ∧
    improve Full.request Full.demand ⟨⟨Full.covering, [Full.further]⟩, 1⟩ [0] =
      (⟨⟨Full.covering ++ [Full.further], []⟩, 0⟩, []) ∧
    Full.demand.distance ⟨Full.covering ++ [Full.further], []⟩ =
      Full.demand.distance ⟨Full.covering, [Full.further]⟩ ∧
    2 * Full.demand.quantity < assetHeld Full.covering Selector.Sample.asset ∧
    assetHeld Full.covering Selector.Sample.asset <
      assetHeld (Full.covering ++ [Full.further]) Selector.Sample.asset := by
  refine ⟨?_, ?_, ?_, ?_, ?_, ?_⟩
  · exact List.mergeSort_singleton Full.demand
  · rfl
  · rfl
  · decide
  · decide
  · decide

end RandomImprove

end UtxoLedger
