import UtxoLedger.Proofs.Selection.Soundness

/-!
# Random selection is complete

With as many draws as the pool has outputs and no limit on inputs, meeting a
demand fails only when the whole pool is drawn, and meeting one demand never
undoes another. So what is drawn decides which outputs are selected, but not
whether there is a selection: that depends on the sum of the pool alone.
-/

namespace UtxoLedger

open Utxo

namespace RandomImprove

variable {request : SelectionRequest} {pool : List Utxo}

/-! ## What is demanded -/

/-- There is no positive coin or asset in a total. -/
def AsksNothing (total : Value) : Prop := total.coin = 0 ∧ ∀ asset, total.quantity asset ≤ 0

theorem asksNothing_iff {total : Value} :
    AsksNothing total ↔ ∀ part : Part, part.quantity total ≤ 0 := by
  have zero : total.coin = 0 ↔ total.coin.toNat = 0 := UInt64.toNat_inj.symm
  constructor
  · rintro ⟨coin, assets⟩ part
    cases part with
    | coin => exact Int.ofNat_le.2 (Nat.le_of_eq (zero.1 coin))
    | asset name => exact assets name
  · intro each
    exact ⟨zero.2 (Nat.le_zero.1 (Int.ofNat_le.1 (each .coin))), fun name => each (.asset name)⟩

theorem ofTotal_isEmpty_iff {total : Value} :
    (Demand.ofTotal total).isEmpty = true ↔ AsksNothing total := by
  rw [asksNothing_iff, List.isEmpty_iff, List.eq_nil_iff_forall_not_mem]
  constructor
  · intro none part
    by_contra positive
    exact none ⟨part, part.quantity total⟩ (Demand.mem_ofTotal_iff.2 ⟨Int.not_le.1 positive, rfl⟩)
  · intro nothing demand member
    obtain ⟨positive, asked⟩ := Demand.mem_ofTotal_iff.1 member
    have none := nothing demand.part
    omega

/-! ## Drawing the whole pool -/

/-- The outputs of a pool, drawn in some order, do not meet a demand. -/
def Demand.Exceeds (demand : Demand) (pool : List Utxo) : Prop :=
  ∃ drawn : List Utxo, drawn.Perm pool ∧ demand.part.quantity (Utxo.total drawn) < demand.quantity

/-- Nothing is left to draw. -/
theorem Demand.exceeds_of_splits {demand : Demand} {pick : Pick} (splits : pick.Splits pool)
    (depleted : pick.rest = []) (unmet : ¬ demand.quantity ≤ demand.held pick) :
    demand.Exceeds pool := by
  refine ⟨pick.chosen, ?_, Int.not_le.1 unmet⟩
  have whole : (pick.chosen ++ pick.rest).Perm pool := splits
  rwa [depleted, List.append_nil] at whole

/-- A demand is met with draws left for the rest, or the pool is too small for it. By induction on
the draws: there are at least as many as candidates. -/
theorem gather_cases (unlimited : request.maxInputs = none) (demand : Demand) {pick : Pick}
    {draws : Draws} (splits : pick.Splits pool) (enough : pick.rest.length ≤ draws.length) :
    (∃ next left, gather request demand pick draws = (.ok next, left) ∧
      next.rest.length ≤ left.length) ∨
    (∃ left, gather request demand pick draws = (.error .inputsDepleted, left)) ∧
      demand.Exceeds pool := by
  induction draws generalizing pick with
  | nil =>
      have depleted : pick.rest = [] := List.length_eq_zero_iff.1 (Nat.le_zero.1 enough)
      unfold gather
      by_cases met : demand.quantity ≤ demand.held pick
      · exact .inl ⟨pick, [], by rw [if_pos met], enough⟩
      · exact .inr ⟨⟨[], by rw [if_neg met]⟩, demand.exceeds_of_splits splits depleted met⟩
  | cons draw later ih =>
      unfold gather
      by_cases met : demand.quantity ≤ demand.held pick
      · exact .inl ⟨pick, draw :: later, by rw [if_pos met], enough⟩
      · rw [if_neg met]
        cases drawn : pick.rest[draw % pick.rest.length]? with
        | none =>
            exact .inr ⟨⟨draw :: later, by simp [drawn]⟩,
              demand.exceeds_of_splits splits (eq_nil_of_drawn drawn) met⟩
        | some candidate =>
            have inside := (List.getElem?_eq_some_iff.1 drawn).1
            have fewer : (pick.choose (draw % pick.rest.length) candidate).rest.length ≤
                later.length := by
              change (pick.rest.eraseIdx _).length ≤ _
              rw [List.length_eraseIdx_of_lt inside]
              exact Nat.sub_le_of_le_add enough
            have room : request.checkCount (pick.chosen.length + 1) = .ok () := by
              simp [SelectionRequest.checkCount, unlimited]
            simp only [drawn, room]
            exact ih (splits.choose drawn) fewer

/-- All demands are met, or the pool is too small for one of them. -/
theorem gatherAll_cases (unlimited : request.maxInputs = none) (demands : List Demand) {pick : Pick}
    {draws : Draws} (splits : pick.Splits pool) (enough : pick.rest.length ≤ draws.length) :
    (∃ next left, gatherAll request demands pick draws = (.ok next, left)) ∨
    (∃ left, gatherAll request demands pick draws = (.error .inputsDepleted, left)) ∧
      ∃ demand ∈ demands, demand.Exceeds pool := by
  induction demands generalizing pick draws with
  | nil => exact .inl ⟨pick, draws, rfl⟩
  | cons demand later ih =>
      unfold gatherAll
      rcases gather_cases unlimited demand splits enough with
        ⟨next, left, gathered, enough⟩ | ⟨⟨left, gathered⟩, exceeds⟩
      · simp only [gathered]
        have splits := (gather_keeps (keptByChoosing_splits request pool) splits gathered).1
        rcases ih splits enough with met | ⟨failed, other, member, exceeds⟩
        · exact .inl met
        · exact .inr ⟨failed, other, List.mem_cons_of_mem _ member, exceeds⟩
      · simp only [gathered]
        exact .inr ⟨⟨left, rfl⟩, demand, List.mem_cons_self, exceeds⟩

/-- Without negative quantities the order of the draws does not matter. -/
theorem not_atMost_of_exceeds {demand : Demand} {total : Value} (all : Nonnegative pool)
    (demanded : demand ∈ Demand.ofTotal total) (exceeds : demand.Exceeds pool) :
    total.atMost (Utxo.total pool) = false := by
  obtain ⟨drawn, same, short⟩ := exceeds
  have nonnegative : Nonnegative drawn := fun utxo member => all utxo (same.subset member)
  rw [total_perm same nonnegative, (Demand.mem_ofTotal_iff.1 demanded).2] at short
  refine Bool.eq_false_iff.2 fun covered => ?_
  exact absurd (Part.atMost_iff.1 covered demand.part) (Int.not_le.2 short)

/-- There is a pick, or the sum of the pool does not cover the total. -/
theorem pick_cases (unlimited : request.maxInputs = none) (maxRounds : Option Nat) {total : Value}
    {draws : Draws} (asks : ¬ AsksNothing total) (enough : pool.length ≤ draws.length)
    (all : Nonnegative pool) :
    (∃ made left, pick maxRounds request total pool draws = (.ok made, left)) ∨
    (pick maxRounds request total pool draws).1 = .error .inputsDepleted ∧
      total.atMost (Utxo.total pool) = false := by
  have demands : ¬ (Demand.ofTotal total).isEmpty = true := fun none =>
    asks (ofTotal_isEmpty_iff.1 none)
  unfold pick
  simp only [if_neg demands]
  rcases gatherAll_cases unlimited (Demand.ofTotal total) (Pick.splits_start pool) enough with
    ⟨covering, left, gathered⟩ | ⟨⟨left, gathered⟩, demand, demanded, exceeds⟩
  · rw [gathered]
    exact .inl ⟨_, _, rfl⟩
  · rw [gathered]
    exact .inr ⟨rfl, not_atMost_of_exceeds all demanded exceeds⟩

/-- What covers a total is a part of the pool. -/
theorem atMost_of_pick {maxRounds : Option Nat} {total : Value} {draws left : Draws} {made : Pick}
    (all : Nonnegative pool)
    (done : pick maxRounds request total pool draws = (.ok made, left)) :
    total.atMost (Utxo.total pool) = true :=
  (atMost_total_iff all).2 (((pick_covers done).append made.rest).perm (pick_splits done))

end RandomImprove

open RandomImprove (AsksNothing Draws pick_cases)

/-! ## Whole selections -/

namespace Selector

/-- Whatever is drawn, there is a selection exactly when the sum of the pool covers the total. -/
theorem select_randomImprove (maxRounds : Option Nat) (draws : Draws)
    (parameters : ProtocolParameters) {request : SelectionRequest} {pool : List Utxo}
    (plain : request.respectsMinimum = false) (unlimited : request.maxInputs = none)
    (all : Nonnegative pool) (enough : pool.length ≤ draws.length) :
    (AsksNothing (request.total parameters) →
      ((randomImprove maxRounds draws).select parameters request pool).1 = .error .emptyRequest) ∧
    (¬ AsksNothing (request.total parameters) →
      ((∃ selection,
          ((randomImprove maxRounds draws).select parameters request pool).1 = .ok selection) ↔
        (request.total parameters).atMost (Utxo.total pool) = true) ∧
      ((request.total parameters).atMost (Utxo.total pool) = false →
        ((randomImprove maxRounds draws).select parameters request pool).1 =
          .error .inputsDepleted)) := by
  have drawn : ((randomImprove maxRounds draws).pick request (request.total parameters) pool).1 =
      (RandomImprove.pick maxRounds request (request.total parameters) pool draws).1 := rfl
  rw [select_of_plain plain, drawn]
  constructor
  · intro nothing
    unfold RandomImprove.pick
    simp only [if_pos (RandomImprove.ofTotal_isEmpty_iff.2 nothing)]
    rfl
  · intro asks
    rcases pick_cases unlimited maxRounds asks enough all with ⟨made, left, done⟩ | ⟨failed, short⟩
    · have covered := RandomImprove.atMost_of_pick all done
      rw [done, covered]
      exact ⟨⟨fun _ => rfl, fun _ => ⟨_, rfl⟩⟩, fun short => by cases short⟩
    · rw [failed, short]
      refine ⟨⟨?_, fun covered => by cases covered⟩, fun _ => rfl⟩
      rintro ⟨selection, done⟩
      cases done

namespace Drawing

def request : SelectionRequest where
  outputs := [.plain Sample.address ⟨9000000, MultiAsset.empty.add Sample.asset 5⟩]
  maxInputs := none
  includesMaxFee := false
  respectsMinimum := false
  existing := .zero

end Drawing

/-- The tokens of the first output are drawn last. -/
theorem select_randomImprove_tokens :
    Drawing.request.maxInputs = none ∧ Nonnegative Sample.pool ∧
    ∃ selection, ((randomImprove none [2, 1, 0]).select .preset Drawing.request
      Sample.pool).1 = .ok selection := by
  refine ⟨rfl, Sample.nonnegative_pool, ?_⟩
  have asks : ¬ AsksNothing (Drawing.request.total .preset) := fun nothing =>
    absurd nothing.1 (by decide)
  exact ((select_randomImprove none [2, 1, 0] .preset rfl rfl Sample.nonnegative_pool
    (by decide)).2 asks).1.2 (by decide)

end Selector

end UtxoLedger
