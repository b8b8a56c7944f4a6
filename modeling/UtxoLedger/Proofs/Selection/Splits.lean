import Mathlib.Data.List.Perm.Basic
import UtxoLedger.Selection.Selector

/-!
# Selections split their pool

Whatever is drawn and however often, what is chosen and what is left are
together the pool: nothing is lost, made up or taken twice. The largest-first
strategy names its rest by what it does not take, so its pool must not repeat
an output.
-/

namespace UtxoLedger

/-- The chosen outputs and the rest are together the pool. -/
def Pick.Splits (pick : Pick) (pool : List Utxo) : Prop :=
  (pick.chosen ++ pick.rest).Perm pool

namespace Pick

theorem splits_start (pool : List Utxo) : (start pool).Splits pool := List.Perm.refl pool

theorem Splits.choose {pick : Pick} {pool : List Utxo} (splits : pick.Splits pool)
    {place : Nat} {candidate : Utxo} (drawn : pick.rest[place]? = some candidate) :
    (pick.choose place candidate).Splits pool := by
  obtain ⟨inside, rfl⟩ := List.getElem?_eq_some_iff.1 drawn
  have moved : (pick.rest[place] :: pick.rest.eraseIdx place).Perm pick.rest :=
    List.getElem_cons_eraseIdx_perm inside
  have joined : (pick.chosen ++ [pick.rest[place]] ++ pick.rest.eraseIdx place).Perm
      (pick.chosen ++ pick.rest) := by
    rw [List.append_assoc]
    exact List.Perm.append_left pick.chosen moved
  exact joined.trans splits

end Pick

namespace Selection

/-- What is selected and what remains are together the pool. -/
def Splits (selection : Selection) (pool : List Utxo) : Prop :=
  (selection.selected ++ selection.remaining).Perm pool

theorem splits_ofPick {request : SelectionRequest} {total : Value} {pick : Pick}
    {pool : List Utxo} (splits : pick.Splits pool) : (ofPick request total pick).Splits pool :=
  ((List.mergeSort_perm pick.chosen _).append_right pick.rest).trans splits

end Selection

namespace LargestFirst

/-- What is taken is a front part of the queue. -/
theorem take_eq_append {request : SelectionRequest} {total : Value} {taken queue result : List Utxo}
    (done : take request total taken queue = .ok result) :
    ∃ used rest, queue = used ++ rest ∧ result = taken ++ used := by
  induction queue generalizing taken with
  | nil =>
      unfold take at done
      by_cases covered : total.atMost (Utxo.total taken) = true
      · rw [if_pos covered, Except.ok.injEq] at done
        exact ⟨[], [], rfl, by simp [done]⟩
      · simp [covered] at done
  | cons next rest ih =>
      unfold take at done
      by_cases covered : total.atMost (Utxo.total taken) = true
      · rw [if_pos covered, Except.ok.injEq] at done
        exact ⟨[], next :: rest, rfl, by simp [done]⟩
      · rw [if_neg covered] at done
        cases counted : request.checkCount (taken.length + 1) with
        | error error => simp [counted] at done
        | ok _ =>
            rw [counted] at done
            obtain ⟨used, left, split, made⟩ := ih done
            exact ⟨next :: used, left, by simp [split], by simp [made]⟩

/-- What the request has room for and what taking one more keeps holds of what is taken. The
taking ends when the total is reached. -/
theorem take_keeps {request : SelectionRequest} {total : Value} (holds : List Utxo → Prop)
    (kept : ∀ {taken : List Utxo} {next : Utxo}, holds taken →
      request.Allows (taken.length + 1) → holds (taken ++ [next]))
    {taken queue result : List Utxo} (before : holds taken)
    (done : take request total taken queue = .ok result) :
    holds result ∧ total.atMost (Utxo.total result) = true := by
  induction queue generalizing taken with
  | nil =>
      unfold take at done
      by_cases covered : total.atMost (Utxo.total taken) = true
      · rw [if_pos covered, Except.ok.injEq] at done
        exact done ▸ ⟨before, covered⟩
      · simp [covered] at done
  | cons next rest ih =>
      unfold take at done
      by_cases covered : total.atMost (Utxo.total taken) = true
      · rw [if_pos covered, Except.ok.injEq] at done
        exact done ▸ ⟨before, covered⟩
      · rw [if_neg covered] at done
        cases counted : request.checkCount (taken.length + 1) with
        | error error => simp [counted] at done
        | ok _ =>
            have room := (request.checkCount_eq_ok_iff _).1 counted
            rw [counted] at done
            exact ih (kept before room) done

/-- What is picked was taken, and the rest is what was not. -/
theorem pick_eq_ok {request : SelectionRequest} {total : Value} {pool : List Utxo} {made : Pick}
    (done : pick request total pool = .ok made) :
    take request total [] (queue pool) = .ok made.chosen ∧
      made.rest = pool.filter fun utxo => ¬ utxo ∈ made.chosen := by
  unfold pick at done
  cases taking : take request total [] (queue pool) with
  | error error => simp [taking] at done
  | ok taken =>
      simp only [taking, Except.ok.injEq] at done
      subst done
      exact ⟨rfl, rfl⟩

theorem pick_splits {request : SelectionRequest} {total : Value} {pool : List Utxo} {made : Pick}
    (distinct : pool.Nodup) (done : pick request total pool = .ok made) : made.Splits pool := by
  obtain ⟨taking, others⟩ := pick_eq_ok done
  obtain ⟨taken, left⟩ := made
  obtain ⟨used, rest, split, made⟩ := take_eq_append taking
  change left = pool.filter fun utxo => decide ¬ utxo ∈ taken at others
  change taken = [] ++ used at made
  rw [List.nil_append] at made
  subst made others
  have queued : (taken ++ rest).Perm pool := split ▸ List.mergeSort_perm pool _
  have apart : (taken ++ rest).Nodup := queued.nodup_iff.2 distinct
  have same : taken.Perm (pool.filter fun utxo => decide (utxo ∈ taken)) := by
    refine (List.perm_ext_iff_of_nodup (List.nodup_append.1 apart).1
      (distinct.filter _)).2 fun utxo => ?_
    simp only [List.mem_filter, decide_eq_true_eq]
    exact ⟨fun member => ⟨queued.subset (List.mem_append_left _ member), member⟩, And.right⟩
  have whole := List.filter_append_perm (fun utxo => decide (utxo ∈ taken)) pool
  have joined := (same.append_right (pool.filter fun utxo => !decide (utxo ∈ taken))).trans whole
  simpa [Pick.Splits] using joined

end LargestFirst

namespace RandomImprove

/-! ## Drawing -/

/-- Only from nothing is no candidate drawn. -/
theorem eq_nil_of_drawn {rest : List Utxo} {draw : Nat}
    (drawn : rest[draw % rest.length]? = none) : rest = [] := by
  have outside := List.getElem?_eq_none_iff.1 drawn
  by_contra some
  have inside := Nat.mod_lt draw (List.length_pos_iff.2 some)
  omega

/-- Choosing a candidate of the rest that the request has room for keeps a property of picks. -/
def KeptByChoosing (request : SelectionRequest) (holds : Pick → Prop) : Prop :=
  ∀ {pick : Pick} {place : Nat} {candidate : Utxo}, holds pick →
    pick.rest[place]? = some candidate → request.Allows (pick.chosen.length + 1) →
      holds (pick.choose place candidate)

theorem keptByChoosing_splits (request : SelectionRequest) (pool : List Utxo) :
    KeptByChoosing request (·.Splits pool) :=
  fun splits drawn _ => splits.choose drawn

variable {holds : Pick → Prop} {request : SelectionRequest}

theorem gather_keeps (kept : KeptByChoosing request holds) {demand : Demand} {pick next : Pick}
    {draws left : Draws} (before : holds pick)
    (done : gather request demand pick draws = (.ok next, left)) :
    holds next ∧ demand.quantity ≤ demand.held next := by
  induction draws generalizing pick with
  | nil =>
      unfold gather at done
      by_cases met : demand.quantity ≤ demand.held pick
      · simp only [if_pos met, Prod.mk.injEq, Except.ok.injEq] at done
        obtain rfl := done.1
        exact ⟨before, met⟩
      · simp [met] at done
  | cons draw later ih =>
      unfold gather at done
      by_cases met : demand.quantity ≤ demand.held pick
      · simp only [if_pos met, Prod.mk.injEq, Except.ok.injEq] at done
        obtain rfl := done.1
        exact ⟨before, met⟩
      · simp only [if_neg met] at done
        cases drawn : pick.rest[draw % pick.rest.length]? with
        | none => simp [drawn] at done
        | some candidate =>
            cases counted : request.checkCount (pick.chosen.length + 1) with
            | error error => simp [drawn, counted] at done
            | ok _ =>
                have room := (request.checkCount_eq_ok_iff _).1 counted
                simp only [drawn, counted] at done
                exact ih (kept before drawn room) done

theorem gatherAll_keeps (kept : KeptByChoosing request holds) {demands : List Demand} {pick next : Pick}
    {draws left : Draws} (before : holds pick)
    (done : gatherAll request demands pick draws = (.ok next, left)) : holds next := by
  induction demands generalizing pick draws with
  | nil =>
      simp only [gatherAll, Prod.mk.injEq, Except.ok.injEq] at done
      exact done.1 ▸ before
  | cons demand later ih =>
      unfold gatherAll at done
      cases gathered : gather request demand pick draws with
      | mk result rest =>
          cases result with
          | error error => simp [gathered] at done
          | ok met =>
              simp only [gathered] at done
              exact ih (gather_keeps kept before gathered).1 done

theorem mayImprove_iff {demand : Demand} {pass : Pass} :
    mayImprove request demand pass = true ↔
      demand.held pass.pick < 2 * demand.quantity ∧ 0 < pass.rounds ∧
        request.Allows (pass.pick.chosen.length + 1) := by
  unfold mayImprove SelectionRequest.Allows
  rw [Bool.and_eq_true, Bool.and_eq_true, decide_eq_true_eq, decide_eq_true_eq, and_assoc]
  cases request.maxInputs with
  | none => simp
  | some most =>
      simp only [Option.all_some, decide_eq_true_eq, Option.some.injEq, forall_eq']
      exact Iff.rfl

theorem improve_keeps (kept : KeptByChoosing request holds) {demand : Demand} {pass : Pass}
    {draws : Draws} (before : holds pass.pick) :
    holds (improve request demand pass draws).1.pick := by
  induction draws generalizing pass with
  | nil => exact before
  | cons draw later ih =>
      unfold improve
      by_cases further : mayImprove request demand pass = true
      · simp only [if_pos further]
        cases drawn : pass.pick.rest[draw % pass.pick.rest.length]? with
        | none => exact before
        | some candidate =>
            refine ih ?_
            by_cases improved : demand.isImprovedBy pass.pick candidate = true
            · have room := (mayImprove_iff.1 further).2.2
              simpa only [if_pos improved] using kept before drawn room
            · simpa only [if_neg improved] using before
      · rw [if_neg further]
        exact before

theorem improveAll_keeps (kept : KeptByChoosing request holds) {demands : List Demand} {pass : Pass}
    {draws : Draws} (before : holds pass.pick) :
    holds (improveAll request demands pass draws).1.pick := by
  induction demands generalizing pass draws with
  | nil => exact before
  | cons demand later ih => exact ih (improve_keeps kept before)

/-- A random selection first meets all demands and then improves on that. -/
theorem pick_eq_ok {maxRounds : Option Nat} {total : Value} {pool : List Utxo}
    {draws left : Draws} {made : Pick}
    (done : pick maxRounds request total pool draws = (.ok made, left)) :
    ∃ covering rest rounds,
      gatherAll request (Demand.ofTotal total) (.start pool) draws = (.ok covering, rest) ∧
      made = (improveAll request (Demand.ofTotal total).reverse ⟨covering, rounds⟩ rest).1.pick := by
  unfold pick at done
  by_cases nothing : (Demand.ofTotal total).isEmpty = true
  · simp [nothing] at done
  · cases gathered : gatherAll request (Demand.ofTotal total) (.start pool) draws with
    | mk result rest =>
        cases result with
        | error error => simp [nothing, gathered] at done
        | ok covering =>
            simp only [nothing, gathered, Bool.false_eq_true, if_false, Prod.mk.injEq,
              Except.ok.injEq] at done
            exact ⟨covering, rest, _, rfl, done.1.symm⟩

/-- A random selection has what every choice keeps. -/
theorem pick_keeps (kept : KeptByChoosing request holds) {maxRounds : Option Nat} {total : Value}
    {pool : List Utxo} {draws left : Draws} {made : Pick} (before : holds (.start pool))
    (done : pick maxRounds request total pool draws = (.ok made, left)) : holds made := by
  obtain ⟨covering, rest, rounds, gathered, rfl⟩ := pick_eq_ok done
  exact improveAll_keeps kept (gatherAll_keeps kept before gathered)

theorem pick_splits {maxRounds : Option Nat} {total : Value} {pool : List Utxo}
    {draws left : Draws} {made : Pick}
    (done : pick maxRounds request total pool draws = (.ok made, left)) : made.Splits pool :=
  pick_keeps (keptByChoosing_splits request pool) (Pick.splits_start pool) done

end RandomImprove

/-- What is asked for on top of a pick, where the change has to stand on its own. -/
def SelectionRequest.furtherRequest? (request : SelectionRequest) (parameters : ProtocolParameters)
    (made : Pick) : Option SelectionRequest :=
  if request.respectsMinimum then request.topUp? parameters (request.total parameters) made.chosen
  else none

namespace Selector

/-- A pick is one of the two strategies. -/
theorem pick_eq_ok {selector next : Selector} {request : SelectionRequest} {total : Value}
    {pool : List Utxo} {made : Pick}
    (done : selector.pick request total pool = (.ok made, next)) :
    LargestFirst.pick request total pool = .ok made ∨
      ∃ maxRounds draws left,
        RandomImprove.pick maxRounds request total pool draws = (.ok made, left) := by
  cases selector with
  | largestFirst =>
      simp only [pick, Prod.mk.injEq] at done
      exact .inl done.1
  | randomImprove maxRounds draws =>
      cases drawn : RandomImprove.pick maxRounds request total pool draws with
      | mk result left =>
          simp only [pick, drawn, Prod.mk.injEq] at done
          exact .inr ⟨maxRounds, draws, left, by rw [drawn, done.1]⟩

theorem pick_splits {selector next : Selector} {request : SelectionRequest} {total : Value}
    {pool : List Utxo} {made : Pick} (distinct : pool.Nodup)
    (done : selector.pick request total pool = (.ok made, next)) : made.Splits pool := by
  rcases pick_eq_ok done with taken | ⟨_, _, _, drawn⟩
  · exact LargestFirst.pick_splits distinct taken
  · exact RandomImprove.pick_splits drawn

/-! ## Whole selections -/

/-- What a selector ends up choosing for a request: what it picks, or that with the selection for
the coin that the change lacks. -/
inductive Chooses (parameters : ProtocolParameters) (request : SelectionRequest)
    (pool : List Utxo) (selector : Selector) : Pick → Prop where
  | alone {next : Selector} {made : Pick}
      (picked : selector.pick request (request.total parameters) pool = (.ok made, next)) :
      Chooses parameters request pool selector made
  | toppedUp {next last : Selector} {made extra : Pick} {topUp : SelectionRequest}
      (picked : selector.pick request (request.total parameters) pool = (.ok made, next))
      (further : next.pick topUp (topUp.total parameters) made.rest = (.ok extra, last))
      (room : request.Allows (made.chosen ++ Ranked.sort extra.chosen).length) :
      Chooses parameters request pool selector
        ⟨made.chosen ++ Ranked.sort extra.chosen, extra.rest⟩

variable {selector next : Selector} {parameters : ProtocolParameters}
  {request : SelectionRequest} {pool : List Utxo} {selection : Selection}

/-- Where the change need not stand on its own, a selection is a pick. -/
theorem select_of_plain (plain : request.respectsMinimum = false) :
    (selector.select parameters request pool).1 =
      (selector.pick request (request.total parameters) pool).1.map
        (.ofPick request (request.total parameters)) := by
  unfold select
  cases picked : selector.pick request (request.total parameters) pool with
  | mk result next =>
      cases result with
      | error error => simp [picked, Except.map]
      | ok made => simp [picked, plain, Except.map]

theorem selectCovering_eq_ok
    (done : selector.selectCovering parameters request pool = (.ok selection, next)) :
    ∃ made, selector.pick request (request.total parameters) pool = (.ok made, next) ∧
      selection = .ofPick request (request.total parameters) made := by
  unfold selectCovering at done
  cases picked : selector.pick request (request.total parameters) pool with
  | mk result left =>
      cases result with
      | error error => simp [picked] at done
      | ok made =>
          simp only [picked, Prod.mk.injEq, Except.ok.injEq] at done
          obtain ⟨rfl, rfl⟩ := done
          exact ⟨made, rfl, rfl⟩

theorem addSelection_eq_ok {total : Value} {pick : Pick} {extra : Selection}
    (done : addSelection request total pick extra = .ok selection) :
    request.Allows (pick.chosen ++ extra.selected).length ∧
      selection = .ofPick request total ⟨pick.chosen ++ extra.selected, extra.remaining⟩ := by
  unfold addSelection at done
  cases counted : request.checkCount (pick.chosen ++ extra.selected).length with
  | error error => simp only [counted, reduceCtorEq] at done
  | ok _ =>
      simp only [counted, Except.ok.injEq] at done
      exact ⟨(request.checkCount_eq_ok_iff _).1 counted, done.symm⟩

/-- A selection is a pick, or a pick and the selection that it asks for on top. -/
theorem select_cases (done : selector.select parameters request pool = (.ok selection, next)) :
    ∃ made left, selector.pick request (request.total parameters) pool = (.ok made, left) ∧
      ((request.furtherRequest? parameters made = none ∧
          selection = .ofPick request (request.total parameters) made) ∨
        ∃ topUp extra, request.furtherRequest? parameters made = some topUp ∧
          left.selectCovering parameters topUp made.rest = (.ok extra, next) ∧
          addSelection request (request.total parameters) made extra = .ok selection) := by
  unfold select at done
  cases picked : selector.pick request (request.total parameters) pool with
  | mk result left =>
      cases result with
      | error error => simp [picked] at done
      | ok made =>
          refine ⟨made, left, rfl, ?_⟩
          simp only [picked] at done
          split at done
          · next unasked =>
            simp only [Prod.mk.injEq, Except.ok.injEq] at done
            exact .inl ⟨unasked, done.1.symm⟩
          · next topUp asked =>
            cases answer : left.selectCovering parameters topUp made.rest with
            | mk outcome last =>
                cases outcome with
                | error error => simp [answer] at done
                | ok extra =>
                    simp only [answer, Prod.mk.injEq] at done
                    obtain ⟨added, rfl⟩ := done
                    exact .inr ⟨topUp, extra, asked, answer, added⟩

/-- A selection states what its selector chose. -/
theorem select_eq_ok (done : selector.select parameters request pool = (.ok selection, next)) :
    ∃ made, Chooses parameters request pool selector made ∧
      selection = .ofPick request (request.total parameters) made := by
  obtain ⟨made, left, picked, ⟨_, same⟩ | ⟨topUp, extra, _, further, added⟩⟩ := select_cases done
  · exact ⟨made, .alone picked, same⟩
  · obtain ⟨more, drawn, rfl⟩ := selectCovering_eq_ok further
    obtain ⟨room, same⟩ := addSelection_eq_ok added
    exact ⟨_, .toppedUp picked drawn room, same⟩

/-- A top-up comes out of the rest, so the whole still splits the pool. -/
theorem Chooses.splits {made : Pick} (chooses : Chooses parameters request pool selector made)
    (distinct : pool.Nodup) : made.Splits pool := by
  cases chooses with
  | alone picked => exact pick_splits distinct picked
  | @toppedUp _ _ made extra _ picked further room =>
      have splits := pick_splits distinct picked
      have behind : made.rest.Nodup :=
        (List.nodup_append.1 (splits.nodup_iff.2 distinct)).2.1
      have sorted : (Ranked.sort extra.chosen ++ extra.rest).Perm made.rest :=
        ((Ranked.sort_perm extra.chosen).append_right extra.rest).trans
          (pick_splits behind further)
      have joined := List.Perm.append_left made.chosen sorted
      rw [← List.append_assoc] at joined
      exact joined.trans splits

/-- A selection splits its pool, with and without a top-up for the change. -/
theorem select_splits {selector next : Selector} {parameters : ProtocolParameters}
    {request : SelectionRequest} {pool : List Utxo} {selection : Selection} (distinct : pool.Nodup)
    (done : selector.select parameters request pool = (.ok selection, next)) :
    selection.Splits pool := by
  obtain ⟨made, chooses, rfl⟩ := select_eq_ok done
  exact Selection.splits_ofPick (chooses.splits distinct)

end Selector

end UtxoLedger
