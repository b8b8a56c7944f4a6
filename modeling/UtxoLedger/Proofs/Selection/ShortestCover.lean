import Mathlib.Data.Nat.Find
import UtxoLedger.Proofs.Selection.Soundness

/-!
# Largest first selects the shortest cover

The pool stands in a line by decreasing coin, and outputs of equal coin stand
as in the pool. The selection is the shortest front part of the line that
covers the total. The number of inputs is counted on the way there, so too
many are reported also where no front part covers the total at all.
-/

namespace UtxoLedger

open Utxo

namespace LargestFirst

/-! ## The line -/

/-- The line holds the pool by decreasing coin, outputs of equal coin in the order of the pool. -/
structure LinesUp (line pool : List Utxo) : Prop where
  perm : line.Perm pool
  descending : line.Pairwise fun first second =>
    second.output.amount.coin ≤ first.output.amount.coin
  stable : ∀ coin, line.filter (·.output.amount.coin = coin) =
    pool.filter (·.output.amount.coin = coin)

theorem linesUp_queue (pool : List Utxo) : LinesUp (queue pool) pool := by
  have trans (first second third : Utxo)
      (left : decide (second.output.amount.coin ≤ first.output.amount.coin) = true)
      (right : decide (third.output.amount.coin ≤ second.output.amount.coin) = true) :
      decide (third.output.amount.coin ≤ first.output.amount.coin) = true := by
    rw [decide_eq_true_eq] at left right ⊢
    exact UInt64.le_trans right left
  have total (first second : Utxo) :
      (decide (second.output.amount.coin ≤ first.output.amount.coin) ||
        decide (first.output.amount.coin ≤ second.output.amount.coin)) = true := by
    rw [Bool.or_eq_true, decide_eq_true_eq, decide_eq_true_eq]
    exact UInt64.le_total _ _
  refine ⟨List.mergeSort_perm pool _, ?_, fun coin => ?_⟩
  · exact (List.pairwise_mergeSort trans total pool).imp of_decide_eq_true
  · refine filter_mergeSort trans total pool fun first second left right => ?_
    rw [decide_eq_true_eq] at left right ⊢
    rw [left, right]
    exact UInt64.le_refl coin

theorem mem_iff_of_filter_coin {first second : List Utxo}
    (same : ∀ coin, first.filter (·.output.amount.coin = coin) =
      second.filter (·.output.amount.coin = coin)) (utxo : Utxo) :
    utxo ∈ first ↔ utxo ∈ second := by
  have members := congrArg (utxo ∈ ·) (same utxo.output.amount.coin)
  simpa using members

/-- Lines that agree coin by coin are the same. -/
theorem eq_of_filter_coin {first second : List Utxo}
    (left : first.Pairwise fun earlier later =>
      later.output.amount.coin ≤ earlier.output.amount.coin)
    (right : second.Pairwise fun earlier later =>
      later.output.amount.coin ≤ earlier.output.amount.coin)
    (same : ∀ coin, first.filter (·.output.amount.coin = coin) =
      second.filter (·.output.amount.coin = coin)) : first = second := by
  induction first generalizing second with
  | nil =>
      refine (List.eq_nil_iff_forall_not_mem.2 fun utxo member => ?_).symm
      exact List.not_mem_nil ((mem_iff_of_filter_coin same utxo).2 member)
  | cons head rest ih =>
      have listed := mem_iff_of_filter_coin same
      cases second with
      | nil => exact absurd ((listed head).1 List.mem_cons_self) List.not_mem_nil
      | cons other later =>
          rw [List.pairwise_cons] at left right
          have below : other.output.amount.coin ≤ head.output.amount.coin := by
            rcases List.mem_cons.1 ((listed other).2 List.mem_cons_self) with equal | member
            · exact equal ▸ UInt64.le_refl _
            · exact left.1 other member
          have above : head.output.amount.coin ≤ other.output.amount.coin := by
            rcases List.mem_cons.1 ((listed head).1 List.mem_cons_self) with equal | member
            · exact equal ▸ UInt64.le_refl _
            · exact right.1 head member
          have level := UInt64.le_antisymm below above
          have heads := same head.output.amount.coin
          rw [List.filter_cons_of_pos (by simp), List.filter_cons_of_pos (by simp [level]),
            List.cons.injEq] at heads
          obtain ⟨rfl, _⟩ := heads
          have onward : rest = later := by
            refine ih left.2 right.2 fun coin => ?_
            have both := same coin
            rw [List.filter_cons, List.filter_cons] at both
            split at both
            · exact (List.cons.inj both).2
            · exact both
          rw [onward]

theorem LinesUp.eq_queue {line pool : List Utxo} (lines : LinesUp line pool) :
    line = queue pool := by
  have queued := linesUp_queue pool
  exact eq_of_filter_coin lines.descending queued.descending fun coin =>
    (lines.stable coin).trans (queued.stable coin).symm

/-! ## The shortest cover -/

/-- No fewer outputs than a bound from the front of a line cover a total. -/
def NoneCovers (total : Value) (line : List Utxo) (bound : Nat) : Prop :=
  ∀ count < bound, total.atMost (Utxo.total (line.take count)) = false

instance (total : Value) (line : List Utxo) (bound : Nat) : Decidable (NoneCovers total line bound) :=
  inferInstanceAs (Decidable (∀ count < bound, total.atMost (Utxo.total (line.take count)) = false))

/-- The least number of outputs from the front of a line that cover a total, if any number does. -/
def IsLeastCover (total : Value) (line : List Utxo) : Option Nat → Prop
  | none => ∀ bound, NoneCovers total line bound
  | some least => total.atMost (Utxo.total (line.take least)) = true ∧ NoneCovers total line least

theorem exists_isLeastCover (total : Value) (line : List Utxo) :
    ∃ least, IsLeastCover total line least := by
  by_cases covered : ∃ count, total.atMost (Utxo.total (line.take count)) = true
  · refine ⟨some (Nat.find covered), Nat.find_spec covered, fun count fewer => ?_⟩
    exact Bool.eq_false_iff.2 (Nat.find_min covered fewer)
  · exact ⟨none, fun _ count _ => Bool.eq_false_iff.2 fun here => covered ⟨count, here⟩⟩

variable {request : SelectionRequest} {total : Value} {line : List Utxo} {least : Option Nat}

/-- The first number that covers the total is the least one. -/
theorem IsLeastCover.eq_some (shortest : IsLeastCover total line least) {count : Nat}
    (covered : total.atMost (Utxo.total (line.take count)) = true)
    (before : NoneCovers total line count) : least = some count := by
  cases least with
  | none => simp [shortest (count + 1) count count.lt_succ_self] at covered
  | some least =>
      obtain ⟨here, early⟩ := shortest
      rcases Nat.lt_trichotomy least count with less | rfl | more
      · simp [before least less] at here
      · rfl
      · simp [early count more] at covered

/-- A bound below which nothing covers the total is no more than the least number that does. -/
theorem IsLeastCover.le_of_eq_some {least : Nat} (shortest : IsLeastCover total line (some least))
    {bound : Nat} (before : NoneCovers total line bound) : bound ≤ least := by
  by_contra within
  have uncovered := before least (Nat.lt_of_not_le within)
  simp [shortest.1] at uncovered

/-- Where not even the whole line covers the total, there is no least number. -/
theorem IsLeastCover.eq_none (shortest : IsLeastCover total line least)
    (uncovered : NoneCovers total line (line.length + 1)) : least = none := by
  cases least with
  | none => rfl
  | some least =>
      have beyond := shortest.le_of_eq_some uncovered
      have whole := uncovered line.length (Nat.lt_succ_self _)
      rw [List.take_length, ← List.take_of_length_le (Nat.le_of_lt beyond), shortest.1] at whole
      cases whole

/-- How many outputs of a line are looked at. -/
def reached (line : List Utxo) (least : Option Nat) : Nat :=
  min (least.getD line.length) line.length

/-- Below a bound within which nothing covers the total everything is looked at. -/
theorem IsLeastCover.le_reached (shortest : IsLeastCover total line least) {bound : Nat}
    (before : NoneCovers total line bound) (inside : bound ≤ line.length) :
    bound ≤ reached line least := by
  cases least with
  | none => simpa [reached] using inside
  | some least => exact Nat.le_min.2 ⟨shortest.le_of_eq_some before, inside⟩

/-! ## Taking from the front -/

/-- How taking from the front of a line ends. -/
def ending (request : SelectionRequest) (line : List Utxo) (least : Option Nat) :
    Except SelectionError (List Utxo) :=
  match request.checkCount (reached line least) with
  | .error error => .error error
  | .ok () =>
      match least with
      | none => .error .insufficientBalance
      | some least => .ok (line.take least)

theorem ending_of_allows (room : request.Allows (reached line least)) :
    ending request line least =
      least.elim (.error .insufficientBalance) fun least => .ok (line.take least) := by
  unfold ending
  rw [(request.checkCount_eq_ok_iff _).2 room]
  cases least <;> rfl

theorem ending_of_lt {most : Nat} (limited : request.maxInputs = some most)
    (above : most < reached line least) :
    ending request line least = .error (.tooManyInputs most) := by
  unfold ending
  rw [(request.checkCount_eq_error_iff _ _).2 ⟨most, limited, above, rfl⟩]

/-- The balance is short only where nothing covers the total. -/
theorem eq_none_of_ending (short : ending request line least = .error .insufficientBalance) :
    least = none := by
  cases least with
  | none => rfl
  | some least =>
      unfold ending at short
      cases counted : request.checkCount (reached line (some least)) with
      | ok _ => simp [counted] at short
      | error error =>
          obtain ⟨most, _, _, rfl⟩ := (request.checkCount_eq_error_iff _ _).1 counted
          simp [counted] at short

/-- A front part that covers the total is what is taken when no shorter one does. -/
theorem ending_of_covered (shortest : IsLeastCover total line least) {taken rest : List Utxo}
    (split : line = taken ++ rest)
    (before : NoneCovers total line taken.length)
    (room : request.Allows taken.length) (covered : total.atMost (Utxo.total taken) = true) :
    ending request line least = .ok taken := by
  have front : line.take taken.length = taken := by rw [split, List.take_left]
  obtain rfl := shortest.eq_some (front.symm ▸ covered) before
  have looked : reached line (some taken.length) = taken.length := Nat.min_eq_left (by simp [split])
  rw [ending_of_allows (looked.symm ▸ room), Option.elim_some, front]

/-- With what is taken ruled out, the bound is one more. -/
theorem NoneCovers.succ {taken rest : List Utxo} (before : NoneCovers total line taken.length)
    (split : line = taken ++ rest) (uncovered : ¬ total.atMost (Utxo.total taken) = true) :
    NoneCovers total line (taken.length + 1) := by
  intro fewer within
  rcases Nat.lt_succ_iff_lt_or_eq.1 within with less | rfl
  · exact before fewer less
  · rw [split, List.take_left]
    exact Bool.eq_false_iff.2 uncovered

/-- What is taken follows the line until it covers the total: no front part before it does. -/
theorem take_eq_ending (shortest : IsLeastCover total line least) {taken rest : List Utxo}
    (split : line = taken ++ rest)
    (before : NoneCovers total line taken.length)
    (room : request.Allows taken.length) :
    take request total taken rest = ending request line least := by
  induction rest generalizing taken with
  | nil =>
      unfold take
      by_cases covered : total.atMost (Utxo.total taken) = true
      · rw [if_pos covered, ending_of_covered shortest split before room covered]
      · have whole : line.length = taken.length := by simp [split]
        obtain rfl := shortest.eq_none (whole ▸ before.succ split covered)
        have looked : reached line none = taken.length := by simp [reached, whole]
        rw [if_neg covered, ending_of_allows (looked.symm ▸ room)]
        rfl
  | cons next rest ih =>
      unfold take
      by_cases covered : total.atMost (Utxo.total taken) = true
      · rw [if_pos covered, ending_of_covered shortest split before room covered]
      · rw [if_neg covered]
        cases counted : request.checkCount (taken.length + 1) with
        | error error =>
            obtain ⟨most, limited, above, rfl⟩ := (request.checkCount_eq_error_iff _ _).1 counted
            have further := shortest.le_reached (before.succ split covered) (by simp [split])
            exact (ending_of_lt limited (by omega)).symm
        | ok _ =>
            have longer : (taken ++ [next]).length = taken.length + 1 := by simp
            have onward : line = (taken ++ [next]) ++ rest := by simp [split]
            have allowed := (request.checkCount_eq_ok_iff _).1 counted
            exact ih onward (longer ▸ before.succ split covered) (longer ▸ allowed)

end LargestFirst

open LargestFirst

/-! ## Whole selections -/

namespace Selector

section

variable {parameters : ProtocolParameters} {request : SelectionRequest} {line pool : List Utxo}
  {least : Option Nat}

/-- What largest first selects is what is taken from the front of the line. -/
theorem select_largestFirst_eq (lines : LinesUp line pool)
    (shortest : IsLeastCover (request.total parameters) line least)
    (plain : request.respectsMinimum = false) :
    (largestFirst.select parameters request pool).1 =
      (ending request line least).map fun taken =>
        .ofPick request (request.total parameters)
          ⟨taken, pool.filter fun utxo => ¬ utxo ∈ taken⟩ := by
  have taken : take request (request.total parameters) [] (queue pool) =
      ending request line least :=
    lines.eq_queue ▸ take_eq_ending shortest (List.nil_append line).symm
      (fun fewer less => absurd less (Nat.not_lt_zero fewer)) (fun most _ => Nat.zero_le most)
  rw [select_of_plain plain]
  change (LargestFirst.pick request (request.total parameters) pool).map _ = _
  unfold LargestFirst.pick
  rw [taken]
  cases ending request line least <;> rfl

/-- The balance is short only where the whole pool does not hold what is asked for. -/
theorem not_cover_of_insufficientBalance (plain : request.respectsMinimum = false)
    (all : Nonnegative pool)
    (short : (largestFirst.select parameters request pool).1 = .error .insufficientBalance) :
    ¬ Cover pool (request.total parameters) := by
  intro cover
  have lines := linesUp_queue pool
  obtain ⟨least, shortest⟩ := exists_isLeastCover (request.total parameters) (queue pool)
  rw [select_largestFirst_eq lines shortest plain] at short
  cases ended : ending request (queue pool) least with
  | ok taken => rw [ended] at short; cases short
  | error error =>
      rw [ended] at short
      cases short
      obtain rfl := eq_none_of_ending ended
      have uncovered := shortest _ (queue pool).length (Nat.lt_succ_self _)
      rw [List.take_length, ← total_perm lines.perm.symm all, (atMost_total_iff all).2 cover]
        at uncovered
      cases uncovered

/-- Largest first selects the shortest front part of the line that covers the total. When there is
none the balance is short, and there are too many inputs as soon as more are looked at than the
request allows. -/
theorem select_largestFirst (lines : LinesUp line pool)
    (shortest : IsLeastCover (request.total parameters) line least)
    (plain : request.respectsMinimum = false) :
    (∀ most, request.maxInputs = some most → most < min (least.getD pool.length) pool.length →
      (largestFirst.select parameters request pool).1 = .error (.tooManyInputs most)) ∧
    (request.Allows (min (least.getD pool.length) pool.length) →
      (least = none →
        (largestFirst.select parameters request pool).1 = .error .insufficientBalance) ∧
      ∀ count, least = some count → ∃ selection,
        (largestFirst.select parameters request pool).1 = .ok selection ∧
        selection.selected = Ranked.sort (line.take count)) ∧
    (Nonnegative pool →
      (largestFirst.select parameters request pool).1 = .error .insufficientBalance →
      ¬ Cover pool (request.total parameters)) := by
  have looked : min (least.getD pool.length) pool.length = reached line least := by
    rw [reached, lines.perm.length_eq]
  have selects := select_largestFirst_eq lines shortest plain
  refine ⟨fun most limited above => ?_, fun room => ⟨?_, ?_⟩,
    not_cover_of_insufficientBalance plain⟩
  · rw [selects, ending_of_lt limited (looked ▸ above)]
    rfl
  · rintro rfl
    rw [selects, ending_of_allows (looked ▸ room)]
    rfl
  · rintro count rfl
    rw [selects, ending_of_allows (looked ▸ room)]
    exact ⟨_, rfl, rfl⟩

end

/-! ### Outputs of equal coin -/

namespace Tied

def pool : List Utxo :=
  [Sample.utxo 1 2000000 0, Sample.utxo 2 7000000 0, Sample.utxo 0 2000000 5]

/-- The first output of the pool stands before the last one. -/
def line : List Utxo :=
  [Sample.utxo 2 7000000 0, Sample.utxo 1 2000000 0, Sample.utxo 0 2000000 5]

def request : SelectionRequest where
  outputs := [.plain Sample.address (.ofCoin 8000000)]
  maxInputs := some 2
  includesMaxFee := false
  respectsMinimum := false
  existing := .zero

theorem linesUp : LinesUp line pool := by
  have queued : queue pool = line := by
    simp [queue, pool, line, List.mergeSort, List.MergeSort.Internal.splitInTwo, Sample.utxo,
      TransactionOutput.plain]
  exact queued ▸ linesUp_queue pool

theorem sort_taken :
    Ranked.sort (line.take 2) = [Sample.utxo 1 2000000 0, Sample.utxo 2 7000000 0] := by
  have after : Ranked.atMost (Sample.utxo 2 7000000 0) (Sample.utxo 1 2000000 0) = false := by
    decide
  simp [Ranked.sort, line, List.mergeSort, List.MergeSort.Internal.splitInTwo, after]

end Tied

/-- Of two outputs of equal coin the first one of the pool is taken, and what is taken is listed
by name. -/
theorem select_largestFirst_tied :
    LinesUp Tied.line Tied.pool ∧
    IsLeastCover (Tied.request.total .preset) Tied.line (some 2) ∧
    ∃ selection, (largestFirst.select .preset Tied.request Tied.pool).1 = .ok selection ∧
      selection.selected = [Sample.utxo 1 2000000 0, Sample.utxo 2 7000000 0] := by
  have shortest : IsLeastCover (Tied.request.total .preset) Tied.line (some 2) :=
    ⟨by decide, by decide⟩
  have room : Tied.request.Allows (min ((some 2).getD Tied.pool.length) Tied.pool.length) :=
    (Tied.request.checkCount_eq_ok_iff _).1 rfl
  obtain ⟨_, ends, _⟩ := select_largestFirst Tied.linesUp shortest rfl
  obtain ⟨selection, done, selected⟩ := (ends room).2 2 rfl
  exact ⟨Tied.linesUp, shortest, selection, done, selected.trans Tied.sort_taken⟩

end Selector

end UtxoLedger
