import UtxoLedger.Cbor.Item

/-!
# What a walk still owes

A walk has three ways to keep the account of the items it owes: a count, a
number of open containers, and a stack of levels. All of them tell levels, the
innermost first: how many items are left behind the one in progress, or none
when the level goes on up to a stop byte. Reading an item and opening or closing
a container change the levels in the same way however they are kept, as long as
the items are well-formed.
-/

namespace UtxoLedger.Cbor.Pending

variable {count extra limit items opened length : Nat} {pending : Pending} {place : Option Pending}
  {before behind outer : List (Option Nat)}

/-- The levels behind an item. -/
def settled : List (Option Nat) → List (Option Nat)
  | [] => []
  | none :: outer => none :: outer
  | some 0 :: outer => settled outer
  | some (count + 1) :: outer => some count :: outer

/-- Behind a number of items the levels are others, and they are not over before. -/
inductive Takes : (count : Nat) → (before behind : List (Option Nat)) → Prop where
  | none {levels : List (Option Nat)} : Takes 0 levels levels
  | next {count : Nat} {before behind : List (Option Nat)} (goes : before ≠ [])
      (later : Takes count (settled before) behind) : Takes (count + 1) before behind

/-- The levels that are told by a count of items and one of open containers. -/
def counted : (items opened : Nat) → List (Option Nat)
  | 0, opened => List.replicate opened none
  | items + 1, opened => some items :: List.replicate opened none

/-- A walk is at some levels, with at most `limit` items counted without a stack. -/
inductive IsAt (limit : Nat) : (levels : List (Option Nat)) → Option Pending → Prop where
  | ended : IsAt limit [] none
  | counts {items opened : Nat} (few : items ≤ limit) :
      IsAt limit (counted items opened) (some ⟨items, opened, []⟩)
  | stack {levels : List (Option Nat)} : IsAt limit levels (some ⟨0, 0, levels⟩)

/-! ## Levels -/

theorem Takes.trans {middle : List (Option Nat)} (first : Takes count before middle)
    (second : Takes extra middle behind) : Takes (count + extra) before behind := by
  induction first with
  | none => rwa [Nat.zero_add]
  | next goes _ ih =>
      rw [Nat.add_right_comm]
      exact .next goes (ih second)

/-- Fewer items than a level owes leave it in progress. -/
theorem takes_within (count extra : Nat) (outer : List (Option Nat)) :
    Takes count (some (count + extra) :: outer) (some extra :: outer) := by
  induction count with
  | zero =>
      rw [Nat.zero_add]
      exact .none
  | succ count ih =>
      rw [Nat.add_right_comm]
      exact .next (List.cons_ne_nil _ _) ih

/-- One item more ends what was added to a level. -/
theorem takes_added (count extra : Nat) (outer : List (Option Nat)) :
    Takes (count + 1) (some (count + extra) :: outer) (settled (some extra :: outer)) :=
  (takes_within count extra outer).trans (.next (List.cons_ne_nil _ _) .none)

/-- A level that goes on up to a stop byte takes any number of items. -/
theorem takes_open (count : Nat) (outer : List (Option Nat)) :
    Takes count (none :: outer) (none :: outer) := by
  induction count with
  | zero => exact .none
  | succ count ih => exact .next (List.cons_ne_nil _ _) ih

theorem settled_opened (opened : Nat) :
    settled (List.replicate opened none) = List.replicate opened none := by
  cases opened <;> rfl

theorem settled_counted (items opened : Nat) :
    settled (counted items opened) = counted (items - 1) opened := by
  match items with
  | 0 | 1 => exact settled_opened opened
  | items + 2 => rfl

/-- Items that are added to counts are owed before the item that they stand in is read. -/
theorem takes_counted (extra : Nat) (goes : counted items opened ≠ []) :
    Takes (extra + 1) (counted (items + extra) opened) (settled (counted items opened)) := by
  match items, opened with
  | 0, 0 => exact absurd rfl goes
  | 0, opened + 1 =>
      -- One of the items is not counted, but the level below takes it.
      match extra with
      | 0 => exact takes_open 1 _
      | extra + 1 =>
          rw [Nat.zero_add]
          exact (takes_added extra 0 _).trans (takes_open 1 _)
  | items + 1, opened =>
      rw [Nat.add_right_comm, Nat.add_comm items]
      exact takes_added extra items _

/-! ## Places -/

theorem IsAt.mono {few : Nat} (isAt : IsAt few before place) (le : few ≤ limit) :
    IsAt limit before place := by
  cases isAt with
  | ended => exact .ended
  | counts fewer => exact .counts (Nat.le_trans fewer le)
  | stack => exact .stack

/-- A walk that is not over goes on. -/
theorem IsAt.goes_on (isAt : IsAt limit before place) (goes : before ≠ []) :
    ∃ pending, place = some pending ∧ pending.isDone = false := by
  cases isAt with
  | ended => exact absurd rfl goes
  | @counts items opened _ =>
      refine ⟨_, rfl, ?_⟩
      match items, opened with
      | 0, 0 => exact absurd rfl goes
      | 0, _ + 1 | _ + 1, _ => rfl
  | stack =>
      refine ⟨_, rfl, ?_⟩
      match before with
      | [] => exact absurd rfl goes
      | _ :: _ => rfl

/-- A walk without levels is over. -/
theorem IsAt.is_over (isAt : IsAt limit [] (some pending)) : pending.isDone = true := by
  generalize none : [] = levels at isAt
  cases isAt with
  | @counts items opened _ =>
      match items, opened with
      | 0, 0 => rfl
      | 0, _ + 1 | _ + 1, _ => cases none
  | stack =>
      cases none
      rfl

theorem isAt_settle_stack (limit : Nat) (enclosing : List (Option Nat)) :
    IsAt limit (settled enclosing) (settle ⟨0, 0, enclosing⟩) := by
  induction enclosing with
  | nil => exact .ended
  | cons level outer ih =>
      match level with
      | none => exact .stack
      | some 0 => exact ih
      | some (count + 1) => exact .stack

/-! ## Steps -/

/-- An item changes the levels as it should. -/
theorem IsAt.settle (isAt : IsAt (limit + 1) before (some pending)) (goes : before ≠ []) :
    IsAt limit (settled before) pending.settle := by
  cases isAt with
  | @counts items opened few =>
      rw [settled_counted]
      match items, opened with
      | 0, 0 => exact absurd rfl goes
      | 0, _ + 1 => exact .counts (Nat.zero_le limit)
      | items + 1, _ => exact .counts (Nat.le_of_succ_le_succ few)
  | stack => exact isAt_settle_stack limit before

/-- The items in a container are owed before what is owed behind it. -/
theorem IsAt.openDefinite (isAt : IsAt (limit + 1) before (some pending)) (goes : before ≠ [])
    (small : limit + 1 + length < bound64) :
    ∃ inside, IsAt (length + limit) inside (pending.openDefinite length).settle ∧
      Takes length inside (settled before) := by
  cases length with
  | zero =>
      rw [Nat.zero_add]
      exact ⟨_, isAt.settle goes, .none⟩
  | succ length =>
      cases isAt with
      | @counts items opened few =>
          have capped : Pending.capped (items + (length + 1)) = items + length + 1 :=
            Nat.min_eq_left (by omega)
          have counts : (⟨items, opened, []⟩ : Pending).isLevelDone = false := by
            match items, opened with
            | 0, 0 => exact absurd rfl goes
            | 0, _ + 1 | _ + 1, _ => rfl
          have opens : (⟨items, opened, []⟩ : Pending).openDefinite (length + 1) =
              ⟨items + length + 1, opened, []⟩ := by
            unfold Pending.openDefinite
            rw [if_neg (Nat.succ_ne_zero length), if_neg (by rw [counts]; exact Bool.false_ne_true),
              capped]
          rw [opens]
          exact ⟨_, @IsAt.counts _ (items + length) opened (by omega), takes_counted length goes⟩
      | stack => exact ⟨some length :: before, .stack, takes_added length 0 before⟩

/-- In a container that goes on up to a stop byte nothing else is owed. -/
theorem IsAt.openIndefinite (isAt : IsAt limit before (some pending)) (goes : before ≠ []) :
    ∃ outer, IsAt 0 (none :: outer) pending.openIndefinite.settle ∧
      settled outer = settled before := by
  cases isAt with
  | @counts items opened few =>
      match items, opened with
      | 0, 0 => exact absurd rfl goes
      | 0, opened + 1 =>
          have isAt : IsAt 0 (counted 0 (opened + 2)) _ := .counts (Nat.le_refl 0)
          exact ⟨List.replicate (opened + 1) none, isAt, rfl⟩
      | 1, opened =>
          refine ⟨List.replicate opened none, @IsAt.counts 0 0 (opened + 1) (Nat.le_refl 0), ?_⟩
          rw [settled_counted, settled_opened]
          rfl
      | items + 2, opened =>
          refine ⟨some (items + 1) :: (List.replicate opened none ++ []), .stack, ?_⟩
          rw [List.append_nil]
          rfl
  | stack => exact ⟨before, .stack, rfl⟩

/-- A stop byte ends the container that it stands in. -/
theorem IsAt.close (isAt : IsAt 0 (none :: outer) (some pending)) :
    IsAt limit (settled outer) pending.close.settle := by
  generalize shape : none :: outer = levels at isAt
  cases isAt with
  | @counts items opened few =>
      match items, opened with
      | 0, 0 => cases shape
      | 0, opened + 1 =>
          cases shape
          rw [settled_opened]
          match opened with
          | 0 => exact .ended
          | opened + 1 => exact @IsAt.counts limit 0 (opened + 1) (Nat.zero_le limit)
      | items + 1, opened => cases shape
  | stack =>
      cases shape
      exact isAt_settle_stack limit outer

/-! ## How many items are owed -/

/-- The items left in the containers of a stack. -/
def stacked : (enclosing : List (Option Nat)) → Nat
  | [] => 0
  | level :: outer => level.getD 0 + stacked outer

/-- The items that are counted, as far as a word can, or left in the stack. -/
def owed (pending : Pending) : Nat := capped pending.items + stacked pending.enclosing

/-- A walk that is over owes nothing. -/
def owedAt : Option Pending → Nat
  | none => 0
  | some pending => pending.owed

theorem stacked_cons (level : Option Nat) (outer : List (Option Nat)) :
    stacked (level :: outer) = level.getD 0 + stacked outer := rfl

theorem stacked_dropWhile (enclosing : List (Option Nat)) :
    stacked (enclosing.dropWhile (· = some 0)) = stacked enclosing := by
  induction enclosing with
  | nil => rfl
  | cons level outer ih =>
      rw [List.dropWhile_cons]
      split
      next ended =>
        rw [ih, stacked_cons, of_decide_eq_true ended]
        exact (Nat.zero_add _).symm
      next => rfl

theorem stacked_opened (opened : Nat) (enclosing : List (Option Nat)) :
    stacked (List.replicate opened none ++ enclosing) = stacked enclosing := by
  induction opened with
  | zero => rfl
  | succ opened ih => exact (Nat.zero_add _).trans ih

theorem owed_of_isDone (done : pending.isDone = true) : pending.owed = 0 := by
  obtain ⟨items, opened, enclosing⟩ := pending
  simp only [isDone, Bool.and_eq_true, decide_eq_true_eq, List.isEmpty_iff] at done
  obtain ⟨⟨rfl, -⟩, rfl⟩ := done
  rfl

/-- An item lowers what is owed by at most one. -/
theorem owed_le_settle (pending : Pending) : pending.owed ≤ owedAt pending.settle + 1 := by
  obtain ⟨items, opened, enclosing⟩ := pending
  have same := stacked_dropWhile enclosing
  unfold Pending.settle
  split
  next done =>
    simp only [isLevelDone, Bool.and_eq_true, decide_eq_true_eq] at done
    obtain ⟨rfl, rfl⟩ := done
    simp only [owed, capped, Nat.zero_min, Nat.zero_add, ← same]
    split
    next none =>
      rw [none]
      exact Nat.zero_le 1
    next count outer left =>
      rw [left, stacked_cons]
      simp only [owedAt, owed, capped, stacked_cons, Option.getD_some]
      omega
    next outer left =>
      rw [left]
      simp only [owedAt, owed, capped]
      omega
  next =>
    simp only [owedAt, owed, capped]
    omega

theorem owed_le_openDefinite (length : Nat) (pending : Pending) :
    pending.owed ≤ (pending.openDefinite length).owed := by
  unfold Pending.openDefinite
  split
  next => exact Nat.le_refl _
  next =>
    split
    next =>
      simp only [owed, stacked_cons]
      omega
    next =>
      simp only [owed, capped]
      omega

theorem owed_le_openIndefinite (pending : Pending) :
    pending.owed ≤ owedAt pending.openIndefinite.settle + 1 := by
  unfold Pending.openIndefinite
  split
  next =>
    have same := owed_le_settle { pending with enclosing := none :: pending.enclosing }
    unfold owed at same
    rw [stacked_cons, Option.getD_none, Nat.zero_add] at same
    exact same
  next =>
    split
    next => exact owed_le_settle { pending with opened := pending.opened + 1 }
    next =>
      -- The count moves to the stack, less the item in progress.
      change pending.owed ≤ 0 + stacked (_ :: _ :: _) + 1
      rw [stacked_cons, stacked_cons, stacked_opened]
      simp only [owed, capped, Option.getD_none, Option.getD_some]
      omega

theorem owed_close (pending : Pending) : pending.close.owed = pending.owed := by
  unfold Pending.close
  split
  next =>
    split
    next outer left => simp only [owed, left, stacked_cons, Option.getD_none, Nat.zero_add]
    next => rfl
  next => rfl

end UtxoLedger.Cbor.Pending
