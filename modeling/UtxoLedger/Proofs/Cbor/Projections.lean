import UtxoLedger.Cbor.Record

/-!
# Readers that keep more

Two readers may go over the same bytes and keep different things of them.
Where what the first keeps is made of what the second keeps, this is also
true of the lists, maps and records that they read: one run tells the other.
-/

namespace UtxoLedger.Cbor

variable {α β γ : Type}

instance : LawfulMonad Decoder :=
  .mk' _
    (fun decoder => by
      funext cursor
      change (match decoder cursor with
        | .ok (value, after) => .ok (value, after)
        | .error error => .error error) = decoder cursor
      cases decoder cursor <;> rfl)
    (fun _ _ => rfl)
    (fun decoder next last => by
      funext cursor
      change (match (match decoder cursor with
          | .ok (value, after) => next value after
          | .error error => .error error) with
        | .ok (value, after) => last value after
        | .error error => .error error) =
        (match decoder cursor with
        | .ok (value, after) => (next value >>= last) after
        | .error error => .error error)
      cases decoder cursor <;> rfl)

namespace Decoder

theorem run_map (change : α → β) (decoder : Decoder α) (cursor : Cursor) :
    (change <$> decoder).run cursor = (decoder.run cursor).map (Prod.map change id) := by
  change (decoder >>= fun value => pure (change value)).run cursor = _
  rw [run_bind]
  cases decoder.run cursor <;> rfl

theorem run_map_eq_ok {change : α → β} {decoder : Decoder α} {cursor after : Cursor} {result : β} :
    (change <$> decoder).run cursor = .ok (result, after) ↔
      ∃ value, decoder.run cursor = .ok (value, after) ∧ change value = result := by
  constructor
  · intro run
    obtain ⟨value, between, read, run⟩ := run_bind_eq_ok.1 run
    cases run
    exact ⟨value, read, rfl⟩
  · rintro ⟨value, read, rfl⟩
    exact run_bind_eq_ok.2 ⟨value, after, read, rfl⟩

variable {change : α → β} {item : Decoder α}

theorem times_map (count : Nat) :
    times (change <$> item) count = List.map change <$> times item count := by
  induction count with
  | zero => simp [times]
  | succ count ih => simp [times, ih]

theorem untilStop_map : untilStop (change <$> item) = List.map change <$> untilStop item := by
  have within (fuel : Nat) : untilStopWithin (change <$> item) fuel =
      List.map change <$> untilStopWithin item fuel := by
    induction fuel with
    | zero => rfl
    | succ fuel ih =>
        simp only [untilStopWithin, map_bind, ih]
        refine bind_congr fun first => ?_
        split <;> simp
  simp [untilStop, within]

/-- The entries of a map are rewritten when their values are. -/
theorem entriesOf_map {key : Decoder γ} :
    entriesOf key (change <$> item) =
      List.map (Prod.map id change) <$> entriesOf key item := by
  have entry : (do
      let name ← key
      let value ← change <$> item
      return (name, value)) = Prod.map id change <$> (do
        let name ← key
        let value ← item
        return (name, value)) := by
    simp
  rw [entriesOf, entriesOf, map_bind, entry]
  apply bind_congr
  intro length
  cases length with
  | some count => exact times_map count
  | none => exact untilStop_map

end Decoder

/-! ## Records -/

namespace MapLayout

variable {σ τ : Type} {layout : MapLayout} {project : σ → τ} {keep : Field → τ → Decoder τ}
  {keepMore : Field → σ → Decoder σ}

theorem walkWithin_project
    (simulates : ∀ field state, keep field (project state) = project <$> keepMore field state)
    (fuel : Nat) (left : Option Nat) (seen : List Field) (state : σ) (cursor : Cursor) :
    layout.walkWithin keep fuel left seen (project state) cursor =
      Prod.map project id (layout.walkWithin keepMore fuel left seen state cursor) := by
  induction fuel generalizing left seen state cursor with
  | zero => rfl
  | succ fuel ih =>
      rw [walkWithin, walkWithin]
      cases (atEnd left).run cursor with
      | error error => rfl
      | ok found =>
          obtain ⟨ended, after⟩ := found
          cases ended with
          | true => rfl
          | false =>
              dsimp only
              cases (layout.decodeKey seen).run after with
              | error error => rfl
              | ok found =>
                  obtain ⟨field, afterKey⟩ := found
                  dsimp only
                  rw [simulates, Decoder.run_map]
                  cases (keepMore field state).run afterKey with
                  | error error => rfl
                  | ok found =>
                      obtain ⟨next, afterValue⟩ := found
                      exact ih (left.map (· - 1)) (field :: seen) next afterValue

/-- A reader of a record that keeps what another one keeps of every field keeps what the other one
keeps of the record. -/
theorem decodeEntries_project
    (simulates : ∀ field state, keep field (project state) = project <$> keepMore field state)
    (state : σ) :
    layout.decodeEntries keep (project state) =
      project <$> layout.decodeEntries keepMore state := by
  funext cursor
  have same : layout.walk keep (project state) cursor =
      Prod.map project id (layout.walk keepMore state cursor) := by
    unfold walk
    cases Decoder.map.run cursor with
    | error error => rfl
    | ok found => exact walkWithin_project simulates _ _ _ _ _
  change layout.decodeEntries keep (project state) cursor =
    (project <$> layout.decodeEntries keepMore state).run cursor
  rw [Decoder.run_map, decodeEntries, same, Decoder.run, decodeEntries]
  generalize layout.walk keepMore state cursor = walked
  obtain ⟨final, outcome⟩ := walked
  cases outcome <;> rfl

end MapLayout

end UtxoLedger.Cbor
