/-!
# Outcomes

When a computation that may fail succeeds: each of its steps succeeded, and
a change of the error or of the value does not matter.
-/

namespace Except

variable {ε α β : Type}

theorem bind_eq_ok {first : Except ε α} {next : α → Except ε β} {value : β} :
    first.bind next = .ok value ↔ ∃ middle, first = .ok middle ∧ next middle = .ok value := by
  cases first <;> simp [Except.bind]

theorem map_eq_ok {first : Except ε α} {change : α → β} {value : β} :
    first.map change = .ok value ↔ ∃ middle, first = .ok middle ∧ change middle = value := by
  cases first <;> simp [Except.map]

theorem mapError_eq_ok {ε' : Type} {first : Except ε α} {change : ε → ε'} {value : α} :
    first.mapError change = .ok value ↔ first = .ok value := by
  cases first with
  | error error => exact ⟨nofun, nofun⟩
  | ok found =>
      constructor
      · exact fun same => congrArg Except.ok (Except.ok.inj same)
      · exact fun same => congrArg Except.ok (Except.ok.inj same)

theorem toOption_eq_some {outcome : Except ε α} {value : α} :
    outcome.toOption = some value ↔ outcome = .ok value := by
  cases outcome <;> simp [Except.toOption]

theorem isSome_toOption_iff {outcome : Except ε α} :
    outcome.toOption.isSome = true ↔ ∃ value, outcome = .ok value := by
  cases outcome <;> simp [Except.toOption]

theorem exists_map_iff {first : Except ε α} {change : α → β} :
    (∃ value, change <$> first = .ok value) ↔ ∃ value, first = .ok value := by
  cases first with
  | error error => exact ⟨nofun, nofun⟩
  | ok found => exact ⟨fun _ => ⟨found, rfl⟩, fun _ => ⟨change found, rfl⟩⟩

/-- Whether the second step succeeds does not depend on what the first one gave. -/
theorem exists_bind_iff {first : Except ε α} {next : α → Except ε β} {succeeds : Prop}
    (later : ∀ found, (∃ value, next found = .ok value) ↔ succeeds) :
    (∃ value, first >>= next = .ok value) ↔ (∃ found, first = .ok found) ∧ succeeds := by
  cases first with
  | error error => exact ⟨nofun, fun ⟨succeeds, _⟩ => nomatch succeeds⟩
  | ok found => exact (later found).trans ⟨fun holds => ⟨⟨found, rfl⟩, holds⟩, And.right⟩

/-- What every step of a list computation that succeeds makes of its item is what the whole
computation makes of the list. -/
theorem eq_map_of_mapM {step : α → Except ε β} {make : α → β}
    (makes : ∀ item made, step item = .ok made → made = make item) {items : List α}
    {results : List β} (done : items.mapM step = .ok results) : results = items.map make := by
  induction items generalizing results with
  | nil => exact (ok.inj done).symm
  | cons first rest ih =>
      rw [List.mapM_cons] at done
      obtain ⟨made, here, done⟩ := bind_eq_ok.1 done
      obtain ⟨others, later, done⟩ := bind_eq_ok.1 done
      rw [← ok.inj done, makes first made here, ih later]
      rfl

end Except
