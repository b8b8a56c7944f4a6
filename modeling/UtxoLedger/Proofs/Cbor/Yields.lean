import UtxoLedger.Proofs.Cbor.Records
import UtxoLedger.Proofs.Cbor.Skip

/-!
# What decoders yield

A decoder yields values with a property when every value that it reads has
it, from whatever bytes. What the parts of a decoder yield decides what the
whole yields: lists and maps hold what their items are read as, and a record
keeps what each of its fields keeps.
-/

namespace UtxoLedger.Cbor

variable {α β : Type}

/-- Every value that the decoder reads has the property. -/
def Yields (decoder : Decoder α) (property : α → Prop) : Prop :=
  ∀ ⦃cursor value after⦄, decoder.run cursor = .ok (value, after) → property value

variable {decoder : Decoder α} {property : α → Prop} {result : β → Prop}

/-- What a whole byte string is decoded to has the property too. -/
theorem decodeFragment_yields [Codec α] (yields : Yields decode property) {bytes : Bytes}
    {value : α} (decoded : decodeFragment α bytes = .ok value) : property value := by
  unfold decodeFragment at decoded
  split at decoded
  next found after run =>
    split at decoded
    next =>
      cases decoded
      exact yields run
    next => cases decoded
  next => cases decoded

/-! ## Steps -/

theorem yields_true (decoder : Decoder α) : Yields decoder fun _ => True :=
  fun _ _ _ _ => trivial

theorem yields_pure {value : α} (holds : property value) : Yields (pure value) property := by
  intro cursor found after run
  cases run
  exact holds

theorem yields_fail (cause : Cause) : Yields (Decoder.fail cause) property := by
  intro cursor value after run
  cases run

theorem yields_failAt (place : Nat) (cause : Cause) :
    Yields (Decoder.failAt place cause) property := by
  intro cursor value after run
  cases run

theorem Yields.bind {next : α → Decoder β} (yields : Yields decoder property)
    (continues : ∀ value, property value → Yields (next value) result) :
    Yields (decoder >>= next) result := by
  intro cursor final after run
  obtain ⟨value, between, read, run⟩ := Decoder.run_bind_eq_ok.1 run
  exact continues value (yields read) run

/-- Nothing is known of what the first step reads. -/
theorem yields_bind {next : α → Decoder β} (continues : ∀ value, Yields (next value) result) :
    Yields (decoder >>= next) result := by
  intro cursor final after run
  obtain ⟨value, between, _, run⟩ := Decoder.run_bind_eq_ok.1 run
  exact continues value run

theorem Yields.map {change : α → β} (yields : Yields decoder property)
    (implies : ∀ value, property value → result (change value)) :
    Yields (change <$> decoder) result :=
  yields.bind fun value holds => yields_pure (implies value holds)

theorem yields_map {change : α → β} (holds : ∀ value, result (change value)) :
    Yields (change <$> decoder) result :=
  yields_bind fun value => yields_pure (holds value)

theorem yields_ite {condition : Prop} [Decidable condition] {left right : Decoder α}
    (yes : condition → Yields left property) (no : ¬ condition → Yields right property) :
    Yields (if condition then left else right) property := by
  split
  next holds => exact yes holds
  next fails => exact no fails

/-- A check lets through what it accepts. -/
theorem yields_orReject {ε : Type} {outcome : Except ε α} {place : Nat} {wording : ε → String}
    (accepts : ∀ value, outcome = .ok value → property value) :
    Yields (Decoder.orReject place wording outcome) property := by
  cases outcome with
  | ok value => exact yields_pure (accepts value rfl)
  | error error => exact yields_failAt _ _

/-! ## Lists, options and maps -/

theorem yields_times (yields : Yields decoder property) (count : Nat) :
    Yields (Decoder.times decoder count) fun items => ∀ item ∈ items, property item := by
  induction count with
  | zero => exact yields_pure (List.forall_mem_nil _)
  | succ count ih =>
      exact yields.bind fun first holds => ih.bind fun rest later =>
        yields_pure (List.forall_mem_cons.2 ⟨holds, later⟩)

theorem yields_untilStop (yields : Yields decoder property) :
    Yields (Decoder.untilStop decoder) fun items => ∀ item ∈ items, property item := by
  have within (fuel : Nat) : Yields (Decoder.untilStopWithin decoder fuel)
      fun items => ∀ item ∈ items, property item := by
    induction fuel with
    | zero => exact yields_fail _
    | succ fuel ih =>
        refine yields_bind fun first => yields_ite (fun _ => ?_) fun _ => ?_
        · exact yields_bind fun _ => yields_pure (List.forall_mem_nil _)
        · exact yields.bind fun first holds => ih.bind fun rest later =>
            yields_pure (List.forall_mem_cons.2 ⟨holds, later⟩)
  exact yields_bind fun left => within left

theorem yields_listOf (yields : Yields decoder property) :
    Yields (Decoder.listOf decoder) fun items => ∀ item ∈ items, property item := by
  refine yields_bind fun length => ?_
  cases length with
  | some count => exact yields_times yields count
  | none => exact yields_untilStop yields

/-- The keys of the entries of a map. -/
theorem yields_entriesOf {value : Decoder β} (yields : Yields decoder property) :
    Yields (Decoder.entriesOf decoder value) fun entries =>
      ∀ entry ∈ entries, property entry.1 := by
  have entry : Yields (do
      let key ← decoder
      let value ← value
      return (key, value)) fun entry : α × β => property entry.1 :=
    yields.bind fun _ holds => yields_bind fun _ => yields_pure holds
  refine yields_bind fun length => ?_
  cases length with
  | some count => exact yields_times entry count
  | none => exact yields_untilStop entry

section

variable [Codec α] [Codec β]

theorem yields_orderedMap [Ranked α] (yields : Yields decode property) :
    Yields (decode : Decoder (OrderedMap α β)) fun map =>
      ∀ entry ∈ map.entries, property entry.1 := by
  refine (yields_entriesOf yields).map fun entries holds entry member => ?_
  obtain ⟨other, listed, same⟩ := List.mem_map.1 (OrderedMap.mem_map_fst_of_mem_ofList member)
  rw [← same]
  exact holds other listed

theorem yields_wireSet (yields : Yields decode property) :
    Yields (decode : Decoder (WireSet α)) fun set => ∀ item ∈ set.items, property item := by
  have items (isTagged : Bool) : Yields (do return (⟨← decode, isTagged⟩ : WireSet α))
      fun set => ∀ item ∈ set.items, property item :=
    (yields_listOf yields).bind fun _ holds => yields_pure holds
  refine yields_bind fun kind => yields_ite (fun _ => ?_) fun _ => ?_
  · exact yields_bind fun _ => yields_bind fun isTagged => items isTagged
  · exact yields_bind fun isTagged => items isTagged

theorem yields_next (yields : Yields decode property) (index : Nat)
    (remaining : Positional.Remaining) :
    Yields (Positional.next index remaining) fun found : α × Positional.Remaining =>
      property found.1 := by
  cases remaining with
  | none =>
      refine yields_bind fun kind => yields_ite (fun _ => yields_fail _) fun _ => ?_
      exact yields.bind fun _ holds => yields_pure holds
  | some count =>
      cases count with
      | zero => exact yields_fail _
      | succ count => exact yields.bind fun _ holds => yields_pure holds

end

/-- An opaque item is exactly one. -/
theorem yields_rawItem : Yields (decode : Decoder RawItem) RawItem.IsSingle := by
  intro cursor item after run
  obtain ⟨bytes, between, read, run⟩ := Decoder.run_bind_eq_ok.1 run
  cases run
  exact RawItem.isSingle_of_rawItem read

/-! ## Keyed records -/

namespace Record

variable {ρ : Type} {record : Record ρ} {keeps : ρ → Prop}

/-- What every field keeps, the walk over the entries keeps. -/
theorem walkWithin_keeps {visit : Field → ρ → Decoder ρ} {layout : MapLayout}
    (step : ∀ field state, keeps state → Yields (visit field state) keeps) {fuel : Nat}
    {left : Option Nat} {seen : List Field} {state : ρ} {cursor : Cursor} (holds : keeps state) :
    keeps (layout.walkWithin visit fuel left seen state cursor).1 := by
  induction fuel generalizing left seen state cursor with
  | zero => exact holds
  | succ fuel ih =>
      unfold MapLayout.walkWithin
      split
      next => exact holds
      next => exact holds
      next =>
        split
        next => exact holds
        next field _ _ =>
          split
          next => exact holds
          next read => exact ih (step field state holds read)

theorem yields_visit
    (fields : ∀ entry ∈ record.entries, ∀ state, keeps state → Yields (entry.read state) keeps)
    (field : Field) (state : ρ) (holds : keeps state) :
    Yields (record.visit field state) keeps := by
  unfold visit
  split
  next entry found => exact fields entry (List.mem_of_find?_eq_some found) state holds
  next => exact yields_fail _

/-- What the first state has and every field keeps, the state that is read has. -/
theorem yields_decodeEntries {visit : Field → ρ → Decoder ρ} {layout : MapLayout} {blank : ρ}
    (start : keeps blank)
    (step : ∀ field state, keeps state → Yields (visit field state) keeps) :
    Yields (layout.decodeEntries visit blank) keeps := by
  intro cursor final after run
  unfold MapLayout.decodeEntries Decoder.run at run
  dsimp only at run
  have kept : keeps (layout.walk visit blank cursor).1 := by
    unfold MapLayout.walk
    split
    next => exact start
    next => exact walkWithin_keeps step start
  split at run
  next walked =>
    cases run
    rw [walked] at kept
    exact kept
  next => cases run

/-- A record keeps what the blank one has and every field keeps. -/
theorem yields_decode {blank : ρ} (start : keeps blank)
    (fields : ∀ entry ∈ record.entries, ∀ state, keeps state → Yields (entry.read state) keeps) :
    Yields (record.decode blank) keeps :=
  yields_decodeEntries start (yields_visit fields)

end Record

/-- Setting a mandatory field keeps what setting it to any value that is read keeps. -/
theorem yields_mandatory {ρ : Type} [Codec α] {keeps : ρ → Prop} {key : UInt64} {name : String}
    {get : ρ → α} {set : ρ → α → ρ} (yields : Yields decode property)
    (step : ∀ state found, keeps state → property found → keeps (set state found)) (state : ρ)
    (holds : keeps state) :
    Yields ((RecordEntry.mandatory key name get set).read state) keeps :=
  yields.map fun found read => step state found holds read

/-- Setting an optional field keeps what setting it to any value that is read keeps. -/
theorem yields_optional {ρ : Type} [Codec α] {keeps : ρ → Prop} {key : UInt64} {name : String}
    {get : ρ → Option α} {set : ρ → Option α → ρ} (yields : Yields decode property)
    (step : ∀ state found, keeps state → property found → keeps (set state (some found)))
    (state : ρ) (holds : keeps state) :
    Yields ((RecordEntry.optional key name get set).read state) keeps :=
  yields.map fun found read => step state found holds read

end UtxoLedger.Cbor
