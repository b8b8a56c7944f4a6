import UtxoLedger.Chain.Context
import UtxoLedger.Failure
import UtxoLedger.Metadata.Basic
import UtxoLedger.Selection.Basic

/-!
# Builds and their traces

A build goes through steps that may fail and reports what happens on the way.
The report is a list of events; the events before a failure are kept.
-/

namespace UtxoLedger

/-- What is missing or left over when the amounts of a transaction do not balance. -/
inductive Shortage where
  | coin (provided requested : UInt64)
  | assets (missing : MultiAsset)
  /-- There are assets to give back and no address for them. -/
  | leftover (assets : MultiAsset)
  /-- The coin left over is below the fee. -/
  | fee (surplus estimate : UInt64)
  deriving DecidableEq

namespace Shortage

def message : Shortage → String
  | coin provided requested => s!"{provided} lovelace provided, {requested} requested"
  | assets missing => s!"missing assets {missing.debug}"
  | leftover rest => s!"assets {rest.debug} left without a change address"
  | fee surplus estimate => s!"{surplus} lovelace left for a fee of {estimate}"

end Shortage

/-- Why a transaction was not built. -/
inductive BuildError where
  | selection (error : SelectionError)
  | metadata (error : MetadataError)
  | chain (error : ChainError)
  | sizeExceeded (size most : UInt64)
  | insufficientFunds (shortage : Shortage)
  | insufficientChange (available required : UInt64)
  | outputBelowMinimum (place : Nat) (coin required : UInt64)
  /-- An input was given and excluded. -/
  | inputConflict (input : TransactionInput)
  | treasuryDonation
  | noInputs

namespace BuildError

def message : BuildError → String
  | selection error => error.message
  | metadata error => error.message
  | chain error => error.message
  | sizeExceeded size most =>
      s!"transaction size {size} exceeds the max limit {most} by {size - most} bytes"
  | insufficientFunds shortage => s!"inputs can't cover outputs and fee: {shortage.message}"
  | insufficientChange available required =>
      s!"not enough coin left for change: {available} available, {required} required"
  | outputBelowMinimum place coin required =>
      s!"output #{place} carries {coin} lovelace, the minimum is {required}"
  | inputConflict input => s!"UTxO {input.text} is both an input and excluded"
  | treasuryDonation => "treasury donation must be positive"
  | noInputs => "no inputs to spend and no address to select from"

instance : Failure BuildError where
  name
    | selection error => Failure.name error
    | metadata error => Failure.name error
    | chain error => Failure.name error
    | sizeExceeded _ _ => "Builder.SizeExceeded"
    | insufficientFunds _ => "Builder.InsufficientFunds"
    | insufficientChange _ _ => "Builder.InsufficientChange"
    | outputBelowMinimum _ _ _ => "Builder.OutputBelowMinimum"
    | inputConflict _ => "Builder.InputConflict"
    | treasuryDonation => "Builder.TreasuryDonation"
    | noInputs => "Builder.NoInputs"
  message := message

end BuildError

inductive BuildStage where
  | accumulating
  | balancing
  | finalized
  deriving DecidableEq, Repr

def BuildStage.name : BuildStage → String
  | .accumulating => "accumulating"
  | .balancing => "balancing"
  | .finalized => "finalized"

/-- What happens in the course of a build. -/
inductive BuildEvent where
  | stage (stage : BuildStage)
  /-- A selector is asked to select from a pool. -/
  | attempt (selector : String) (poolSize : Nat)
  | failure (selector : String) (error : SelectionError)
  /-- An estimate of the fee; passes are counted from one. -/
  | feePass (pass : Nat) (size fee : UInt64)
  | change (amount : Value)
  | balanced (size fee : UInt64)
  deriving DecidableEq

/-- The events of a part of a build and its outcome. -/
structure Traced (α : Type) where
  events : List BuildEvent
  result : Except BuildError α

namespace Traced

variable {α β : Type}

/-- No event and a result. -/
def ofExcept (result : Except BuildError α) : Traced α := ⟨[], result⟩

/-- One event. -/
def emit (event : BuildEvent) : Traced Unit := ⟨[event], .ok ()⟩

def fail (error : BuildError) : Traced α := ofExcept (.error error)

/-- The second part runs when the first one succeeds; its events follow those of the first. -/
def andThen (first : Traced α) (next : α → Traced β) : Traced β :=
  match first.result with
  | .error error => ⟨first.events, .error error⟩
  | .ok value => ⟨first.events ++ (next value).events, (next value).result⟩

instance : Monad Traced where
  pure value := ofExcept (.ok value)
  bind := andThen

instance : MonadLift (Except BuildError) Traced where
  monadLift := ofExcept

/-! ## Outcomes -/

@[simp]
theorem result_ofExcept (result : Except BuildError α) : (ofExcept result).result = result := rfl

@[simp]
theorem result_emit (event : BuildEvent) : (emit event).result = .ok () := rfl

@[simp]
theorem result_fail (error : BuildError) : (fail error : Traced α).result = .error error := rfl

@[simp]
theorem result_pure (value : α) : (pure value : Traced α).result = .ok value := rfl

theorem result_bind (first : Traced α) (next : α → Traced β) :
    (first >>= next).result = first.result.bind fun value => (next value).result := by
  change (andThen first next).result = _
  unfold andThen
  cases first.result <;> rfl

/-- Events do not change an outcome. -/
@[simp]
theorem result_emit_bind (event : BuildEvent) (next : Unit → Traced β) :
    (emit event >>= next).result = (next ()).result := rfl

theorem result_bind_eq_ok {first : Traced α} {next : α → Traced β} {value : β} :
    (first >>= next).result = .ok value ↔
      ∃ middle, first.result = .ok middle ∧ (next middle).result = .ok value := by
  rw [result_bind]
  cases first.result with
  | error error => simp [Except.bind]
  | ok middle => simp [Except.bind]

theorem events_bind_of_ok {first : Traced α} {next : α → Traced β} {middle : α}
    (done : first.result = .ok middle) :
    (first >>= next).events = first.events ++ (next middle).events := by
  change (andThen first next).events = _
  simp only [andThen, done]

/-- A last part that only makes a value reports nothing. -/
theorem events_bind_pure (first : Traced α) (make : α → β) :
    (first >>= fun value => pure (make value)).events = first.events := by
  change (andThen first _).events = _
  unfold andThen
  cases first.result with
  | error error => rfl
  | ok value => exact List.append_nil _

/-- A part that succeeds leaves its events before those of the part that follows. -/
theorem exists_of_bind_eq_ok {first : Traced α} {next : α → Traced β} {value : β}
    (done : (first >>= next).result = .ok value) :
    ∃ middle, first.result = .ok middle ∧ (next middle).result = .ok value ∧
      (next middle).events <:+ (first >>= next).events := by
  obtain ⟨middle, before, after⟩ := result_bind_eq_ok.1 done
  exact ⟨middle, before, after, first.events, (events_bind_of_ok before).symm⟩

end Traced

end UtxoLedger
