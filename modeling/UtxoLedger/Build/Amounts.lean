import UtxoLedger.Build.Draft

/-!
# Amounts of a draft

What flows into a transaction and what flows out of it apart from the fee,
and the difference of the two. Deposits, refunds and withdrawals are summed as
words.
-/

namespace UtxoLedger

/-- The sum of words, modulo their number. -/
def wordSum (words : List UInt64) : UInt64 := words.foldl (· + ·) 0

namespace Certificate

/-- What the certificate charges. The deposit of a pool is charged on demand. -/
def deposit (parameters : ProtocolParameters) (chargesPool : Bool) : Certificate → UInt64
  | stakeRegistration _ => parameters.keyDeposit
  | register _ deposit => deposit
  | registerStakeDelegation _ _ deposit => deposit
  | registerVoteDelegation _ _ deposit => deposit
  | registerStakeVoteDelegation _ _ _ deposit => deposit
  | registerDRep _ deposit _ => deposit
  | poolRegistration _ => if chargesPool then parameters.poolDeposit else 0
  | _ => 0

/-- What the certificate gives back. -/
def refund (parameters : ProtocolParameters) : Certificate → UInt64
  | stakeDeregistration _ => parameters.keyDeposit
  | deregister _ deposit => deposit
  | deregisterDRep _ deposit => deposit
  | _ => 0

end Certificate

namespace Draft

def deposits (draft : Draft) (parameters : ProtocolParameters) : UInt64 :=
  wordSum
      (draft.certificates.map (·.deposit parameters draft.options.chargesPoolDeposit)) +
    wordSum (draft.proposals.map (·.deposit))

def refunds (draft : Draft) (parameters : ProtocolParameters) : UInt64 :=
  wordSum (draft.certificates.map (·.refund parameters))

/-- What flows into the transaction: inputs, mints, withdrawals and refunds. -/
def provided (draft : Draft) (parameters : ProtocolParameters) (inputs : List Utxo) : Value :=
  let spent := Utxo.total inputs
  { coin := spent.coin + wordSum draft.withdrawals.values + draft.refunds parameters
    assets := spent.assets + draft.mint.positive }

/-- What flows out of the transaction: outputs, burns, deposits and the donation. -/
def requested (draft : Draft) (parameters : ProtocolParameters) : Value :=
  let paid := Value.sum (draft.outputs.map (·.amount))
  { coin := paid.coin + draft.deposits parameters + draft.donation.getD 0
    assets := paid.assets + -draft.mint.negative }

end Draft

/-- What is provided beyond what is requested. -/
def changeOf (provided requested : Value) : Except BuildError Value :=
  if provided.coin < requested.coin then
    .error (.insufficientFunds (.coin provided.coin requested.coin))
  else
    let assets := provided.assets - requested.assets
    if assets.negative.isEmpty then .ok ⟨provided.coin - requested.coin, assets⟩
    else .error (.insufficientFunds (.assets (-assets.negative)))

/-- The fee of a transaction without change: all the coin that is left over, which has to reach
the estimate. -/
def surplusFee (provided requested : Value) (estimate : UInt64) : Except BuildError UInt64 :=
  match changeOf provided requested with
  | .error error => .error error
  | .ok surplus =>
      if ¬ surplus.assets.isEmpty then
        .error (.insufficientFunds (.leftover surplus.assets))
      else if surplus.coin < estimate then
        .error (.insufficientFunds (.fee surplus.coin estimate))
      else .ok surplus.coin

end UtxoLedger
