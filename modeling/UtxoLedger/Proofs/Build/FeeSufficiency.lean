import Mathlib.Data.UInt
import UtxoLedger.Proofs.Build.Passes
import UtxoLedger.Proofs.Build.Preparation
import UtxoLedger.Proofs.Cbor.EncodedLength

/-!
# Whether the fee suffices

A transaction has to pay the fee of its own size. Without a change address it
always does. With one, the fee is an estimate of an earlier pass, and the size
of the transaction that pays it is known only to the pass that follows: the
fee falls short exactly when the estimate still rises in the last pass and
would rise again, by more than the buffer, in one more.
-/

namespace UtxoLedger

/-! ## Sizes -/

/-- Bodies are no shorter with inputs that take no fewer bytes and with a fee that is no smaller. -/
theorem Draft.length_encode_body_le (draft : Draft) {inputs others : List Utxo}
    (names : (Cbor.encode (Cbor.WireSet.plain (inputs.map (·.input)))).length ≤
      (Cbor.encode (Cbor.WireSet.plain (others.map (·.input)))).length)
    (outputs : List TransactionOutput) {fee larger : UInt64} (least : fee ≤ larger) :
    (Cbor.encode (draft.body inputs outputs fee)).length ≤
      (Cbor.encode (draft.body others outputs larger)).length := by
  have fees : Cbor.NoShorter (some (Cbor.encode fee)) (some (Cbor.encode larger)) := by
    refine Cbor.noShorter_some ?_
    change (Cbor.Encoder.head 0 fee.toNat).length ≤ (Cbor.Encoder.head 0 larger.toNat).length
    rw [Cbor.Encoder.length_head, Cbor.Encoder.length_head]
    exact Cbor.Encoder.headLength_mono (UInt64.le_iff_toNat_le.1 least)
  have others := Cbor.NoShorter.refl
  apply TransactionBody.record.length_encode_le
  simp only [TransactionBody.record, List.forall_mem_cons, List.not_mem_nil, false_implies,
    implies_true, and_true]
  exact ⟨Cbor.noShorter_some names, others _, fees, others _, others _, others _, others _,
    others _, others _, others _, others _, others _, others _, others _, others _, others _,
    others _, others _, others _, others _⟩

namespace Plan

variable {plan : Plan} {inputs : List Utxo} {outputs : List TransactionOutput}

/-- The length of the transaction once it is signed, as a number. -/
def encodedLength (plan : Plan) (inputs : List Utxo) (outputs : List TransactionOutput)
    (fee : UInt64) : Nat :=
  (Cbor.encode
    (plan.draft.placeholderTransaction inputs (plan.draft.body inputs outputs fee))).length

/-- The fee that the protocol asks for the transaction that pays a fee. -/
def leastFee (plan : Plan) (inputs : List Utxo) (outputs : List TransactionOutput) (fee : UInt64) :
    UInt64 :=
  plan.parameters.fee (plan.draft.signedSize inputs (plan.draft.body inputs outputs fee)) 0 0

/-- A larger fee makes a transaction no shorter. -/
theorem encodedLength_mono {fee larger : UInt64} (least : fee ≤ larger) :
    plan.encodedLength inputs outputs fee ≤ plan.encodedLength inputs outputs larger := by
  have bodies : (Cbor.encode (plan.draft.body inputs outputs fee)).length ≤
      (Cbor.encode (plan.draft.body inputs outputs larger)).length :=
    plan.draft.length_encode_body_le (Nat.le_refl _) outputs least
  unfold encodedLength
  change (Cbor.Encoder.array 4 ++ TransactionBody.record.encode _ ++ Cbor.encode _ ++
      Cbor.encode _ ++ Cbor.encode _).length ≤
    (Cbor.Encoder.array 4 ++ TransactionBody.record.encode _ ++ Cbor.encode _ ++
      Cbor.encode _ ++ Cbor.encode _).length
  simp only [List.length_append]
  exact Nat.add_le_add_right (Nat.add_le_add_right (Nat.add_le_add_right
    (Nat.add_le_add_left bodies _) _) _) _

/-- A larger fee asks for no smaller fee, as long as lengths are words. -/
theorem leastFee_mono {fee larger : UInt64}
    (bound : plan.encodedLength inputs outputs larger < bound64) (least : fee ≤ larger) :
    plan.leastFee inputs outputs fee ≤ plan.leastFee inputs outputs larger := by
  have lengths : plan.encodedLength inputs outputs fee ≤ plan.encodedLength inputs outputs larger :=
    encodedLength_mono least
  have sizes : plan.draft.signedSize inputs (plan.draft.body inputs outputs fee) ≤
      plan.draft.signedSize inputs (plan.draft.body inputs outputs larger) := by
    rw [UInt64.le_iff_toNat_le, Draft.signedSize, Draft.signedSize, UInt64.toNat_ofNat',
      UInt64.toNat_ofNat']
    change encodedLength plan inputs outputs fee % _ ≤ encodedLength plan inputs outputs larger % _
    rw [Nat.mod_eq_of_lt bound, Nat.mod_eq_of_lt (Nat.lt_of_le_of_lt lengths bound)]
    exact lengths
  exact plan.parameters.fee_mono sizes (UInt64.le_refl 0) (UInt64.le_refl 0)

/-! ## Estimates -/

/-- No estimate wraps around: the lengths are words, and so is each fee with the buffer. -/
structure EstimatesFit (plan : Plan) (inputs : List Utxo) : Prop where
  length : plan.encodedLength inputs plan.draft.outputs plan.parameters.maxFee < bound64
  first : (plan.leastFee inputs plan.draft.outputs plan.parameters.maxFee).toNat +
    plan.draft.options.feeBuffer.toNat < bound64
  later : ∀ address pass fee outputs, plan.changeAddress = some address →
    plan.passEstimate inputs address pass = .ok fee →
    plan.outputsAt inputs address fee = .ok outputs →
    (plan.leastFee inputs outputs fee).toNat + plan.draft.options.feeBuffer.toNat < bound64

/-- The last pass raises the estimate, and one more pass would raise it by more than the
buffer. -/
structure FallsShortAt (plan : Plan) (inputs : List Utxo) (address : Address)
    (before last next : UInt64) : Prop where
  fourth : plan.passEstimate inputs address laterPasses = .ok before
  fifth : plan.passEstimate inputs address (laterPasses + 1) = .ok last
  sixth : plan.passEstimate inputs address (laterPasses + 2) = .ok next
  rises : before < last
  exceeds : last.toNat + plan.draft.options.feeBuffer.toNat < next.toNat

/-- There is a change address, and the estimates do not come to rest in time. -/
def FallsShort (plan : Plan) (inputs : List Utxo) : Prop :=
  ∃ address before last next, plan.changeAddress = some address ∧
    plan.FallsShortAt inputs address before last next

/-- The estimate of a pass is the fee of its outputs with the buffer. -/
theorem toNat_estimate {address : Address} {pass : Nat} {fee next : UInt64}
    (fits : plan.EstimatesFit inputs) (addressed : plan.changeAddress = some address)
    (estimated : plan.passEstimate inputs address pass = .ok fee)
    (made : plan.outputsAt inputs address fee = .ok outputs)
    (again : plan.passEstimate inputs address (pass + 1) = .ok next) :
    next.toNat =
      (plan.leastFee inputs outputs fee).toNat + plan.draft.options.feeBuffer.toNat := by
  have same : plan.leastFee inputs outputs fee + plan.draft.options.feeBuffer = next := by
    rw [passEstimate_succ, estimated] at again
    exact Except.ok.inj ((reestimate_of_outputsAt made).symm.trans again)
  rw [← same, UInt64.toNat_add]
  exact Nat.mod_eq_of_lt (fits.later address pass fee outputs addressed estimated made)

/-- The fee of the last pass falls short when its outputs ask for more. -/
theorem leastFee_le_iff_of_address {address : Address} {balance : Balance}
    (fits : plan.EstimatesFit inputs) (addressed : plan.changeAddress = some address)
    (balanced : (plan.balance inputs).result = .ok balance) :
    plan.leastFee inputs balance.outputs balance.fee ≤ balance.fee ↔ ¬ plan.FallsShort inputs := by
  rw [result_balance_of_address inputs addressed] at balanced
  obtain ⟨before, fourth, settled⟩ := Except.bind_eq_ok.1 balanced
  obtain ⟨last, again, final⟩ := Except.bind_eq_ok.1 settled
  obtain ⟨outputs, made, rfl⟩ := Except.map_eq_ok.1 final
  have fifth : plan.passEstimate inputs address (laterPasses + 1) = .ok last := by
    rw [passEstimate_succ, fourth]
    exact again
  simp only
  rw [UInt64.le_iff_toNat_le]
  by_cases rises : before < last
  · rw [UInt64.max_of_lt rises] at made ⊢
    obtain ⟨next, sixth⟩ : ∃ next,
        plan.passEstimate inputs address (laterPasses + 2) = .ok next := by
      rw [passEstimate_succ, fifth]
      exact ⟨_, reestimate_of_outputsAt made⟩
    have sum := toNat_estimate fits addressed fifth made sixth
    constructor
    · rintro enough ⟨other, _, repeated, following, same, short⟩
      obtain rfl : address = other := Option.some.inj (addressed.symm.trans same)
      obtain rfl : last = repeated := Except.ok.inj (fifth.symm.trans short.fifth)
      obtain rfl : next = following := Except.ok.inj (sixth.symm.trans short.sixth)
      have exceeds := short.exceeds
      omega
    · intro settles
      refine Nat.not_lt.1 fun lacking => settles ?_
      exact ⟨address, before, last, next, addressed, fourth, fifth, sixth, rises, by omega⟩
  · have ordered := UInt64.not_lt.1 rises
    rw [UInt64.max_of_le ordered] at made ⊢
    have sum := toNat_estimate fits addressed fourth made fifth
    have least := UInt64.le_iff_toNat_le.1 ordered
    refine iff_of_true (by omega) ?_
    rintro ⟨other, earlier, later, next, named, short⟩
    obtain rfl : address = other := Option.some.inj (addressed.symm.trans named)
    obtain rfl : before = earlier := Except.ok.inj (fourth.symm.trans short.fourth)
    obtain rfl : last = later := Except.ok.inj (fifth.symm.trans short.fifth)
    exact rises short.rises

/-- Without a change address the fee is all that is left over. It reaches the estimate, which is
taken with the largest fee in the body; a larger fee still pays for the largest transaction. -/
theorem leastFee_le_of_none {balance : Balance} {built : BuiltTransaction}
    (fits : plan.EstimatesFit inputs) (unaddressed : plan.changeAddress = none)
    (balanced : (plan.balance inputs).result = .ok balance)
    (finished : (plan.finish inputs balance).result = .ok built) :
    plan.leastFee inputs balance.outputs balance.fee ≤ balance.fee := by
  have small := (finish_eq_ok finished).2
  rw [(finish_eq_ok finished).1] at small
  rw [result_balance_of_none inputs unaddressed] at balanced
  obtain ⟨fee, left, rfl⟩ := Except.map_eq_ok.1 balanced
  obtain ⟨surplus, _, _, reaches, same⟩ := surplusFee_eq_ok left
  rw [same] at reaches
  simp only at small ⊢
  by_cases most : fee ≤ plan.parameters.maxFee
  · have fees := UInt64.le_iff_toNat_le.1 (leastFee_mono fits.length most)
    have reached := UInt64.le_iff_toNat_le.1 reaches
    have sum := UInt64.toNat_add (plan.leastFee inputs plan.draft.outputs plan.parameters.maxFee)
      plan.draft.options.feeBuffer
    rw [Nat.mod_eq_of_lt fits.first] at sum
    change (plan.leastFee inputs plan.draft.outputs plan.parameters.maxFee +
      plan.draft.options.feeBuffer).toNat ≤ fee.toNat at reached
    rw [UInt64.le_iff_toNat_le]
    omega
  · have largest : plan.leastFee inputs plan.draft.outputs fee ≤ plan.parameters.maxFee :=
      plan.parameters.fee_mono small (UInt64.zero_le) (UInt64.zero_le)
    exact UInt64.le_trans largest (UInt64.le_of_lt (UInt64.not_le.1 most))

end Plan

/-! ## Built transactions -/

namespace Draft

/-- The fee of a built transaction reaches the fee of the reported size unless it falls short in
the passes. The size is that of the final body with the placeholders. -/
theorem build_fee_suffices_iff {draft : Draft} {context : ChainContext} {selectors : List Selector}
    {changeAddress : Option Address} {result : Result}
    (built : (draft.build context selectors changeAddress).result = .ok result) :
    ∃ plan inputs balance size,
      draft.Run context selectors changeAddress plan inputs balance result ∧
      size = plan.draft.signedSize inputs result.built.body ∧
      [.balanced size result.built.body.fee, .stage .finalized] <:+
        (draft.build context selectors changeAddress).events ∧
      (plan.EstimatesFit inputs →
        (plan.parameters.fee size 0 0 ≤ result.built.body.fee ↔ ¬ plan.FallsShort inputs)) := by
  obtain ⟨plan, inputs, balance, run⟩ := exists_run built
  have body := (Plan.finish_eq_ok run.finished).1
  have fee : result.built.body.fee = balance.fee := by rw [body]; rfl
  have reported := run.reported
  rw [Plan.events_of_finish run.finished, ← fee] at reported
  refine ⟨plan, inputs, balance, _, run, rfl, reported, fun fits => ?_⟩
  rw [fee, body]
  change plan.leastFee inputs balance.outputs balance.fee ≤ balance.fee ↔ _
  cases addressed : plan.changeAddress with
  | some address => exact Plan.leastFee_le_iff_of_address fits addressed run.balanced
  | none =>
      refine iff_of_true (Plan.leastFee_le_of_none fits addressed run.balanced run.finished) ?_
      rintro ⟨address, _, _, _, named, _⟩
      rw [addressed] at named
      cases named

/-! ### Estimates that go round in circles -/

namespace Cycle

def address : Address := .shelley ⟨.testnet, .key ⟨.replicate 28 7⟩, .none⟩

def parameters (constant : UInt64) : ProtocolParameters :=
  { ProtocolParameters.preset with minFeeConstant := constant }

def context (constant : UInt64) : ChainContext :=
  ⟨.ok (parameters constant), .testnet, .ok 0, fun _ => .ok []⟩

/-- What is left of its coin crosses a width when a fee near 65536 is paid. -/
def utxo : Utxo := ⟨⟨⟨.replicate 32 5⟩, 0⟩, .plain address (.ofCoin 4295032846)⟩

def draft : Draft := empty.addInput utxo

/-- The plan of the draft. -/
def plan (constant : UInt64) : Plan := ⟨draft, parameters constant, some address⟩

/-- The draft is prepared already, and its input suffices. -/
theorem plan_of_run {constant : UInt64} {found : Plan} {inputs : List Utxo}
    {balance : Plan.Balance} {result : Result}
    (run : draft.Run (context constant) [] (some address) found inputs balance result) :
    found = plan constant :=
  run.plan_eq rfl rfl

end Cycle

/-- The estimates of the sample come to rest when the constant is the usual one. -/
theorem build_fee_suffices_usual :
    ∃ result size, (Cycle.draft.build (Cycle.context 155381) [] (some Cycle.address)).result =
        .ok result ∧
      [.balanced size result.built.body.fee, .stage .finalized] <:+
        (Cycle.draft.build (Cycle.context 155381) [] (some Cycle.address)).events ∧
      (Cycle.parameters 155381).fee size 0 0 ≤ result.built.body.fee := by
  have succeeds : ((Cycle.draft.build (Cycle.context 155381) []
      (some Cycle.address)).result.toOption.isSome) = true := by decide +kernel
  have funds : (Plan.fund (Cycle.plan 155381) (Cycle.context 155381) []).result.toOption =
      some [Cycle.utxo] := by decide +kernel
  have length : (Cycle.plan 155381).encodedLength [Cycle.utxo] (Cycle.plan 155381).draft.outputs
      (Cycle.plan 155381).parameters.maxFee < bound64 := by decide +kernel
  have rests : ((Cycle.plan 155381).passEstimate [Cycle.utxo] Cycle.address
      Plan.laterPasses).toOption =
      ((Cycle.plan 155381).passEstimate [Cycle.utxo] Cycle.address
        (Plan.laterPasses + 1)).toOption := by decide +kernel
  cases built : (Cycle.draft.build (Cycle.context 155381) [] (some Cycle.address)).result with
  | error error => simp [built, Except.toOption] at succeeds
  | ok result =>
      obtain ⟨plan, inputs, balance, size, run, _, reported, iff⟩ := build_fee_suffices_iff built
      obtain rfl := Cycle.plan_of_run run
      obtain rfl : inputs = [Cycle.utxo] := by
        simpa [run.funded, Except.toOption] using funds
      have buffer (fee : UInt64) :
          fee.toNat + (Cycle.plan 155381).draft.options.feeBuffer.toNat < bound64 := fee.toNat_lt
      have fits : (Cycle.plan 155381).EstimatesFit [Cycle.utxo] :=
        ⟨length, buffer _, fun _ _ _ _ _ _ _ => buffer _⟩
      refine ⟨result, size, rfl, reported, (iff fits).2 ?_⟩
      rintro ⟨address, before, last, next, named, short⟩
      obtain rfl : Cycle.address = address := Option.some.inj named
      rw [short.fourth, short.fifth] at rests
      have same : before = last := Option.some.inj rests
      exact UInt64.lt_irrefl _ (same ▸ short.rises)

/-- The fee of the sample falls short of what its size asks for. -/
theorem build_fee_falls_short :
    ∃ result size, (Cycle.draft.build (Cycle.context 57044) [] (some Cycle.address)).result =
        .ok result ∧
      .balanced size result.built.body.fee ∈
        (Cycle.draft.build (Cycle.context 57044) [] (some Cycle.address)).events ∧
      result.built.body.fee < (Cycle.parameters 57044).fee size 0 0 := by
  have succeeds : ((Cycle.draft.build (Cycle.context 57044) []
      (some Cycle.address)).result.toOption.map (·.built.body.fee)) = some 65536 := by
    decide +kernel
  have reported : .balanced 195 65536 ∈
      (Cycle.draft.build (Cycle.context 57044) [] (some Cycle.address)).events := by
    decide +kernel
  cases built : (Cycle.draft.build (Cycle.context 57044) [] (some Cycle.address)).result with
  | error error => simp [built, Except.toOption] at succeeds
  | ok result =>
      have fee : result.built.body.fee = 65536 := by
        simpa [built, Except.toOption] using succeeds
      refine ⟨result, 195, rfl, fee ▸ reported, ?_⟩
      rw [fee]
      decide +kernel

end Draft

end UtxoLedger
