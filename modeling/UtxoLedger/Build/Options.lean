import UtxoLedger.Json.Reader

/-!
# Options of a build

How a transaction is balanced. The options are read from documents in which
every member may be absent.
-/

namespace UtxoLedger

structure BuildOptions where
  /-- The change is added to an output that pays the change address already. -/
  mergeChange : Bool
  /-- The end of validity relative to the latest slot. -/
  timeToLiveOffset : Option Int64
  /-- The start of validity relative to the latest slot. -/
  validityStartOffset : Option Int64
  /-- Added to every estimate of the fee. -/
  feeBuffer : UInt64
  /-- The number of signatures that the fee is made for, in the place of the number of keys that
  have to sign. -/
  signatureCount : Option UInt64
  /-- The deposit of a pool is charged for its registration. -/
  chargesPoolDeposit : Bool
  maxInputs : Option UInt64
  deriving DecidableEq, Repr

namespace BuildOptions

def preset : BuildOptions := ⟨false, none, none, 0, none, false, none⟩

instance : Inhabited BuildOptions := ⟨preset⟩

def toJson (options : BuildOptions) : Json :=
  .object
    [("merge_change", .bool options.mergeChange),
      ("auto_ttl_offset", .ofOption (fun offset => .ofInt offset.toInt) options.timeToLiveOffset),
      ("auto_validity_start_offset",
        .ofOption (fun offset => .ofInt offset.toInt) options.validityStartOffset),
      ("fee_buffer", .ofWord options.feeBuffer),
      ("witness_override", .ofOption .ofWord options.signatureCount),
      ("initial_stake_pool_registration", .bool options.chargesPoolDeposit),
      ("max_input_count", .ofOption .ofWord options.maxInputs)]

/-- An option as a member of a document. -/
def member {α : Type} (name : String) (reader : Json.Reader α)
    (set : BuildOptions → α → BuildOptions) : Json.Reader.Member BuildOptions :=
  ⟨name, fun options => set options <$> reader, true⟩

def jsonReader : Json.Reader BuildOptions :=
  .record
    [member "merge_change" .bool fun options found => { options with mergeChange := found },
      member "auto_ttl_offset" (.option .signedWord)
        fun options found => { options with timeToLiveOffset := found },
      member "auto_validity_start_offset" (.option .signedWord)
        fun options found => { options with validityStartOffset := found },
      member "fee_buffer" .word fun options found => { options with feeBuffer := found },
      member "witness_override" (.option .word)
        fun options found => { options with signatureCount := found },
      member "initial_stake_pool_registration" .bool
        fun options found => { options with chargesPoolDeposit := found },
      member "max_input_count" (.option .word)
        fun options found => { options with maxInputs := found }]
    true preset

end BuildOptions

end UtxoLedger
