import UtxoLedger.Rational

/-!
# Protocol parameters

The numbers of the protocol that fees, deposits and minimum amounts depend
on. They are read from documents whose members have the names listed here.
-/

namespace UtxoLedger

structure ProtocolParameters where
  minFeeConstant : UInt64
  minFeeCoefficient : UInt64
  maxBlockSize : UInt64
  maxTxSize : UInt64
  maxBlockHeaderSize : UInt64
  keyDeposit : UInt64
  poolDeposit : UInt64
  minPoolCost : UInt64
  priceMem : Rational
  priceStep : Rational
  maxTxExMem : UInt64
  maxTxExSteps : UInt64
  maxValSize : UInt64
  collateralPercent : UInt64
  maxCollateralInputs : UInt64
  /-- The least coin of an output without assets under the older rule. -/
  minUtxo : UInt64
  coinsPerUtxoWord : UInt64
  coinsPerUtxoByte : UInt64
  protocolMajorVersion : UInt64
  protocolMinorVersion : UInt64
  deriving DecidableEq, Repr

namespace ProtocolParameters

/-- The values in force before a chain is asked for its own. -/
def preset : ProtocolParameters where
  minFeeConstant := 155381
  minFeeCoefficient := 44
  maxBlockSize := 73728
  maxTxSize := 16384
  maxBlockHeaderSize := 1100
  keyDeposit := 2000000
  poolDeposit := 500000000
  minPoolCost := 340000000
  priceMem := ⟨577, 10000⟩
  priceStep := ⟨721, 10000000⟩
  maxTxExMem := 10000000
  maxTxExSteps := 10000000000
  maxValSize := 5000
  collateralPercent := 150
  maxCollateralInputs := 3
  minUtxo := 1000000
  coinsPerUtxoWord := 34482
  coinsPerUtxoByte := 4310
  protocolMajorVersion := 8
  protocolMinorVersion := 0

instance : Inhabited ProtocolParameters := ⟨preset⟩

/-! ## Documents -/

/-- A parameter as a member of a document. -/
structure Entry where
  name : String
  write : ProtocolParameters → Json
  read : ProtocolParameters → Json.Reader ProtocolParameters

/-- A parameter that is a word. -/
def wordEntry (name : String) (get : ProtocolParameters → UInt64)
    (set : ProtocolParameters → UInt64 → ProtocolParameters) : Entry :=
  ⟨name, fun parameters => .ofWord (get parameters),
    fun parameters => set parameters <$> .word⟩

/-- A parameter that is a fraction. -/
def fractionEntry (name : String) (get : ProtocolParameters → Rational)
    (set : ProtocolParameters → Rational → ProtocolParameters) : Entry :=
  ⟨name, fun parameters => (get parameters).toJson,
    fun parameters => set parameters <$> Rational.jsonReader⟩

/-- All parameters in the order in which they are written. -/
def entries : List Entry :=
  [wordEntry "minFeeConstant" minFeeConstant fun all found => { all with minFeeConstant := found },
    wordEntry "minFeeCoefficient" minFeeCoefficient
      fun all found => { all with minFeeCoefficient := found },
    wordEntry "maxBlockSize" maxBlockSize fun all found => { all with maxBlockSize := found },
    wordEntry "maxTxSize" maxTxSize fun all found => { all with maxTxSize := found },
    wordEntry "maxBlockHeaderSize" maxBlockHeaderSize
      fun all found => { all with maxBlockHeaderSize := found },
    wordEntry "keyDeposit" keyDeposit fun all found => { all with keyDeposit := found },
    wordEntry "poolDeposit" poolDeposit fun all found => { all with poolDeposit := found },
    wordEntry "minPoolCost" minPoolCost fun all found => { all with minPoolCost := found },
    fractionEntry "priceMem" priceMem fun all found => { all with priceMem := found },
    fractionEntry "priceStep" priceStep fun all found => { all with priceStep := found },
    wordEntry "maxTxExMem" maxTxExMem fun all found => { all with maxTxExMem := found },
    wordEntry "maxTxExSteps" maxTxExSteps fun all found => { all with maxTxExSteps := found },
    wordEntry "maxValSize" maxValSize fun all found => { all with maxValSize := found },
    wordEntry "collateralPercent" collateralPercent
      fun all found => { all with collateralPercent := found },
    wordEntry "maxCollateralInputs" maxCollateralInputs
      fun all found => { all with maxCollateralInputs := found },
    wordEntry "minUtxo" minUtxo fun all found => { all with minUtxo := found },
    wordEntry "coinsPerUtxoWord" coinsPerUtxoWord
      fun all found => { all with coinsPerUtxoWord := found },
    wordEntry "coinsPerUtxoByte" coinsPerUtxoByte
      fun all found => { all with coinsPerUtxoByte := found },
    wordEntry "protocolMajorVersion" protocolMajorVersion
      fun all found => { all with protocolMajorVersion := found },
    wordEntry "protocolMinorVersion" protocolMinorVersion
      fun all found => { all with protocolMinorVersion := found }]

def toJson (parameters : ProtocolParameters) : Json :=
  .object (entries.map fun entry => (entry.name, entry.write parameters))

/-- Every parameter has to be given. -/
def jsonReader : Json.Reader ProtocolParameters :=
  .record (entries.map fun entry => ⟨entry.name, entry.read, false⟩) false preset

end ProtocolParameters

end UtxoLedger
