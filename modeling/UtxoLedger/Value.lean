import UtxoLedger.MultiAsset

/-!
# Values

A value is an amount of coin and a bundle of assets. Values are added and
subtracted part by part; a subtraction leaves no coin rather than a negative
amount. A value of coin alone is written as a number.
-/

namespace UtxoLedger

/-- Coin and assets. -/
structure Value where
  coin : UInt64
  assets : MultiAsset
  deriving DecidableEq

namespace Value

def ofCoin (coin : UInt64) : Value := ⟨coin, .empty⟩

def zero : Value := ofCoin 0

instance : Inhabited Value := ⟨zero⟩

def isZero (value : Value) : Bool := value.coin = 0 && value.assets.isEmpty

def isPureCoin (value : Value) : Bool := value.assets.isEmpty

instance : Add Value :=
  ⟨fun first second => ⟨first.coin.saturatingAdd second.coin, first.assets + second.assets⟩⟩

instance : Sub Value :=
  ⟨fun first second => ⟨first.coin.saturatingSub second.coin, first.assets - second.assets⟩⟩

/-- The difference, when the coin suffices. -/
def checkedSub (first second : Value) : Option Value :=
  if second.coin ≤ first.coin then some ⟨first.coin - second.coin, first.assets - second.assets⟩
  else none

def sum (values : List Value) : Value := values.foldl (· + ·) zero

/-- The coin and the assets that a condition accepts. -/
def filter (accepts : Asset → Int64 → Bool) (value : Value) : Value :=
  ⟨value.coin, value.assets.filter accepts⟩

/-! ## Order -/

/-- There is at most as much of everything in the first value as in the second. -/
def atMost (first second : Value) : Bool :=
  first.coin ≤ second.coin && second.assets.covers first.assets

/-- The place of a value relative to another; none when each has more of something. -/
def compare? (first second : Value) : Option Ordering :=
  match first.atMost second, second.atMost first with
  | true, true => some .eq
  | true, false => some .lt
  | false, true => some .gt
  | false, false => none

/-! ## Text and wire form -/

def debug (value : Value) : String :=
  if value.assets.isEmpty then s!"Value({value.coin})"
  else s!"Value({value.coin}, {value.assets.debug})"

open Cbor in
instance : Codec Value where
  encode value :=
    if value.assets.isEmpty then encode value.coin
    else Encoder.array 2 ++ encode value.coin ++ encode value.assets
  decode := do
    match ← Decoder.kind with
    | .u8 | .u16 | .u32 | .u64 => ofCoin <$> decode
    | .array =>
        let start ← Decoder.position
        if (← Decoder.array) = some 2 then
          let coin ← decode
          let assets ← decode
          return ⟨coin, assets⟩
        else
          Decoder.failAt start (.rejected "multi-asset value must be a 2 element array")
    | kind => Decoder.fail (.unexpectedKind kind "value")

end Value

end UtxoLedger
