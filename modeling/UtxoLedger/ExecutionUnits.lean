import UtxoLedger.Cbor.Positional

/-!
# Execution units

The memory and the steps that running a script takes.
-/

namespace UtxoLedger

structure ExecutionUnits where
  memory : UInt64
  steps : UInt64
  deriving DecidableEq, Repr

namespace ExecutionUnits

open Cbor in
instance : Codec ExecutionUnits where
  encode units := Positional.encode [encode units.memory, encode units.steps]
  decode := do
    let (memory, left) ← Positional.next 0 (← Positional.start)
    let (steps, left) ← Positional.next 1 left
    Positional.finish left
    return ⟨memory, steps⟩

end ExecutionUnits

end UtxoLedger
