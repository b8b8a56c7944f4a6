/-!
# Failures

An error is reported under a name, which tells the case apart from others,
and with a text that says what is wrong.
-/

namespace UtxoLedger

/-- Errors that are reported. -/
class Failure (ε : Type) where
  name : ε → String
  message : ε → String

end UtxoLedger
