/-!
# Widths of numbers

The bounds of numbers that are kept in a fixed number of bits.
-/

namespace UtxoLedger

/-- One above the largest number of 16 bits. -/
abbrev bound16 : Nat := 65536

/-- One above the largest number of 32 bits. -/
abbrev bound32 : Nat := 4294967296

/-- One above the largest number of 63 bits, and so above the largest signed word. -/
abbrev bound63 : Nat := 9223372036854775808

/-- One above the largest number of 64 bits, and so above the largest word. -/
abbrev bound64 : Nat := 18446744073709551616

/-- One above the largest number of 127 bits. -/
abbrev bound127 : Nat := 170141183460469231731687303715884105728

end UtxoLedger
