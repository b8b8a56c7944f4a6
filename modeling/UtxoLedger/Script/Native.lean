import UtxoLedger.Cbor.Union
import UtxoLedger.OrderedMap
import UtxoLedger.Validation

/-!
# Native scripts

A native script is a predicate over the keys that sign a transaction and the
slots in which it is valid. It is named by the tagged digest of its wire
form, and its members are written with the same code numbers that the wire
form uses.
-/

namespace UtxoLedger

/-- A predicate of signatures and slots. -/
inductive NativeScript where
  | signature (key : Hash 28)
  | all (scripts : List NativeScript)
  | any (scripts : List NativeScript)
  | atLeast (required : UInt32) (scripts : List NativeScript)
  /-- The transaction is not valid before the slot. -/
  | invalidBefore (slot : UInt64)
  /-- The transaction is not valid from the slot on. -/
  | invalidHereafter (slot : UInt64)

namespace NativeScript

/-! ## Equality -/

mutual

/-- The scripts are the same. -/
def same : NativeScript → NativeScript → Bool
  | signature key, signature other => key = other
  | all scripts, all others => sameAll scripts others
  | any scripts, any others => sameAll scripts others
  | atLeast required scripts, atLeast other others => required = other && sameAll scripts others
  | invalidBefore slot, invalidBefore other => slot = other
  | invalidHereafter slot, invalidHereafter other => slot = other
  | _, _ => false

/-- The scripts of two lists are the same one by one. -/
def sameAll : List NativeScript → List NativeScript → Bool
  | [], [] => true
  | first :: rest, other :: others => same first other && sameAll rest others
  | _, _ => false

end

mutual

theorem same_refl : (script : NativeScript) → same script script = true
  | signature _ => by simp [same]
  | all scripts => by simp [same, sameAll_refl scripts]
  | any scripts => by simp [same, sameAll_refl scripts]
  | atLeast _ scripts => by simp [same, sameAll_refl scripts]
  | invalidBefore _ => by simp [same]
  | invalidHereafter _ => by simp [same]

theorem sameAll_refl : (scripts : List NativeScript) → sameAll scripts scripts = true
  | [] => by simp [sameAll]
  | first :: rest => by simp [sameAll, same_refl first, sameAll_refl rest]

end

mutual

theorem eq_of_same : (script other : NativeScript) → same script other = true → script = other
  | signature _, other, equal => by cases other <;> simp_all [same]
  | all scripts, other, equal => by
      cases other <;> simp only [same, Bool.false_eq_true] at equal
      case all others => rw [eq_of_sameAll scripts others equal]
  | any scripts, other, equal => by
      cases other <;> simp only [same, Bool.false_eq_true] at equal
      case any others => rw [eq_of_sameAll scripts others equal]
  | atLeast _ scripts, other, equal => by
      cases other <;>
        simp only [same, Bool.false_eq_true, Bool.and_eq_true, decide_eq_true_eq] at equal
      case atLeast others => rw [equal.1, eq_of_sameAll scripts others equal.2]
  | invalidBefore _, other, equal => by cases other <;> simp_all [same]
  | invalidHereafter _, other, equal => by cases other <;> simp_all [same]

theorem eq_of_sameAll :
    (scripts others : List NativeScript) → sameAll scripts others = true → scripts = others
  | [], others, equal => by cases others <;> simp_all [sameAll]
  | first :: rest, others, equal => by
      cases others with
      | nil => simp [sameAll] at equal
      | cons other others =>
          simp only [sameAll, Bool.and_eq_true] at equal
          rw [eq_of_same first other equal.1, eq_of_sameAll rest others equal.2]

end

instance : DecidableEq NativeScript := fun script other =>
  if equal : same script other = true then isTrue (eq_of_same script other equal)
  else isFalse fun equality => equal (equality ▸ same_refl script)

/-! ## Wire form -/

mutual

/-- The wire form: a code and the parts of the predicate. -/
def encode : NativeScript → Bytes
  | signature key => Cbor.Union.encode 0 [Cbor.encode key]
  | all scripts =>
      Cbor.Union.encode 1 [Cbor.Encoder.array scripts.length ++ encodeAll scripts]
  | any scripts =>
      Cbor.Union.encode 2 [Cbor.Encoder.array scripts.length ++ encodeAll scripts]
  | atLeast required scripts =>
      Cbor.Union.encode 3
        [Cbor.encode required, Cbor.Encoder.array scripts.length ++ encodeAll scripts]
  | invalidBefore slot => Cbor.Union.encode 4 [Cbor.encode slot]
  | invalidHereafter slot => Cbor.Union.encode 5 [Cbor.encode slot]

/-- The wire forms of scripts one after the other. -/
def encodeAll : List NativeScript → Bytes
  | [] => []
  | first :: rest => encode first ++ encodeAll rest

end

/-- The number of parts behind each code. -/
def partCount (code : Nat) : Option Nat :=
  if code = 3 then some 2 else if code ≤ 5 then some 1 else none

/-- Reads a script that is nested less than `depth` deep. -/
def decodeWithin : (depth : Nat) → Cbor.Decoder NativeScript
  | 0 => Cbor.Decoder.fail .endOfInput
  | depth + 1 => do
      match ← Cbor.Union.decodeCode "NativeScript" partCount with
      | 0 => signature <$> Cbor.decode
      | 1 => all <$> Cbor.Decoder.listOf (decodeWithin depth)
      | 2 => any <$> Cbor.Decoder.listOf (decodeWithin depth)
      | 3 => do
          let required ← Cbor.decode
          atLeast required <$> Cbor.Decoder.listOf (decodeWithin depth)
      | 4 => invalidBefore <$> Cbor.decode
      | _ => invalidHereafter <$> Cbor.decode

/-- Every level of nesting takes a byte, so the bytes left bound the depth. -/
instance : Cbor.Codec NativeScript where
  encode := encode
  decode := do decodeWithin ((← Cbor.Decoder.remaining) + 1)

/-- The name of a script, which is also the policy of the assets it controls. -/
def hash (script : NativeScript) : Hash 28 := .tagged224 0 script.encode

/-! ## Keys -/

mutual

/-- The keys named anywhere in a script, as often as they are named. -/
def keys : NativeScript → List (Hash 28)
  | signature key => [key]
  | all scripts => keysAll scripts
  | any scripts => keysAll scripts
  | atLeast _ scripts => keysAll scripts
  | invalidBefore _ => []
  | invalidHereafter _ => []

/-- The keys named in any of the scripts. -/
def keysAll : List NativeScript → List (Hash 28)
  | [] => []
  | first :: rest => keys first ++ keysAll rest

end

/-- The keys that may have to sign. -/
def keyHashes (script : NativeScript) : OrderedSet (Hash 28) := .ofList script.keys

end NativeScript

end UtxoLedger
