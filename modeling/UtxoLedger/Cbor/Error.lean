import UtxoLedger.Cbor.Kind
import UtxoLedger.Failure
import UtxoLedger.Hex

/-!
# Reading errors

Why bytes are not the encoding of a value. An error may carry the offset at
which the offending item starts. The wording of every cause is here; causes
of the domain above this format arrive as `rejected` with their own text.
-/

namespace UtxoLedger.Cbor

/-- Why reading a value failed. -/
inductive Cause where
  | endOfInput
  | unexpectedType
  | invalidUtf8
  | overflow
  | unknownVariant (index : UInt32)
  | missingValue (index : Nat)
  | tupleLength (expected : Nat)
  /-- The item is of a kind that has no place here. -/
  | unexpectedKind (kind : Kind) (subject : String)
  /-- The tag is not the one described. -/
  | wrongTag (description : String) (found : UInt64)
  | indefiniteArray (record : String)
  | unknownCode (family : String) (code : UInt64)
  | codeArity (family : String) (code : UInt64) (expected : Nat) (found : UInt64)
  | recordArity (record : String) (least most : Nat) (found : UInt64)
  | unknownKey (key : UInt64) (record : String)
  | duplicateKey (key : UInt64) (name record : String)
  | missingKey (key : UInt64) (name record : String)
  /-- The item is well formed and breaks a rule of the value it stands for. -/
  | rejected (reason : String)
  deriving DecidableEq, Repr

namespace Cause

def message : Cause → String
  | endOfInput => "end of input bytes"
  | unexpectedType => "unexpected type"
  | invalidUtf8 => "invalid utf-8"
  | overflow => "value overflows target type"
  | unknownVariant index => s!"unknown enum variant {index}"
  | missingValue index => s!"missing value at index {index}"
  | tupleLength expected => s!"invalid {expected}-tuple length"
  | unexpectedKind kind subject => s!"unexpected cbor type {kind.name} for {subject}"
  | wrongTag description found => s!"expected {description}, found tag {found}"
  | indefiniteArray record => s!"{record} can't be an indefinite array"
  | unknownCode family code => s!"unknown {family} code {code}"
  | codeArity family code expected found =>
      s!"{family} code {code} expects {expected} elements, found {found}"
  | recordArity record least most found =>
      s!"{record} expects between {least} and {most} elements, found {found}"
  | unknownKey key record => s!"unknown key {key} in {record}"
  | duplicateKey key name record => s!"duplicate key {key} ({name}) in {record}"
  | missingKey key name record => s!"missing required key {key} ({name}) in {record}"
  | rejected reason => reason

end Cause

/-- A cause and, where it is known, the offset of the item at fault. -/
structure DecodeError where
  cause : Cause
  position : Option Nat
  deriving DecidableEq, Repr

namespace DecodeError

def message (error : DecodeError) : String :=
  match error.position with
  | some position => s!"decode error at position {position}: {error.cause.message}"
  | none => s!"decode error: {error.cause.message}"

instance : Failure DecodeError := ⟨fun _ => "Decode", message⟩

end DecodeError

/-- Why a byte string or its hexadecimal text is not exactly one value. -/
inductive FragmentError where
  | decode (error : DecodeError)
  | trailingBytes (count : Nat)
  | hex (error : HexError)
  deriving DecidableEq, Repr

namespace FragmentError

def message : FragmentError → String
  | decode error => s!"cbor decoding error: {error.message}"
  | trailingBytes count => s!"{count} trailing bytes after cbor value"
  | hex error => s!"invalid hex string: {error.message}"

instance : Failure FragmentError where
  name
    | decode _ => "Decode"
    | trailingBytes _ => "TrailingBytes"
    | hex _ => "Hex"
  message := message

end FragmentError

end UtxoLedger.Cbor
