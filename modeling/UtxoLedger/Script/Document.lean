import UtxoLedger.Script.Native
import UtxoLedger.Width

/-!
# Native scripts as JSON documents

Policy files hold native scripts as objects with a type and the parts of the
predicate. A script that must not be spent before a slot has the type
`after`, one that must not be spent from a slot on has the type `before`.
-/

namespace UtxoLedger.NativeScript

mutual

/-- The document of a script. -/
def toJson : NativeScript → Json
  | signature key => .object [("keyHash", key.toJson), ("type", .string "sig")]
  | all scripts => .object [("scripts", .array (toJsonAll scripts)), ("type", .string "all")]
  | any scripts => .object [("scripts", .array (toJsonAll scripts)), ("type", .string "any")]
  | atLeast required scripts =>
      .object
        [("required", .ofWord required.toUInt64), ("scripts", .array (toJsonAll scripts)),
          ("type", .string "atLeast")]
  | invalidBefore slot => .object [("slot", .ofWord slot), ("type", .string "after")]
  | invalidHereafter slot => .object [("slot", .ofWord slot), ("type", .string "before")]

/-- The documents of scripts. -/
def toJsonAll : List NativeScript → List Json
  | [] => []
  | first :: rest => toJson first :: toJsonAll rest

end

/-- A part of a document that has to be there. -/
def part (members : List (String × Json)) (name : String) : Except ValidationError Json :=
  match members.lookup name with
  | some value => .ok value
  | none => .error (.invalidScriptJson s!"missing field {name}")

/-- The slot of a document. -/
def slotPart (members : List (String × Json)) : Except ValidationError UInt64 := do
  match ← part members "slot" with
  | .number (.unsigned slot) => .ok slot
  | _ => .error (.invalidScriptJson "slot must be a non-negative integer")

/-- The number of scripts that have to hold. -/
def requiredPart (members : List (String × Json)) : Except ValidationError UInt32 := do
  match ← part members "required" with
  | .number (.unsigned count) =>
      if count.toNat < bound32 then .ok count.toUInt32
      else .error (.invalidScriptJson "required must be a small integer")
  | _ => .error (.invalidScriptJson "required must be a small integer")

/-- The key of a document. -/
def keyPart (members : List (String × Json)) : Except ValidationError (Hash 28) := do
  match ← part members "keyHash" with
  | .string text =>
      match Hex.decode text with
      | .error error => .error (.hex error)
      | .ok bytes =>
          match Hash.ofBytes 28 bytes with
          | .error error => .error (.hashSize error)
          | .ok hash => .ok hash
  | _ => .error (.invalidScriptJson "keyHash must be a string")

/-- The type of a document. -/
def typePart (members : List (String × Json)) : Except ValidationError String := do
  match ← part members "type" with
  | .string kind => .ok kind
  | _ => .error (.invalidScriptJson "type must be a string")

mutual

/-- The script of a document. -/
def ofJson : Json → Except ValidationError NativeScript
  | .object members => do
      match ← typePart members with
      | "sig" => signature <$> keyPart members
      | "all" => all <$> scriptsPart members
      | "any" => any <$> scriptsPart members
      | "atLeast" => do
          let required ← requiredPart members
          atLeast required <$> scriptsPart members
      | "after" => invalidBefore <$> slotPart members
      | "before" => invalidHereafter <$> slotPart members
      | other => .error (.invalidScriptJson s!"unknown script type {other}")
  | _ => .error (.invalidScriptJson "missing field type")

/-- The scripts that a document holds. -/
def scriptsPart : List (String × Json) → Except ValidationError (List NativeScript)
  | [] => .error (.invalidScriptJson "missing field scripts")
  | (name, value) :: rest => if name = "scripts" then scriptsOf value else scriptsPart rest

/-- The scripts of an array of documents. -/
def scriptsOf : Json → Except ValidationError (List NativeScript)
  | .array items => ofJsonAll items
  | _ => .error (.invalidScriptJson "scripts must be an array")

/-- The scripts of documents, up to the first fault. -/
def ofJsonAll : List Json → Except ValidationError (List NativeScript)
  | [] => .ok []
  | first :: rest => do
      let script ← ofJson first
      let scripts ← ofJsonAll rest
      return script :: scripts

end

end UtxoLedger.NativeScript
