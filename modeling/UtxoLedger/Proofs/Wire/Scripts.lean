import UtxoLedger.Proofs.Wire.Names

/-!
# Scripts that survive

A native script nests to any depth. Its decoder allows one level for every
byte that is left, and every level of the wire form takes a byte, so the
allowance never runs out.
-/

namespace UtxoLedger

open Cbor

namespace NativeScript

theorem encodeAll_eq_flatMap (scripts : List NativeScript) :
    encodeAll scripts = scripts.flatMap encode := by
  induction scripts with
  | nil => rfl
  | cons first rest ih => rw [encodeAll, ih, List.flatMap_cons]

theorem announces_encode (script : NativeScript) : Announces (encode script) .array := by
  cases script <;> rw [encode] <;> exact announces_union _ _

theorem reads_scripts {depth : Nat} {scripts : List NativeScript}
    (each : ∀ script ∈ scripts, Reads (decodeWithin depth) (encode script) script) :
    Reads (Decoder.listOf (decodeWithin depth))
      (Encoder.array scripts.length ++ encodeAll scripts) scripts := by
  rw [encodeAll_eq_flatMap]
  exact reads_listOf each fun script _ => (announces_encode script).ne_nil

/-- The members of a script take fewer bytes than the script. -/
theorem length_lt_of_part (before : Bytes) {code count : Nat} {members : Bytes}
    {fields : List Bytes} (shape : fields.flatten = before ++ (Encoder.array count ++ members))
    {depth : Nat} (enough : (Union.encode code fields).length < depth + 1) :
    members.length < depth := by
  have head := List.length_pos_iff.2 (announces_array (1 + fields.length)).ne_nil
  rw [Union.encode, shape] at enough
  simp only [List.length_append] at enough
  omega

mutual

/-- A script is read with an allowance of its length. -/
theorem reads_decodeWithin : (script : NativeScript) → (depth : Nat) →
    (encode script).length < depth → Reads (decodeWithin depth) (encode script) script
  | script, 0, enough => absurd enough (Nat.not_lt_zero _)
  | signature key, depth + 1, _ => by
      rw [encode]
      exact reads_alternative rfl (by decide) (survives key) rfl
  | all scripts, depth + 1, enough => by
      rw [encode] at enough ⊢
      have members := length_lt_of_part [] (List.append_nil _) enough
      have reads := reads_scripts (reads_members scripts depth members)
      exact reads_alternative rfl (by decide) reads rfl
  | any scripts, depth + 1, enough => by
      rw [encode] at enough ⊢
      have members := length_lt_of_part [] (List.append_nil _) enough
      have reads := reads_scripts (reads_members scripts depth members)
      exact reads_alternative rfl (by decide) reads rfl
  | atLeast required scripts, depth + 1, enough => by
      rw [encode] at enough ⊢
      have members := length_lt_of_part (Cbor.encode required)
        (congrArg (Cbor.encode required ++ ·) (List.append_nil _)) enough
      have reads := reads_scripts (reads_members scripts depth members)
      exact reads_union rfl (by decide) (by simp)
        ((survives required).bind (reads.bind (reads_pure _)))
  | invalidBefore slot, depth + 1, _ => by
      rw [encode]
      exact reads_alternative rfl (by decide) (survives slot) rfl
  | invalidHereafter slot, depth + 1, _ => by
      rw [encode]
      exact reads_alternative rfl (by decide) (survives slot) rfl

/-- The members of a script are read with an allowance of their common length. -/
theorem reads_members : (scripts : List NativeScript) → (depth : Nat) →
    (encodeAll scripts).length < depth →
      ∀ script ∈ scripts, Reads (decodeWithin depth) (encode script) script
  | [], _, _ => nofun
  | first :: rest, depth, enough => by
      rw [encodeAll, List.length_append] at enough
      have here := reads_decodeWithin first depth (by omega)
      have later := reads_members rest depth (by omega)
      intro script listed
      rcases List.mem_cons.1 listed with rfl | behind
      · exact here
      · exact later script behind

end

end NativeScript

instance : LawfulCodec NativeScript where
  survives script :=
    reads_remaining fun left enough =>
      NativeScript.reads_decodeWithin script (left + 1) (Nat.lt_succ_of_le enough)

instance : ProperCodec NativeScript :=
  ⟨fun script => ⟨.array, NativeScript.announces_encode script, nofun, nofun⟩⟩

instance : LawfulCodec Script where
  survives script := by
    cases script with
    | native script => exact reads_alternative rfl (by decide) (survives script) rfl
    | plutusV1 script => exact reads_alternative rfl (by decide) (survives script) rfl
    | plutusV2 script => exact reads_alternative rfl (by decide) (survives script) rfl
    | plutusV3 script => exact reads_alternative rfl (by decide) (survives script) rfl

end UtxoLedger
