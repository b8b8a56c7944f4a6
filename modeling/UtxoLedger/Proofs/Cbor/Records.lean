import UtxoLedger.Proofs.Cbor.EncodedLength
import UtxoLedger.Proofs.Cbor.Survival

/-!
# Keyed records that survive

Reading a keyed record starts from a blank record and sets one field after the
other. The fields that a value presents are read in the order in which they
were written; each finds its own entry because keys are distinct, and at the
end no required field is missing.
-/

namespace UtxoLedger.Cbor

variable {ρ α : Type}

/-- Reading what the entries write of a value takes one record to another. -/
inductive Rebuilds (value : ρ) : List (RecordEntry ρ) → ρ → ρ → Prop where
  | nil (state : ρ) : Rebuilds value [] state state
  | absent {entry : RecordEntry ρ} {rest : List (RecordEntry ρ)} {state final : ρ}
      (optional : entry.field.required = false) (missing : entry.write value = none)
      (later : Rebuilds value rest state final) : Rebuilds value (entry :: rest) state final
  | present {entry : RecordEntry ρ} {rest : List (RecordEntry ρ)} {state next final : ρ}
      {bytes : Bytes} (written : entry.write value = some bytes)
      (reads : Reads (entry.read state) bytes next) (later : Rebuilds value rest next final) :
      Rebuilds value (entry :: rest) state final

namespace Rebuilds

variable [Codec α] {value state final : ρ} {rest : List (RecordEntry ρ)} {key : UInt64}
  {name : String}

theorem mandatory {get : ρ → α} {set : ρ → α → ρ} (survives : Survives (get value))
    (later : Rebuilds value rest (set state (get value)) final) :
    Rebuilds value (.mandatory key name get set :: rest) state final :=
  .present rfl (Reads.map survives (set state)) later

/-- An absent field leaves the record as it is, which is blank there. -/
theorem optional {get : ρ → Option α} {set : ρ → Option α → ρ} (blank : set state none = state)
    (survives : ∀ found ∈ get value, Survives found)
    (later : Rebuilds value rest (set state (get value)) final) :
    Rebuilds value (.optional key name get set :: rest) state final := by
  cases held : get value with
  | none =>
      rw [held, blank] at later
      refine .absent rfl ?_ later
      change (get value).map encode = none
      rw [held, Option.map_none]
  | some found =>
      rw [held] at later
      have written : (get value).map encode = some (encode found) := by
        rw [held, Option.map_some]
      have reads := Reads.map (survives found held) fun read => set state (some read)
      exact .present written reads later

end Rebuilds

/-! ## Finding an entry by its key -/

theorem find?_of_nodup {κ : Type} [DecidableEq κ] {key : α → κ} {list : List α} {item : α}
    (distinct : (list.map key).Nodup) (member : item ∈ list) :
    list.find? (fun other => key other = key item) = some item := by
  induction list with
  | nil => cases member
  | cons first rest ih =>
      obtain ⟨unlike, later⟩ := List.nodup_cons.1 distinct
      by_cases same : first = item
      · rw [same, List.find?_cons_of_pos (by simp)]
      · have listed := (List.mem_cons.1 member).resolve_left (Ne.symm same)
        have other : key first ≠ key item := fun equal =>
          unlike (equal ▸ List.mem_map_of_mem listed)
        rw [List.find?_cons_of_neg (by simpa using other)]
        exact ih later listed

namespace Record

variable (record : Record ρ)

theorem nodup_keys : (record.entries.map fun entry => entry.field.key).Nodup := by
  have distinct := record.distinct.1
  rwa [List.map_map] at distinct

variable {record}

theorem entry?_field {entry : RecordEntry ρ} (member : entry ∈ record.entries) :
    record.entry? entry.field = some entry :=
  find?_of_nodup record.nodup_keys member

theorem field?_key {entry : RecordEntry ρ} (member : entry ∈ record.entries) :
    record.layout.field? entry.field.key = some entry.field := by
  have found := find?_of_nodup record.nodup_keys member
  change (record.entries.map RecordEntry.field).find? _ = _
  rw [List.find?_map]
  exact congrArg (Option.map RecordEntry.field) found

/-! ## The walk over the fields -/

theorem reads_decodeKey {entry : RecordEntry ρ} (member : entry ∈ record.entries)
    {seen : List Field} (fresh : entry.field ∉ seen) :
    Reads (record.layout.decodeKey seen) (Encoder.unsigned entry.field.key.toNat) entry.field := by
  refine reads_position fun start => Reads.bind_last (survives entry.field.key) ?_
  rw [field?_key member]
  simp only [List.contains_iff_mem, if_neg fresh]
  exact reads_pure entry.field

/-- A place between two entries: those before it are done, and the fields seen are theirs. -/
structure Progress (record : Record ρ) (done rest : List (RecordEntry ρ)) (seen : List Field) :
    Prop where
  whole : record.entries = done ++ rest
  known : ∀ field ∈ seen, ∃ entry ∈ done, entry.field = field
  met : ∀ entry ∈ done, entry.field.required = true → entry.field ∈ seen

namespace Progress

variable {done rest : List (RecordEntry ρ)} {seen : List Field} {entry : RecordEntry ρ}

theorem start (record : Record ρ) : Progress record [] record.entries [] :=
  ⟨rfl, nofun, nofun⟩

theorem mem_entries (progress : Progress record done (entry :: rest) seen) :
    entry ∈ record.entries := by
  rw [progress.whole]
  exact List.mem_append_right done List.mem_cons_self

/-- The field of the next entry has not been seen. -/
theorem fresh (progress : Progress record done (entry :: rest) seen) : entry.field ∉ seen := by
  intro listed
  obtain ⟨other, before, same⟩ := progress.known entry.field listed
  have distinct := record.nodup_keys
  rw [progress.whole, List.map_append] at distinct
  refine (List.nodup_append.1 distinct).2.2 _ (List.mem_map_of_mem before) _
    (List.mem_map_of_mem List.mem_cons_self) ?_
  rw [same]

/-- An entry that may be absent is passed over. -/
theorem skip (progress : Progress record done (entry :: rest) seen)
    (optional : entry.field.required = false) : Progress record (done ++ [entry]) rest seen where
  whole := by
    rw [progress.whole, List.append_assoc]
    rfl
  known field listed := by
    obtain ⟨other, before, same⟩ := progress.known field listed
    exact ⟨other, List.mem_append_left _ before, same⟩
  met other before required := by
    rcases List.mem_append.1 before with old | new
    · exact progress.met other old required
    · rw [List.mem_singleton.1 new, optional] at required
      cases required

/-- The field of an entry that is read has been seen. -/
theorem read (progress : Progress record done (entry :: rest) seen) :
    Progress record (done ++ [entry]) rest (entry.field :: seen) where
  whole := by
    rw [progress.whole, List.append_assoc]
    rfl
  known field listed := by
    rcases List.mem_cons.1 listed with rfl | old
    · exact ⟨entry, List.mem_append_right _ List.mem_cons_self, rfl⟩
    · obtain ⟨other, before, same⟩ := progress.known field old
      exact ⟨other, List.mem_append_left _ before, same⟩
  met other before required := by
    rcases List.mem_append.1 before with old | new
    · exact List.mem_cons_of_mem _ (progress.met other old required)
    · rw [List.mem_singleton.1 new]
      exact List.mem_cons_self

/-- At the end no required field is missing. -/
theorem missing?_eq_none (progress : Progress record done [] seen) :
    record.layout.missing? seen = none := by
  have whole := progress.whole
  rw [List.append_nil] at whole
  refine List.find?_eq_none.2 fun field member => ?_
  obtain ⟨entry, listed, rfl⟩ := List.mem_map.1 member
  cases required : entry.field.required with
  | false => simp
  | true => simpa using progress.met entry (whole ▸ listed) required

end Progress

/-- Reads one field and goes on behind it. -/
theorem walkWithin_present {entry : RecordEntry ρ} (member : entry ∈ record.entries)
    {seen : List Field} (fresh : entry.field ∉ seen) {state next : ρ} {bytes : Bytes}
    (reads : Reads (entry.read state) bytes next)
    (small : (writeField (entry.field.key, bytes)).length < bound64) (fuel left : Nat)
    (tail : Bytes) (position : Nat) :
    record.layout.walkWithin record.visit (fuel + 1) (some (left + 1)) seen state
        ⟨writeField (entry.field.key, bytes) ++ tail, position⟩ =
      record.layout.walkWithin record.visit fuel (some left) (entry.field :: seen) next
        ⟨tail, position + (writeField (entry.field.key, bytes)).length⟩ := by
  unfold writeField at small ⊢
  simp only [List.length_append] at small
  have goes : (MapLayout.atEnd (some (left + 1))).run
      ⟨(Encoder.unsigned entry.field.key.toNat ++ bytes) ++ tail, position⟩ =
      .ok (false, ⟨(Encoder.unsigned entry.field.key.toNat ++ bytes) ++ tail, position⟩) := rfl
  have named := reads_decodeKey member fresh (by omega) (bytes ++ tail) position
  have read := reads (by omega) tail (position + (Encoder.unsigned entry.field.key.toNat).length)
  rw [MapLayout.walkWithin, goes]
  simp only [List.append_assoc, named, visit, entry?_field member, read, List.length_append,
    Option.map_some, Nat.add_sub_cancel, Nat.add_assoc]

/-- The walk from any place between two entries reads those behind it. -/
theorem walkWithin_of_rebuilds {value state final : ρ} {rest : List (RecordEntry ρ)}
    (rebuilds : Rebuilds value rest state final) {done : List (RecordEntry ρ)}
    {seen : List Field} (progress : Progress record done rest seen)
    (fuel : Nat) (enough : rest.length < fuel)
    (small : ((presentIn rest value).flatMap writeField).length < bound64) (tail : Bytes)
    (position : Nat) :
    record.layout.walkWithin record.visit fuel (some (presentIn rest value).length) seen state
        ⟨(presentIn rest value).flatMap writeField ++ tail, position⟩ =
      (final, .ok ⟨tail, position + ((presentIn rest value).flatMap writeField).length⟩) := by
  obtain ⟨fuel, rfl⟩ : ∃ least, fuel = least + 1 := ⟨fuel - 1, by omega⟩
  induction rebuilds generalizing done seen fuel position with
  | nil state =>
      change (state, ((record.layout.decodeEnd seen).run ⟨tail, position⟩).map Prod.snd) = _
      rw [MapLayout.decodeEnd, progress.missing?_eq_none]
      rfl
  | @absent entry rest state final optional missing later ih =>
      rw [presentIn_of_absent rest missing] at small ⊢
      exact ih (progress.skip optional) small position fuel (Nat.lt_of_succ_lt enough)
  | @present entry rest state next final bytes written reads later ih =>
      have shape := presentIn_of_written rest written
      rw [shape, List.flatMap_cons, List.length_append] at small
      obtain ⟨fuel, rfl⟩ : ∃ least, fuel = least + 1 :=
        ⟨fuel - 1, by rw [List.length_cons] at enough; omega⟩
      have walked := ih progress.read (by omega)
        (position + (writeField (entry.field.key, bytes)).length) fuel
        (Nat.lt_of_succ_lt_succ enough)
      rw [shape, List.flatMap_cons, List.append_assoc, List.length_cons,
        walkWithin_present progress.mem_entries progress.fresh reads (by omega), walked,
        List.length_append, Nat.add_assoc]

/-- A record is read back when its fields rebuild it from the blank one. -/
theorem reads_decode {value blank : ρ} (rebuilds : Rebuilds value record.entries blank value) :
    Reads (record.decode blank) (record.encode value) value := by
  have goes : ∀ field ∈ presentIn record.entries value, writeField field ≠ [] := by
    intro field _ nothing
    obtain ⟨_, _, announces⟩ := announces_unsigned field.1.toNat
    exact announces.ne_nil (List.append_eq_nil_iff.1 nothing).1
  have count := length_le_flatMap goes
  intro small tail position
  rw [encode_eq, List.length_append] at small
  have word : (presentIn record.entries value).length < bound64 := by omega
  have head := reads_map word (by omega)
    ((presentIn record.entries value).flatMap writeField ++ tail) position
  have walked := walkWithin_of_rebuilds rebuilds (.start record) (record.entries.length + 1)
    (by omega) (by omega) tail
    (position + (Encoder.map (presentIn record.entries value).length).length)
  have fuel : record.layout.fields.length = record.entries.length := List.length_map _
  unfold decode MapLayout.decodeEntries Decoder.run
  simp only [MapLayout.walk, encode_eq, List.append_assoc, head, fuel, walked, List.length_append,
    Nat.add_assoc]

/-- A record that is written as a map announces one. -/
theorem announces_encode (record : Record ρ) (value : ρ) : Announces (record.encode value) .map :=
  (announces_map _).append _

end Record

end UtxoLedger.Cbor
