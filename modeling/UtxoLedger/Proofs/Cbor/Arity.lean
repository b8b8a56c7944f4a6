import UtxoLedger.Cbor.Positional
import UtxoLedger.Cbor.Union
import UtxoLedger.Proofs.Cbor.Yields

/-!
# How many elements an array has

The written form of a union or of a positional record is an array of a number
of elements that the value declares. A union is read from an array of exactly
as many. A positional record is read from an array of at least as many: the
elements behind the last field are skipped, whatever they are.
-/

namespace UtxoLedger.Cbor

variable {α β : Type}

/-- The bytes start with the head of an array of some number of elements. -/
def Declares (bytes : Bytes) (count : Nat) : Prop := ∃ rest, bytes = Encoder.array count ++ rest

/-! ## Unions -/

/-- What is read stands in an array of a definite length, with as many elements as its written form
declares. -/
def IsStrict (decoder : Decoder α) (written : α → Bytes) (cursor : Cursor) : Prop :=
  ∀ ⦃value after⦄, decoder.run cursor = .ok (value, after) →
    ∃ count first, Decoder.array.run cursor = .ok (some count, first) ∧
      Declares (written value) count

/-- The code of a union is read from an array of as many elements as the code asks for. -/
theorem Union.run_decodeCode {family : String} {fieldCount : Nat → Option Nat}
    {cursor after : Cursor} {code : Nat}
    (read : (decodeCode family fieldCount).run cursor = .ok (code, after)) :
    ∃ fields first, Decoder.array.run cursor = .ok (some (1 + fields), first) ∧
      fieldCount code = some fields := by
  obtain ⟨start, between, unmoved, read⟩ := Decoder.run_bind_eq_ok.1 read
  cases unmoved
  obtain ⟨length, first, opened, read⟩ := Decoder.run_bind_eq_ok.1 read
  cases length with
  | none => cases read
  | some length =>
      obtain ⟨found, behind, _, read⟩ := Decoder.run_bind_eq_ok.1 read
      cases known : fieldCount found with
      | none =>
          simp only [known] at read
          cases read
      | some fields =>
          simp only [known] at read
          split at read
          next exact =>
            cases read
            exact ⟨fields, first, exact ▸ opened, known⟩
          next => cases read

/-- A union is strict when every alternative is read behind the code that it is written with. -/
theorem isStrict_union {family : String} {fieldCount : Nat → Option Nat} {next : Nat → Decoder α}
    {written : α → Bytes} {cursor : Cursor}
    (alternatives : ∀ code count, fieldCount code = some count → Yields (next code) fun value =>
      ∃ fields, written value = Union.encode code fields ∧ fields.length = count) :
    IsStrict (Union.decodeCode family fieldCount >>= next) written cursor := by
  intro value after read
  obtain ⟨code, between, decoded, read⟩ := Decoder.run_bind_eq_ok.1 read
  obtain ⟨count, first, opened, known⟩ := Union.run_decodeCode decoded
  obtain ⟨fields, form, size⟩ := alternatives code count known read
  refine ⟨1 + count, first, opened, Encoder.unsigned code ++ fields.flatten, ?_⟩
  rw [form, Union.encode, size, List.append_assoc]

/-! ## Positional records -/

/-- The stop byte alone is told to be one. -/
theorem Kind.eq_of_stop {first : UInt8} {second : Option UInt8}
    (stop : ofBytes? first second = some .stop) : first = 0xff := by
  unfold ofBytes? at stop
  split at stop
  next kind found =>
    cases stop
    have table : ∀ number : Fin 256, ofFirst? (UInt8.ofNat number) = some .stop → number = 255 := by
      decide +kernel
    have told := table ⟨first.toNat, first.toNat_lt⟩
    rw [UInt8.ofNat_toNat] at told
    exact UInt8.toNat_inj.1 (congrArg Fin.val (told found))
  next =>
    obtain ⟨byte, _, same⟩ := Option.map_eq_some_iff.1 stop
    unfold ofNegative at same
    repeat' split at same
    all_goals cases same

/-- Naming the kind of the next item leaves it unread. -/
theorem run_kind_eq_ok {cursor after : Cursor} {kind : Kind}
    (run : Decoder.kind.run cursor = .ok (kind, after)) :
    after = cursor ∧ ∃ first rest, cursor.rest = first :: rest ∧
      Kind.ofBytes? first rest.head? = some kind := by
  unfold Decoder.kind Decoder.run at run
  dsimp only at run
  split at run
  next => cases run
  next first rest here =>
    split at run
    next found told =>
      cases run
      exact ⟨rfl, first, rest, here, told⟩
    next => cases run

/-- An array of `count` elements, from which a value is read, and of `extra` ones behind them. -/
inductive ReadsArray (fields : Decoder α) (count extra : Nat) (cursor : Cursor) (value : α)
    (after : Cursor) : Prop where
  | definite {first middle : Cursor} {skipped : List Unit}
      (head : Decoder.array.run cursor = .ok (some (count + extra), first))
      (read : fields.run first = .ok (value, middle))
      (rest : (Decoder.times Decoder.skip extra).run middle = .ok (skipped, after))
  | indefinite {first middle last : Cursor} {skipped : List Unit}
      (head : Decoder.array.run cursor = .ok (none, first))
      (read : fields.run first = .ok (value, middle))
      (rest : (Decoder.times Decoder.skip extra).run middle = .ok (skipped, last))
      (stop : Decoder.byte.run last = .ok (0xff, after))

/-- What is read stands in an array of at least as many elements as its written form declares, and
what stands behind these is skipped. Arrays of a definite length are read whenever this can be
done. -/
structure SkipsExtra (α : Type) [Codec α] (count : Nat) (fields : Decoder α) (cursor : Cursor) :
    Prop where
  declares : ∀ value : α, Declares (encode value) count
  reads : ∀ ⦃value : α⦄ ⦃after⦄, decode.run cursor = .ok (value, after) →
    ∃ extra, ReadsArray fields count extra cursor value after
  definite : ∀ ⦃length first⦄, Decoder.array.run cursor = .ok (some length, first) →
    ∀ ⦃value : α⦄ ⦃after⦄, decode.run cursor = .ok (value, after) ↔
      ∃ extra middle skipped, length = count + extra ∧ fields.run first = .ok (value, middle) ∧
        (Decoder.times Decoder.skip extra).run middle = .ok (skipped, after)

namespace Positional

/-- What reads the rest of a record reads some fields and skips what stands behind them. -/
structure Continues (rest : Remaining → Decoder α) (fields : Decoder α) (count : Nat) : Prop where
  definite : ∀ ⦃length : Nat⦄ ⦃cursor after : Cursor⦄ ⦃value : α⦄,
    (rest (some length)).run cursor = .ok (value, after) ↔
      ∃ extra middle skipped, length = count + extra ∧ fields.run cursor = .ok (value, middle) ∧
        (Decoder.times Decoder.skip extra).run middle = .ok (skipped, after)
  indefinite : ∀ ⦃cursor after : Cursor⦄ ⦃value : α⦄, (rest none).run cursor = .ok (value, after) →
    ∃ middle, fields.run cursor = .ok (value, middle) ∧
      (finish none).run middle = .ok ((), after)

/-- Behind the last field everything is skipped. -/
theorem continues_finish (value : α) :
    Continues (fun left => finish left >>= fun _ => pure value) (pure value) 0 where
  definite length cursor after found := by
    rw [Decoder.run_bind_eq_ok]
    constructor
    · rintro ⟨_, between, done, same⟩
      obtain ⟨skipped, behind, rest, last⟩ := Decoder.run_bind_eq_ok.1 done
      cases same
      cases last
      exact ⟨length, cursor, skipped, (Nat.zero_add length).symm, rfl, rest⟩
    · rintro ⟨extra, middle, skipped, rfl, read, rest⟩
      cases read
      rw [Nat.zero_add]
      exact ⟨(), after, Decoder.run_bind_eq_ok.2 ⟨skipped, after, rest, rfl⟩, rfl⟩
  indefinite cursor after found read := by
    obtain ⟨_, between, done, same⟩ := Decoder.run_bind_eq_ok.1 read
    cases same
    exact ⟨cursor, rfl, done⟩

/-- One more field is read in front. -/
theorem Continues.next [Codec α] {rest : α → Remaining → Decoder β} {fields : α → Decoder β}
    {count : Nat} (index : Nat) (later : ∀ found, Continues (rest found) (fields found) count) :
    Continues (fun left => Positional.next index left >>= fun found => rest found.1 found.2)
      (decode >>= fields) (count + 1) where
  definite length cursor after value := by
    cases length with
    | zero =>
        constructor
        · intro run
          cases run
        · rintro ⟨extra, _, _, none, _⟩
          omega
    | succ length =>
        rw [Decoder.run_bind_eq_ok]
        constructor
        · rintro ⟨found, between, read, run⟩
          obtain ⟨field, behind, decoded, same⟩ := Decoder.run_bind_eq_ok.1 read
          cases same
          obtain ⟨extra, middle, skipped, rfl, inner, skips⟩ := (later field).definite.1 run
          refine ⟨extra, middle, skipped, by omega, ?_, skips⟩
          exact Decoder.run_bind_eq_ok.2 ⟨field, between, decoded, inner⟩
        · rintro ⟨extra, middle, skipped, size, run, skips⟩
          obtain ⟨field, between, read, inner⟩ := Decoder.run_bind_eq_ok.1 run
          obtain rfl : length = count + extra := by omega
          refine ⟨(field, some (count + extra)), between, ?_, ?_⟩
          · exact Decoder.run_bind_eq_ok.2 ⟨field, between, read, rfl⟩
          · exact (later field).definite.2 ⟨extra, middle, skipped, rfl, inner, skips⟩
  indefinite cursor after value run := by
    obtain ⟨found, between, read, run⟩ := Decoder.run_bind_eq_ok.1 run
    obtain ⟨kind, here, announced, read⟩ := Decoder.run_bind_eq_ok.1 read
    split at read
    next => cases read
    next =>
      obtain ⟨field, behind, decoded, same⟩ := Decoder.run_bind_eq_ok.1 read
      cases same
      obtain ⟨middle, inner, done⟩ := (later field).indefinite run
      obtain ⟨rfl, -⟩ := run_kind_eq_ok announced
      exact ⟨middle, Decoder.run_bind_eq_ok.2 ⟨field, between, decoded, inner⟩, done⟩

/-- Elements up to a stop byte are some number of elements and the stop byte. -/
theorem exists_skipped_within {fuel : Nat} {cursor after : Cursor}
    (done : (skipToStop fuel).run cursor = .ok ((), after)) :
    ∃ extra skipped last, (Decoder.times Decoder.skip extra).run cursor = .ok (skipped, last) ∧
      Decoder.byte.run last = .ok (0xff, after) := by
  induction fuel generalizing cursor with
  | zero => cases done
  | succ fuel ih =>
      obtain ⟨kind, between, announced, rest⟩ := Decoder.run_bind_eq_ok.1 done
      obtain ⟨rfl, first, later, here, told⟩ := run_kind_eq_ok announced
      by_cases stop : kind = .stop
      · rw [if_pos stop] at rest
        rw [stop] at told
        obtain rfl := Kind.eq_of_stop told
        obtain ⟨byte, behind, read, last⟩ := Decoder.run_bind_eq_ok.1 rest
        cases last
        refine ⟨0, [], between, rfl, ?_⟩
        obtain ⟨bytes, position⟩ := between
        obtain rfl : bytes = 0xff :: later := here
        cases read
        rfl
      · rw [if_neg stop] at rest
        obtain ⟨_, behind, skips, further⟩ := Decoder.run_bind_eq_ok.1 rest
        obtain ⟨extra, skipped, last, all, final⟩ := ih further
        refine ⟨extra + 1, () :: skipped, last, ?_, final⟩
        exact Decoder.run_bind_eq_ok.2 ⟨(), behind, skips,
          Decoder.run_bind_eq_ok.2 ⟨skipped, last, all, rfl⟩⟩

/-- A record whose decoder reads a head and its fields skips all further elements. -/
theorem Continues.skipsExtra [Codec α] {rest : Remaining → Decoder α} {fields : Decoder α}
    {count : Nat} {cursor : Cursor} (continues : Continues rest fields count)
    (decodes : (decode : Decoder α) = start >>= rest)
    (declares : ∀ value : α, Declares (Codec.encode value) count) :
    SkipsExtra α count fields cursor where
  declares := declares
  reads value after read := by
    rw [decodes] at read
    obtain ⟨length, first, head, read⟩ := Decoder.run_bind_eq_ok.1 read
    cases length with
    | some length =>
        obtain ⟨extra, middle, skipped, rfl, inner, skips⟩ := continues.definite.1 read
        exact ⟨extra, .definite head inner skips⟩
    | none =>
        obtain ⟨middle, inner, done⟩ := continues.indefinite read
        obtain ⟨left, between, measured, within⟩ := Decoder.run_bind_eq_ok.1 done
        cases measured
        obtain ⟨extra, skipped, last, skips, stop⟩ := exists_skipped_within within
        exact ⟨extra, .indefinite head inner skips stop⟩
  definite length first head value after := by
    rw [decodes, Decoder.run_bind_ok (show start.run cursor = _ from head)]
    apply continues.definite

section

variable {γ δ ρ : Type} [Codec α] [Codec β] [Codec γ] [Codec δ] [Codec ρ] {cursor : Cursor}

/-- A record of two fields. -/
theorem skipsExtra_pair {make : α → β → ρ}
    (decodes : (decode : Decoder ρ) = (do
      let (first, left) ← next 0 (← start)
      let (second, left) ← next 1 left
      finish left
      return make first second))
    (declares : ∀ value : ρ, Declares (Codec.encode value) 2) :
    SkipsExtra ρ 2 (do return make (← decode) (← decode)) cursor := by
  have continues := Continues.next 0 fun first : α => .next 1 fun second : β =>
    continues_finish (make first second)
  exact continues.skipsExtra decodes declares

/-- A record of four fields. -/
theorem skipsExtra_four {make : α → β → γ → δ → ρ}
    (decodes : (decode : Decoder ρ) = (do
      let (first, left) ← next 0 (← start)
      let (second, left) ← next 1 left
      let (third, left) ← next 2 left
      let (fourth, left) ← next 3 left
      finish left
      return make first second third fourth))
    (declares : ∀ value : ρ, Declares (Codec.encode value) 4) :
    SkipsExtra ρ 4 (do return make (← decode) (← decode) (← decode) (← decode)) cursor := by
  have continues := Continues.next 0 fun first : α => .next 1 fun second : β =>
    .next 2 fun third : γ => .next 3 fun fourth : δ =>
      continues_finish (make first second third fourth)
  exact continues.skipsExtra decodes declares

end

end Positional

end UtxoLedger.Cbor
