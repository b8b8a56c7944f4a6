import UtxoLedger.Proofs.Address.Integers
import UtxoLedger.VarUint.InPlace

/-!
# What groups denote

Every byte holds a group of seven bits, and its high bit tells whether another
one follows. Bytes that end with the first one whose high bit is clear are a
form of the number that their groups denote. A reader takes the form in front
of a byte string, when it denotes a word: it refuses the bytes when those that it
has seen denote more, and otherwise asks for more bytes when no form ends there. So
no number is ever cut down to a word, and a written integer, which is the
shortest of its forms, is read back from wherever it stands in a buffer.
-/

namespace UtxoLedger.VarUint

/-- The number that groups denote on top of a number denoted before them. -/
def denotedOn (total : Nat) (bytes : Bytes) : Nat :=
  bytes.foldl (fun total byte => 128 * total + byte.toNat % 128) total

/-- The number that groups denote. -/
def denoted (bytes : Bytes) : Nat := denotedOn 0 bytes

/-- Every byte but the last one announces another. -/
def IsRun (bytes : Bytes) : Prop := ∀ byte ∈ bytes.dropLast, 128 ≤ byte

/-- The last byte is the only one that does not announce another. -/
def IsForm (bytes : Bytes) : Prop :=
  ∃ front last, bytes = front ++ [last] ∧ (∀ byte ∈ front, 128 ≤ byte) ∧ last < 128

/-! ## Forms and their beginnings -/

theorem isRun_singleton (byte : UInt8) : IsRun [byte] := fun _ member => nomatch member

theorem IsRun.cons {byte : UInt8} {bytes : Bytes} (goes : 128 ≤ byte) (run : IsRun bytes) :
    IsRun (byte :: bytes) := by
  intro other member
  cases bytes with
  | nil => cases member
  | cons next rest =>
      rcases List.mem_cons.1 member with rfl | later
      · exact goes
      · exact run other later

theorem isForm_singleton {byte : UInt8} (stops : byte < 128) : IsForm [byte] :=
  ⟨[], byte, rfl, fun _ => (nomatch ·), stops⟩

theorem IsForm.cons {byte : UInt8} {bytes : Bytes} (goes : 128 ≤ byte) (form : IsForm bytes) :
    IsForm (byte :: bytes) := by
  obtain ⟨front, last, rfl, marked, stops⟩ := form
  refine ⟨byte :: front, last, rfl, fun other member => ?_, stops⟩
  rcases List.mem_cons.1 member with rfl | later
  · exact goes
  · exact marked other later

theorem IsForm.isRun {bytes : Bytes} (form : IsForm bytes) : IsRun bytes := by
  obtain ⟨front, last, rfl, marked, -⟩ := form
  rw [IsRun, List.dropLast_concat]
  exact marked

/-- Nothing goes on behind the end of a form. -/
theorem IsForm.front_of_run {form first rest others : Bytes} (ends : IsForm form)
    (run : IsRun first) (same : form ++ rest = first ++ others) : first <+: form := by
  obtain ⟨front, last, rfl, -, stops⟩ := ends
  rcases List.append_eq_append_iff.1 same with ⟨more, longer, -⟩ | ⟨more, shorter, -⟩
  · rcases List.eq_nil_or_concat more with none | ⟨before, final, split⟩
    · obtain rfl : first = front ++ [last] := by rw [longer, none, List.append_nil]
      exact List.prefix_rfl
    · rw [List.concat_eq_append] at split
      have shape : first.dropLast = front ++ [last] ++ before := by
        rw [longer, split, ← List.append_assoc, List.dropLast_concat]
      have member : last ∈ first.dropLast := by simp [shape]
      exact absurd (run last member) (UInt8.not_le.2 stops)
  · exact ⟨more, shorter.symm⟩

theorem denotedOn_cons (total : Nat) (byte : UInt8) (bytes : Bytes) :
    denotedOn total (byte :: bytes) = denotedOn (128 * total + byte.toNat % 128) bytes := rfl

theorem denotedOn_append (total : Nat) (bytes more : Bytes) :
    denotedOn total (bytes ++ more) = denotedOn (denotedOn total bytes) more := List.foldl_append

theorem le_denotedOn (total : Nat) (bytes : Bytes) : total ≤ denotedOn total bytes := by
  induction bytes generalizing total with
  | nil => exact Nat.le_refl total
  | cons byte rest ih =>
      have later := ih (128 * total + byte.toNat % 128)
      rw [denotedOn_cons]
      omega

/-- More groups never denote less. -/
theorem denotedOn_mono {first bytes : Bytes} (total : Nat) (front : first <+: bytes) :
    denotedOn total first ≤ denotedOn total bytes := by
  obtain ⟨more, rfl⟩ := front
  rw [denotedOn_append]
  exact le_denotedOn _ more

theorem denotedOn_lt_of_append {total limit : Nat} {bytes more : Bytes}
    (fits : denotedOn total (bytes ++ more) < limit) : denotedOn total bytes < limit :=
  Nat.lt_of_le_of_lt (denotedOn_mono total (List.prefix_append bytes more)) fits

/-- No beginning of a form of a word denotes more than a word. -/
theorem IsForm.not_overflow {total : Nat} {form run rest others : Bytes} {number : UInt64}
    (ends : IsForm form) (same : form ++ rest = run ++ others)
    (word : denotedOn total form = number.toNat) (begins : IsRun run) :
    ¬ bound64 ≤ denotedOn total run := by
  have grows := denotedOn_mono total (ends.front_of_run begins same)
  have least : number.toNat < bound64 := number.toNat_lt
  omega

/-- A form ends somewhere. -/
theorem IsForm.not_unended {form rest : Bytes} (ends : IsForm form) :
    ¬ ∀ byte ∈ form ++ rest, 128 ≤ byte := by
  obtain ⟨front, last, rfl, -, stops⟩ := ends
  exact fun marked => UInt8.not_le.2 stops (marked last (by simp))

/-! ## Outcomes -/

/-- What an outcome of reading tells of the bytes. -/
def Tells (total : Nat) (bytes : Bytes) : Except VarUintError (UInt64 × Bytes) → Prop
  | .ok (number, rest) =>
      ∃ form, bytes = form ++ rest ∧ IsForm form ∧ denotedOn total form = number.toNat
  | .error .overflow =>
      ∃ first rest, bytes = first ++ rest ∧ IsRun first ∧ bound64 ≤ denotedOn total first
  | .error .unexpectedEnd => (∀ byte ∈ bytes, 128 ≤ byte) ∧ denotedOn total bytes < bound64

/-- One more byte in front, which announces another, is one more group denoted before. -/
theorem Tells.cons {total : Nat} {byte : UInt8} {bytes : Bytes} (goes : 128 ≤ byte)
    {outcome : Except VarUintError (UInt64 × Bytes)}
    (tells : Tells (128 * total + byte.toNat % 128) bytes outcome) :
    Tells total (byte :: bytes) outcome := by
  match outcome with
  | .ok (number, rest) =>
      obtain ⟨form, rfl, ends, same⟩ := tells
      exact ⟨byte :: form, rfl, ends.cons goes, same⟩
  | .error .overflow =>
      obtain ⟨first, rest, rfl, run, exceeds⟩ := tells
      exact ⟨byte :: first, rest, rfl, run.cons goes, exceeds⟩
  | .error .unexpectedEnd =>
      obtain ⟨marked, fits⟩ := tells
      refine ⟨fun other member => ?_, fits⟩
      rcases List.mem_cons.1 member with rfl | later
      · exact goes
      · exact marked other later

theorem tells_readFrom {total : Nat} (fits : total < bound64) (bytes : Bytes) :
    Tells total bytes (readFrom total bytes) := by
  induction bytes generalizing total with
  | nil => exact ⟨fun _ member => (nomatch member), fits⟩
  | cons byte rest ih =>
      rw [readFrom]
      split
      next exceeds => exact ⟨[byte], rest, rfl, isRun_singleton byte, exceeds⟩
      next room =>
        split
        next stops =>
          refine ⟨[byte], rfl, isForm_singleton stops, ?_⟩
          exact (UInt64.toNat_ofNat_of_lt' (Nat.not_le.1 room)).symm
        next goes => exact (ih (Nat.not_le.1 room)).cons (UInt8.not_lt.1 goes)

/-- Bytes tell one outcome at most. -/
theorem Tells.eq {total : Nat} {bytes : Bytes}
    {first second : Except VarUintError (UInt64 × Bytes)} (one : Tells total bytes first)
    (other : Tells total bytes second) : first = second := by
  match first, second with
  | .ok (number, rest), .ok (another, others) =>
      obtain ⟨form, rfl, ends, same⟩ := one
      obtain ⟨shape, split, closes, equal⟩ := other
      obtain rfl : form = shape :=
        (closes.front_of_run ends.isRun split.symm).eq_of_length_le
          (ends.front_of_run closes.isRun split).length_le
      obtain rfl : rest = others := List.append_cancel_left split
      obtain rfl : number = another := UInt64.toNat_inj.1 (same.symm.trans equal)
      rfl
  | .ok (number, rest), .error .overflow =>
      obtain ⟨form, rfl, ends, same⟩ := one
      obtain ⟨run, others, split, begins, exceeds⟩ := other
      exact absurd exceeds (ends.not_overflow split same begins)
  | .error .overflow, .ok (number, rest) =>
      obtain ⟨form, rfl, ends, same⟩ := other
      obtain ⟨run, others, split, begins, exceeds⟩ := one
      exact absurd exceeds (ends.not_overflow split same begins)
  | .ok (number, rest), .error .unexpectedEnd =>
      obtain ⟨form, rfl, ends, -⟩ := one
      exact absurd other.1 ends.not_unended
  | .error .unexpectedEnd, .ok (number, rest) =>
      obtain ⟨form, rfl, ends, -⟩ := other
      exact absurd one.1 ends.not_unended
  | .error .overflow, .error .unexpectedEnd =>
      obtain ⟨run, rest, rfl, -, exceeds⟩ := one
      exact absurd exceeds (Nat.not_le.2 (denotedOn_lt_of_append other.2))
  | .error .unexpectedEnd, .error .overflow =>
      obtain ⟨run, rest, rfl, -, exceeds⟩ := other
      exact absurd exceeds (Nat.not_le.2 (denotedOn_lt_of_append one.2))
  | .error .overflow, .error .overflow => rfl
  | .error .unexpectedEnd, .error .unexpectedEnd => rfl

/-- Reading has the outcome that the bytes tell. -/
theorem read_eq_iff {bytes : Bytes} {outcome : Except VarUintError (UInt64 × Bytes)} :
    read bytes = outcome ↔ Tells 0 bytes outcome := by
  have tells : Tells 0 bytes (read bytes) := tells_readFrom (by decide) bytes
  constructor
  · rintro rfl
    exact tells
  · exact tells.eq

/-! ## Written integers -/

theorem read_write (number : UInt64) (suffix : Bytes) :
    read (write number ++ suffix) = .ok (number, suffix) := read_padded 0 number suffix

theorem isForm_write (number : UInt64) :
    IsForm (write number) ∧ denoted (write number) = number.toNat := by
  obtain ⟨form, same, ends, word⟩ := read_eq_iff.1 (read_write number [])
  rw [List.append_nil, List.append_nil] at same
  rw [same]
  exact ⟨ends, word⟩

/-- Every other form of a word has groups of zero in front. -/
theorem eq_or_length_lt {form : Bytes} {number : UInt64} (ends : IsForm form)
    (word : denoted form = number.toNat) :
    form = write number ∨ (write number).length < form.length := by
  have whole : read form = .ok (number, []) :=
    read_eq_iff.2 ⟨form, (List.append_nil form).symm, ends, word⟩
  obtain ⟨zeros, same⟩ := read_eq_ok_iff.1 whole
  rw [List.append_nil] at same
  cases zeros with
  | zero => exact .inl same
  | succ zeros =>
      refine .inr ?_
      rw [same, padded, List.length_append, List.length_replicate]
      omega

/-- The reader that walks over a buffer takes a written integer and stops right behind it. -/
theorem readAt_writeOnto (buffer : Bytes) (number : UInt64) (suffix : Bytes) :
    readAt (writeOnto buffer number ++ suffix) buffer.length =
      .ok (number, (writeOnto buffer number).length) := by
  rw [readAt_eq, writeOnto_eq, List.append_assoc, List.drop_left, read_write]
  simp only [Except.map, List.length_append, Except.ok.injEq, Prod.mk.injEq, true_and]
  omega

/-- What is written is read back, and the reader stops right behind it, also in the midst of a
buffer. It is the one shortest form of its number. Of any bytes the reader takes the form in front,
when it denotes a word; it refuses them as too large exactly when some groups up to the end of that
form denote more, and as too short exactly when no form ends and no groups denote more. -/
theorem read_write_exact :
    (∀ number suffix, read (write number ++ suffix) = .ok (number, suffix)) ∧
    (∀ buffer number suffix,
      writeOnto buffer number = buffer ++ write number ∧
        readAt (writeOnto buffer number ++ suffix) buffer.length =
          .ok (number, (writeOnto buffer number).length)) ∧
    (∀ number, IsForm (write number) ∧ denoted (write number) = number.toNat ∧
      ∀ form, IsForm form → denoted form = number.toNat →
        form = write number ∨ (write number).length < form.length) ∧
    ∀ bytes,
      (∀ place, readAt bytes place =
        (read (bytes.drop place)).map fun found => (found.1, bytes.length - found.2.length)) ∧
      (read bytes = .error .overflow ↔
        ∃ first rest, bytes = first ++ rest ∧ IsRun first ∧ bound64 ≤ denoted first) ∧
      (read bytes = .error .unexpectedEnd ↔
        (∀ byte ∈ bytes, 128 ≤ byte) ∧ ∀ first, first <+: bytes → denoted first < bound64) ∧
      ∀ number rest, read bytes = .ok (number, rest) ↔
        ∃ form, bytes = form ++ rest ∧ IsForm form ∧ denoted form = number.toNat := by
  refine ⟨read_write, fun buffer number suffix => ?_, fun number => ?_, fun bytes => ?_⟩
  · exact ⟨writeOnto_eq buffer number, readAt_writeOnto buffer number suffix⟩
  · exact ⟨(isForm_write number).1, (isForm_write number).2, fun _ => eq_or_length_lt⟩
  · refine ⟨readAt_eq bytes, read_eq_iff, ?_, fun number rest => read_eq_iff⟩
    refine read_eq_iff.trans (and_congr_right fun _ => ?_)
    constructor
    · exact fun fits first front => Nat.lt_of_le_of_lt (denotedOn_mono 0 front) fits
    · exact fun fits => fits bytes List.prefix_rfl

end UtxoLedger.VarUint
