import UtxoLedger.Proofs.Cbor.Reads

/-!
# Announced kinds and repeated items

The first bytes of a head tell the kind of its item. Items written one after
the other are read back in turn, by their number or up to a stop byte.
-/

namespace UtxoLedger.Cbor

variable {α β : Type}

/-! ## Kinds of heads -/

/-- The kinds of numbers that are not negative. -/
def wordKinds : List Kind := [.u8, .u16, .u32, .u64]

/-- The kinds of negative numbers. -/
def negativeKinds : List Kind := [.i8, .i16, .i32, .i64, .int]

theorem mem_wordKinds {kind : Kind} :
    kind ∈ wordKinds ↔ kind = .u8 ∨ kind = .u16 ∨ kind = .u32 ∨ kind = .u64 := by
  simp [wordKinds]

theorem mem_negativeKinds {kind : Kind} :
    kind ∈ negativeKinds ↔
      kind = .i8 ∨ kind = .i16 ∨ kind = .i32 ∨ kind = .i64 ∨ kind = .int := by
  simp [negativeKinds]

theorem announces_unsigned (number : Nat) :
    ∃ kind ∈ wordKinds, Announces (Encoder.unsigned number) kind := by
  have table : ∀ info < 28, ∃ kind ∈ wordKinds,
      Kind.ofFirst? (UInt8.ofNat (32 * 0 + info)) = some kind := by decide
  obtain ⟨kind, listed, known⟩ := table _ (headParts_lt number)
  rw [Encoder.unsigned, head_eq]
  exact ⟨kind, listed, announces_of_first known _⟩

/-- A long negative number is told by two bytes. -/
theorem announces_of_second {first second : UInt8} (unknown : Kind.ofFirst? first = none)
    (rest : Bytes) : Announces (first :: second :: rest) (Kind.ofNegative first second) := by
  intro tail position
  have found : Kind.ofBytes? first (second :: (rest ++ tail)).head? =
      some (Kind.ofNegative first second) := by
    rw [Kind.ofBytes?, unknown]
    rfl
  unfold Decoder.kind Decoder.run
  simp only [List.cons_append, found]

theorem ofNegative_mem (first second : UInt8) : Kind.ofNegative first second ∈ negativeKinds := by
  unfold Kind.ofNegative negativeKinds
  repeat' split
  all_goals decide

theorem announces_negative (number : Nat) :
    ∃ kind ∈ negativeKinds, Announces (Encoder.negative number) kind := by
  rw [Encoder.negative, head_eq]
  by_cases small : number < 24
  · have table : ∀ info < 24, Kind.ofFirst? (UInt8.ofNat (32 * 1 + info)) = some .i8 := by decide
    have parts : headParts number = (number, []) := by rw [headParts, if_pos small]
    rw [parts]
    exact ⟨.i8, by decide, announces_of_first (table number small) []⟩
  · have table : ∀ info < 28, 24 ≤ info →
        Kind.ofFirst? (UInt8.ofNat (32 * 1 + info)) = none := by decide
    have long : 24 ≤ (headParts number).1 ∧ (headParts number).2 ≠ [] := by
      have digits (width : Nat) : Bytes.ofNat (width + 1) number ≠ [] := by simp [Bytes.ofNat]
      unfold headParts
      rw [if_neg small]
      repeat' split
      all_goals exact ⟨Nat.le_add_left 24 _, digits _⟩
    have unknown := table _ (headParts_lt number) long.1
    cases rest : (headParts number).2 with
    | nil => exact absurd rest long.2
    | cons second more =>
        exact ⟨_, ofNegative_mem _ second, announces_of_second unknown more⟩

theorem announces_bytes (content : Bytes) : Announces (Encoder.bytes content) .bytes := by
  have table : ∀ info < 28, Kind.ofFirst? (UInt8.ofNat (32 * 2 + info)) = some .bytes := by decide
  rw [Encoder.bytes, head_eq]
  exact announces_of_first (table _ (headParts_lt _)) _

theorem announces_text (content : String) : Announces (Encoder.text content) .text := by
  have table : ∀ info < 28, Kind.ofFirst? (UInt8.ofNat (32 * 3 + info)) = some .text := by decide
  rw [Encoder.text, head_eq]
  exact announces_of_first (table _ (headParts_lt _)) _

theorem announces_array (length : Nat) : Announces (Encoder.array length) .array := by
  have table : ∀ info < 28, Kind.ofFirst? (UInt8.ofNat (32 * 4 + info)) = some .array := by decide
  rw [Encoder.array, head_eq]
  exact announces_of_first (table _ (headParts_lt _)) _

theorem announces_map (length : Nat) : Announces (Encoder.map length) .map := by
  have table : ∀ info < 28, Kind.ofFirst? (UInt8.ofNat (32 * 5 + info)) = some .map := by decide
  rw [Encoder.map, head_eq]
  exact announces_of_first (table _ (headParts_lt _)) _

theorem announces_tag (number : UInt64) : Announces (Encoder.tag number) .tag := by
  have table : ∀ info < 28, Kind.ofFirst? (UInt8.ofNat (32 * 6 + info)) = some .tag := by decide
  rw [Encoder.tag, head_eq]
  exact announces_of_first (table _ (headParts_lt _)) _

theorem announces_openMap : Announces Encoder.openMap .indefiniteMap :=
  announces_of_first (by decide) []

theorem announces_null : Announces Encoder.null .null := announces_of_first (by decide) []

/-! ## Items -/

/-- Items are read by their number. -/
theorem reads_times {item : Decoder α} {encode : α → Bytes} {list : List α}
    (each : ∀ value ∈ list, Reads item (encode value) value) :
    Reads (Decoder.times item list.length) (list.flatMap encode) list := by
  induction list with
  | nil => exact reads_pure []
  | cons first rest ih =>
      have later := ih fun value member => each value (List.mem_cons_of_mem _ member)
      rw [List.flatMap_cons, List.length_cons]
      exact (each first List.mem_cons_self).bind (later.bind_last (reads_pure _))

/-- Items that do not look like a stop byte are read up to one. -/
theorem reads_untilStopWithin {item : Decoder α} {encode : α → Bytes} {list : List α} {fuel : Nat}
    (enough : list.length < fuel)
    (each : ∀ value ∈ list, Reads item (encode value) value)
    (goes : ∀ value ∈ list, ∃ first rest, encode value = first :: rest ∧ first ≠ 0xff) :
    Reads (Decoder.untilStopWithin item fuel) (list.flatMap encode ++ Encoder.stop) list := by
  induction list generalizing fuel with
  | nil =>
      cases fuel with
      | zero => exact absurd enough (Nat.not_lt_zero _)
      | succ fuel => exact fun _ _ _ => rfl
  | cons value rest ih =>
      cases fuel with
      | zero => exact absurd enough (Nat.not_lt_zero _)
      | succ fuel =>
          have later := ih (Nat.lt_of_succ_lt_succ enough)
            (fun other member => each other (List.mem_cons_of_mem _ member))
            (fun other member => goes other (List.mem_cons_of_mem _ member))
          obtain ⟨first, more, shape, proceeds⟩ := goes value List.mem_cons_self
          have reads : Reads (do
              let first ← item
              let others ← Decoder.untilStopWithin item fuel
              return first :: others)
              (encode value ++ (rest.flatMap encode ++ Encoder.stop)) (value :: rest) :=
            (each value List.mem_cons_self).bind (later.bind_last (reads_pure _))
          rw [List.flatMap_cons, List.append_assoc]
          intro small tail position
          have peeked : Decoder.peek.run
              ⟨(encode value ++ (rest.flatMap encode ++ Encoder.stop)) ++ tail, position⟩ =
              .ok (first,
                ⟨(encode value ++ (rest.flatMap encode ++ Encoder.stop)) ++ tail, position⟩) := by
            rw [shape]
            rfl
          rw [Decoder.untilStopWithin, Decoder.run_bind_ok peeked, if_neg proceeds]
          exact reads small tail position

theorem length_le_flatMap {encode : α → Bytes} {list : List α}
    (goes : ∀ value ∈ list, encode value ≠ []) : list.length ≤ (list.flatMap encode).length := by
  induction list with
  | nil => exact Nat.le_refl _
  | cons first rest ih =>
      have later := ih fun value member => goes value (List.mem_cons_of_mem _ member)
      have here := List.length_pos_iff.2 (goes first List.mem_cons_self)
      rw [List.flatMap_cons, List.length_cons, List.length_append]
      omega

theorem Announces.ne_nil {bytes : Bytes} {kind : Kind} (announces : Announces bytes kind) :
    bytes ≠ [] := by
  rintro rfl
  have run := announces [] 0
  cases run

theorem reads_untilStop {item : Decoder α} {encode : α → Bytes} {list : List α}
    (each : ∀ value ∈ list, Reads item (encode value) value)
    (goes : ∀ value ∈ list, ∃ kind, Announces (encode value) kind ∧ kind ≠ .stop) :
    Reads (Decoder.untilStop item) (list.flatMap encode ++ Encoder.stop) list := by
  have firsts : ∀ value ∈ list, ∃ first rest, encode value = first :: rest ∧ first ≠ 0xff := by
    intro value member
    obtain ⟨kind, announces, proceeds⟩ := goes value member
    exact announces.exists_first proceeds
  refine reads_remaining fun left enough => reads_untilStopWithin ?_ each firsts
  have count : list.length ≤ (list.flatMap encode).length := by
    refine length_le_flatMap fun value member => ?_
    obtain ⟨first, rest, shape, _⟩ := firsts value member
    rw [shape]
    exact List.cons_ne_nil first rest
  rw [List.length_append] at enough
  have stop : Encoder.stop.length = 1 := rfl
  omega

/-- The items of a list with a definite length. -/
theorem reads_listOf {item : Decoder α} {encode : α → Bytes} {list : List α}
    (each : ∀ value ∈ list, Reads item (encode value) value)
    (goes : ∀ value ∈ list, encode value ≠ []) :
    Reads (Decoder.listOf item) (encodeList encode list) list := by
  refine Reads.of_fits list.length ?_ fun word => ?_
  · have count := length_le_flatMap goes
    unfold encodeList encodeAll
    rw [List.length_append]
    omega
  · exact (reads_array word).bind (reads_times each)

/-! ## Entries -/

section

variable {key : Decoder α} {value : Decoder β} {encodeKey : α → Bytes} {encodeValue : β → Bytes}
  {entries : List (α × β)}

theorem reads_entry {entry : α × β} (left : Reads key (encodeKey entry.1) entry.1)
    (right : Reads value (encodeValue entry.2) entry.2) :
    Reads (do
        let first ← key
        let second ← value
        return (first, second))
      (encodeKey entry.1 ++ encodeValue entry.2) entry :=
  left.bind (right.bind_last (reads_pure entry))

/-- The entries of a map with a definite length. -/
theorem reads_entriesOf
    (left : ∀ entry ∈ entries, Reads key (encodeKey entry.1) entry.1)
    (right : ∀ entry ∈ entries, Reads value (encodeValue entry.2) entry.2)
    (goes : ∀ entry ∈ entries, encodeKey entry.1 ≠ []) :
    Reads (Decoder.entriesOf key value)
      (Encoder.map entries.length ++ encodeEntries encodeKey encodeValue entries) entries := by
  refine Reads.of_fits entries.length ?_ fun word => ?_
  · have count : entries.length ≤ (encodeEntries encodeKey encodeValue entries).length :=
      length_le_flatMap fun entry member nothing =>
        goes entry member (List.append_eq_nil_iff.1 nothing).1
    rw [List.length_append]
    omega
  · exact (reads_map word).bind (reads_times fun entry member =>
      reads_entry (left entry member) (right entry member))

/-- The entries of a map with an indefinite length. -/
theorem reads_entriesOf_open
    (left : ∀ entry ∈ entries, Reads key (encodeKey entry.1) entry.1)
    (right : ∀ entry ∈ entries, Reads value (encodeValue entry.2) entry.2)
    (goes : ∀ entry ∈ entries, ∃ kind, Announces (encodeKey entry.1) kind ∧ kind ≠ .stop) :
    Reads (Decoder.entriesOf key value)
      (Encoder.openMap ++ encodeEntries encodeKey encodeValue entries ++ Encoder.stop) entries := by
  rw [List.append_assoc]
  refine reads_openMap.bind (reads_untilStop (fun entry member =>
    reads_entry (left entry member) (right entry member)) fun entry member => ?_)
  obtain ⟨kind, announces, proceeds⟩ := goes entry member
  exact ⟨kind, announces.append _, proceeds⟩

end

end UtxoLedger.Cbor
