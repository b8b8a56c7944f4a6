import UtxoLedger.Cbor.Codec

/-!
# Reading what was written

A decoder reads a value from bytes when it yields the value and stops right
behind the bytes, whatever follows them and wherever they stand. Such readings
are put together in the way decoders are. Byte strings that a machine can hold
are shorter than `bound64`, which is what the lengths in heads rely on.
-/

namespace UtxoLedger.Cbor

variable {α β : Type}

/-- The decoder reads the value from the bytes and leaves all that follows. -/
def Reads (decoder : Decoder α) (bytes : Bytes) (value : α) : Prop :=
  bytes.length < bound64 → ∀ tail position,
    decoder.run ⟨bytes ++ tail, position⟩ = .ok (value, ⟨tail, position + bytes.length⟩)

/-- The kind of the item that the bytes start with is known without what follows. -/
def Announces (bytes : Bytes) (kind : Kind) : Prop :=
  ∀ tail position,
    Decoder.kind.run ⟨bytes ++ tail, position⟩ = .ok (kind, ⟨bytes ++ tail, position⟩)

/-! ## Sequences -/

theorem reads_pure (value : α) : Reads (pure value) [] value :=
  fun _ _ _ => rfl

theorem Reads.bind {decoder : Decoder α} {next : α → Decoder β} {first second : Bytes} {value : α}
    {result : β} (reads : Reads decoder first value) (later : Reads (next value) second result) :
    Reads (decoder >>= next) (first ++ second) result := by
  intro small tail position
  rw [List.length_append] at small ⊢
  rw [List.append_assoc, Decoder.run_bind_ok (reads (by omega) _ position),
    later (by omega) tail _, Nat.add_assoc]

/-- Nothing follows the last part. -/
theorem Reads.bind_last {decoder : Decoder α} {next : α → Decoder β} {bytes : Bytes} {value : α}
    {result : β} (reads : Reads decoder bytes value) (later : Reads (next value) [] result) :
    Reads (decoder >>= next) bytes result := by
  have joined := reads.bind later
  rwa [List.append_nil] at joined

theorem Reads.map {decoder : Decoder α} {bytes : Bytes} {value : α}
    (reads : Reads decoder bytes value) (change : α → β) :
    Reads (change <$> decoder) bytes (change value) :=
  reads.bind_last (reads_pure _)

theorem reads_position {next : Nat → Decoder β} {bytes : Bytes} {result : β}
    (later : ∀ start, Reads (next start) bytes result) :
    Reads (Decoder.position >>= next) bytes result :=
  fun small tail position => later position small tail position

/-- What may be left is at least what is read. -/
theorem reads_remaining {next : Nat → Decoder β} {bytes : Bytes} {result : β}
    (later : ∀ left, bytes.length ≤ left → Reads (next left) bytes result) :
    Reads (Decoder.remaining >>= next) bytes result := by
  intro small tail position
  refine later (bytes ++ tail).length ?_ small tail position
  rw [List.length_append]
  omega

theorem reads_kind {next : Kind → Decoder β} {bytes : Bytes} {kind : Kind} {result : β}
    (announces : Announces bytes kind) (later : Reads (next kind) bytes result) :
    Reads (Decoder.kind >>= next) bytes result := by
  intro small tail position
  rw [Decoder.run_bind_ok (announces tail position)]
  exact later small tail position

theorem Announces.append {bytes : Bytes} {kind : Kind} (announces : Announces bytes kind)
    (more : Bytes) : Announces (bytes ++ more) kind := by
  intro tail position
  rw [List.append_assoc]
  exact announces (more ++ tail) position

theorem announces_of_first {first : UInt8} {kind : Kind} (known : Kind.ofFirst? first = some kind)
    (rest : Bytes) : Announces (first :: rest) kind := by
  intro tail position
  have found : Kind.ofBytes? first (rest ++ tail).head? = some kind := by
    rw [Kind.ofBytes?, known]
  unfold Decoder.kind Decoder.run
  simp only [List.cons_append, found]

/-- The first byte of bytes that announce a kind other than a stop. -/
theorem Announces.exists_first {bytes : Bytes} {kind : Kind} (announces : Announces bytes kind)
    (goes : kind ≠ .stop) : ∃ first rest, bytes = first :: rest ∧ first ≠ 0xff := by
  have run := announces [] 0
  rw [List.append_nil] at run
  cases bytes with
  | nil => cases run
  | cons first rest =>
      refine ⟨first, rest, rfl, ?_⟩
      rintro rfl
      have stop : Decoder.kind.run ⟨0xff :: rest, 0⟩ = .ok (.stop, ⟨0xff :: rest, 0⟩) := rfl
      rw [stop] at run
      exact goes (congrArg Prod.fst (Except.ok.inj run)).symm

/-! ## Bytes -/

theorem reads_byte (byte : UInt8) : Reads Decoder.byte [byte] byte := fun _ _ _ => rfl

theorem run_take (bytes tail : Bytes) (position : Nat) :
    (Decoder.take bytes.length).run ⟨bytes ++ tail, position⟩ =
      .ok (bytes, ⟨tail, position + bytes.length⟩) := by
  unfold Decoder.take Decoder.run
  simp only [Bytes.splitAt?_append]

theorem reads_take (bytes : Bytes) : Reads (Decoder.take bytes.length) bytes bytes :=
  fun _ => run_take bytes

/-! ## Heads -/

/-- The digits of a number are read back when there are enough of them. -/
theorem reads_digits {width number : Nat} (fits : number < Nat.pow 256 width) :
    Reads (Bytes.toNat <$> Decoder.take width) (Bytes.ofNat width number) number := by
  have taken := reads_take (Bytes.ofNat width number)
  rw [Bytes.length_ofNat] at taken
  have reads := taken.map Bytes.toNat
  rwa [Bytes.toNat_ofNat, Nat.mod_eq_of_lt fits] at reads

/-- The low bits of the first byte of a head and the bytes after it. -/
def headParts (number : Nat) : Nat × Bytes :=
  if number < 24 then (number, [])
  else if number < 256 then (24, Bytes.ofNat 1 number)
  else if number < bound16 then (25, Bytes.ofNat 2 number)
  else if number < bound32 then (26, Bytes.ofNat 4 number)
  else (27, Bytes.ofNat 8 number)

theorem head_eq (major number : Nat) :
    Encoder.head major number =
      UInt8.ofNat (32 * major + (headParts number).1) :: (headParts number).2 := by
  unfold Encoder.head headParts
  simp only
  repeat' split
  all_goals rfl

theorem headParts_lt (number : Nat) : (headParts number).1 < 28 := by
  unfold headParts
  repeat' split
  all_goals simp only; omega

theorem reads_argument {number : Nat} (word : number < bound64) :
    Reads (Decoder.argument (headParts number).1) (headParts number).2 number := by
  unfold headParts
  split
  next small =>
    simp only [Decoder.argument, if_pos small]
    exact reads_pure number
  next =>
    split
    next small => exact reads_digits small
    next =>
      split
      next small => exact reads_digits small
      next =>
        split
        next small => exact reads_digits small
        next => exact reads_digits word

section

variable {major number : Nat}

theorem toNat_first (known : major < 8) :
    (UInt8.ofNat (32 * major + (headParts number).1)).toNat =
      32 * major + (headParts number).1 := by
  have low := headParts_lt number
  rw [UInt8.toNat_ofNat']
  omega

theorem reads_head (known : major < 8) (word : number < bound64) :
    Reads (Decoder.head major) (Encoder.head major number) number := by
  have low := headParts_lt number
  rw [head_eq]
  refine (reads_byte _).bind ?_
  rw [toNat_first known, if_pos (by omega),
    show (32 * major + (headParts number).1) % 32 = (headParts number).1 by omega]
  exact reads_argument word

theorem reads_openHead (known : major < 8) (word : number < bound64) :
    Reads (Decoder.openHead major) (Encoder.head major number) (some number) := by
  have low := headParts_lt number
  rw [head_eq]
  refine (reads_byte _).bind ?_
  rw [toNat_first known, if_pos (by omega),
    show (32 * major + (headParts number).1) % 32 = (headParts number).1 by omega,
    if_neg (by omega)]
  exact (reads_argument word).map some

end

theorem reads_openMap : Reads Decoder.map Encoder.openMap none := fun _ _ _ => rfl

/-! ## Scalars -/

theorem reads_unsigned {number : Nat} (word : number < bound64) :
    Reads Decoder.unsigned (Encoder.unsigned number) number :=
  reads_head (by decide) word

theorem reads_unsignedBelow {limit number : Nat} (word : number < bound64)
    (below : number < limit) :
    Reads (Decoder.unsignedBelow limit) (Encoder.unsigned number) number := by
  refine (reads_unsigned word).bind_last ?_
  rw [if_pos below]
  exact reads_pure number

theorem reads_signed_unsigned {number : Nat} (word : number < bound64) :
    Reads Decoder.signed (Encoder.unsigned number) (false, number) := by
  have low := headParts_lt number
  rw [Encoder.unsigned, head_eq]
  refine (reads_byte _).bind ?_
  simp only [toNat_first (show 0 < 8 by decide)]
  rw [if_pos (by simp only [Bool.and_eq_true, decide_eq_true_eq]; omega),
    show (32 * 0 + (headParts number).1) % 32 = (headParts number).1 by omega]
  exact (reads_argument word).bind_last (reads_pure _)

theorem reads_signed_negative {number : Nat} (word : number < bound64) :
    Reads Decoder.signed (Encoder.negative number) (true, number) := by
  have low := headParts_lt number
  rw [Encoder.negative, head_eq]
  refine (reads_byte _).bind ?_
  simp only [toNat_first (show 1 < 8 by decide)]
  rw [if_neg (by simp only [Bool.and_eq_true, decide_eq_true_eq]; omega),
    if_pos (by simp only [Bool.and_eq_true, decide_eq_true_eq]; omega),
    show (32 * 1 + (headParts number).1) % 32 = (headParts number).1 by omega]
  exact (reads_argument word).bind_last (reads_pure _)

theorem reads_bool (value : Bool) : Reads Decoder.bool (Encoder.bool value) value := by
  cases value <;> exact fun _ _ _ => rfl

/-- A length that fits into the bytes is a word. -/
theorem Reads.of_fits {decoder : Decoder α} {bytes : Bytes} {value : α} (size : Nat)
    (least : size ≤ bytes.length) (reads : size < bound64 → Reads decoder bytes value) :
    Reads decoder bytes value :=
  fun small => reads (Nat.lt_of_le_of_lt least small) small

theorem reads_bytes (content : Bytes) : Reads Decoder.bytes (Encoder.bytes content) content := by
  refine Reads.of_fits content.length ?_ fun word => ?_
  · rw [Encoder.bytes, List.length_append]
    omega
  · have low := headParts_lt content.length
    rw [Encoder.bytes, head_eq, List.cons_append]
    refine (reads_byte _).bind ?_
    simp only [toNat_first (show 2 < 8 by decide)]
    rw [if_pos (by simp only [ne_eq, decide_not, Bool.and_eq_true, decide_eq_true_eq,
        Bool.not_eq_true', decide_eq_false_iff_not]; omega),
      show (32 * 2 + (headParts content.length).1) % 32 = (headParts content.length).1 by omega]
    exact (reads_argument word).bind (reads_take content)

/-- Bytes that a check accepts. -/
theorem reads_checkedBytes {ε : Type} {check : Bytes → Except ε α} {wording : ε → String}
    {content : Bytes} {value : α} (accepted : check content = .ok value) :
    Reads (do
        let start ← Decoder.position
        let bytes ← Decoder.bytes
        Decoder.orReject start wording (check bytes))
      (Encoder.bytes content) value := by
  refine reads_position fun start => (reads_bytes content).bind_last ?_
  rw [accepted]
  exact reads_pure value

theorem reads_text (content : String) : Reads Decoder.text (Encoder.text content) content := by
  refine Reads.of_fits (Text.toBytes content).length ?_ fun word => ?_
  · rw [Encoder.text, List.length_append]
    omega
  · have low := headParts_lt (Text.toBytes content).length
    rw [Encoder.text, head_eq, List.cons_append]
    refine (reads_byte _).bind ?_
    simp only [toNat_first (show 3 < 8 by decide)]
    rw [if_pos (by simp only [ne_eq, decide_not, Bool.and_eq_true, decide_eq_true_eq,
        Bool.not_eq_true', decide_eq_false_iff_not]; omega),
      show (32 * 3 + (headParts (Text.toBytes content).length).1) % 32 =
        (headParts (Text.toBytes content).length).1 by omega]
    refine (reads_argument word).bind ((reads_take _).bind_last ?_)
    rw [Text.ofBytes?_toBytes]
    exact reads_pure content

theorem reads_tag (number : UInt64) : Reads Decoder.tag (Encoder.tag number) number := by
  have reads := (reads_head (show 6 < 8 by decide) number.toNat_lt).map UInt64.ofNat
  rwa [UInt64.ofNat_toNat] at reads

theorem reads_array {length : Nat} (word : length < bound64) :
    Reads Decoder.array (Encoder.array length) (some length) :=
  reads_openHead (by decide) word

theorem reads_map {length : Nat} (word : length < bound64) :
    Reads Decoder.map (Encoder.map length) (some length) :=
  reads_openHead (by decide) word

theorem reads_expectTag (number : UInt64) (description : String) :
    Reads (Decoder.expectTag number description) (Encoder.tag number) () := by
  refine reads_position fun start => (reads_tag number).bind_last ?_
  rw [if_pos rfl]
  exact reads_pure ()

end UtxoLedger.Cbor
