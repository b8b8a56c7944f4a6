import UtxoLedger.Proofs.Cbor.Heads

/-!
# Well-formed items

An item is a head with what the head asks for: nothing, the bytes of a
string, or further items. The bytes of some items are told in the order in
which they stand, so a container is its head in front of the items inside and
of those behind it. A container without a length goes on up to a stop byte.
-/

namespace UtxoLedger.Cbor

/-- The bytes are a string of a major type, with its length. -/
inductive IsString : (major : Nat) → Bytes → Prop where
  | bytes {head content : Bytes} (form : IsHead 2 content.length head) :
      IsString 2 (head ++ content)
  | text {head content : Bytes} {string : String} (form : IsHead 3 content.length head)
      (valid : Text.ofBytes? content = some string) : IsString 3 (head ++ content)

/-- The bytes are an item without items inside. -/
inductive IsScalar : Bytes → Prop where
  | number {major number : Nat} {head : Bytes} (sign : major = 0 ∨ major = 1)
      (form : IsHead major number head) : IsScalar head
  | string {major : Nat} {bytes : Bytes} (form : IsString major bytes) : IsScalar bytes
  | chunks {major : Nat} {chunks : List Bytes} (known : major = 2 ∨ major = 3)
      (each : ∀ chunk ∈ chunks, IsString major chunk) :
      IsScalar (UInt8.ofNat (32 * major + 31) :: (chunks.flatten ++ [0xff]))
  | simple {number : Nat} {head : Bytes} (form : IsHead 7 number head) : IsScalar head

/-- The major types of containers, and how many items are inside for each one that is counted. -/
inductive IsContainer : (major width : Nat) → Prop where
  | array : IsContainer 4 1
  | map : IsContainer 5 2

/-- The bytes are a number of items, one after the other. -/
inductive AreItems : (count : Nat) → Bytes → Prop where
  | none : AreItems 0 []
  | scalar {count : Nat} {item rest : Bytes} (form : IsScalar item)
      (later : AreItems count rest) : AreItems (count + 1) (item ++ rest)
  | tagged {count tag : Nat} {head rest : Bytes} (form : IsHead 6 tag head)
      (later : AreItems (count + 1) rest) : AreItems (count + 1) (head ++ rest)
  | container {count major width length : Nat} {head rest : Bytes}
      (known : IsContainer major width) (form : IsHead major length head)
      (later : AreItems (width * length + count) rest) : AreItems (count + 1) (head ++ rest)
  | openContainer {count major width length : Nat} {inner rest : Bytes}
      (known : IsContainer major width) (inside : AreItems (width * length) inner)
      (later : AreItems count rest) :
      AreItems (count + 1) (UInt8.ofNat (32 * major + 31) :: (inner ++ 0xff :: rest))

/-- The bytes are one item. -/
def IsItem (bytes : Bytes) : Prop := AreItems 1 bytes

/-! ## Lengths -/

theorem IsHead.length_pos {major number : Nat} {bytes : Bytes} (form : IsHead major number bytes) :
    0 < bytes.length := by
  cases form with
  | mk argument => exact Nat.succ_pos _

theorem IsString.length_pos {major : Nat} {bytes : Bytes} (form : IsString major bytes) :
    0 < bytes.length := by
  cases form with
  | bytes form | text form _ =>
      have start := form.length_pos
      rw [List.length_append]
      omega

theorem IsScalar.length_pos {bytes : Bytes} (form : IsScalar bytes) : 0 < bytes.length := by
  cases form with
  | number _ form | string form | simple form => exact form.length_pos
  | chunks => exact Nat.succ_pos _

namespace AreItems

variable {count more : Nat} {bytes others : Bytes}

/-- Every item takes a byte. -/
theorem le_length (items : AreItems count bytes) : count ≤ bytes.length := by
  induction items with
  | none => exact Nat.le_refl 0
  | scalar form _ ih =>
      have here := form.length_pos
      rw [List.length_append]
      omega
  | tagged _ _ ih =>
      rw [List.length_append]
      omega
  | container _ form _ ih =>
      have here := form.length_pos
      rw [List.length_append]
      omega
  | openContainer _ _ _ _ ih =>
      rw [List.length_cons, List.length_append, List.length_cons]
      omega

/-! ## Sequences -/

theorem append (items : AreItems count bytes) (later : AreItems more others) :
    AreItems (count + more) (bytes ++ others) := by
  induction items with
  | none => rwa [Nat.zero_add]
  | scalar form _ ih =>
      rw [Nat.add_right_comm, List.append_assoc]
      exact .scalar form ih
  | tagged form _ ih =>
      rw [Nat.add_right_comm] at ih ⊢
      rw [List.append_assoc]
      exact .tagged form ih
  | container known form _ ih =>
      rw [Nat.add_right_comm, List.append_assoc]
      rw [Nat.add_assoc] at ih
      exact .container known form ih
  | openContainer known inside _ _ ih =>
      rw [Nat.add_right_comm, List.cons_append, List.append_assoc]
      exact .openContainer known inside ih

/-- Items can be parted behind any number of them. -/
theorem exists_parts {total : Nat} (items : AreItems total bytes) (parted : total = count + more) :
    ∃ first second, bytes = first ++ second ∧ AreItems count first ∧ AreItems more second := by
  induction items generalizing count with
  | none =>
      obtain ⟨rfl, rfl⟩ := Nat.add_eq_zero_iff.1 parted.symm
      exact ⟨[], [], rfl, .none, .none⟩
  | @scalar _ item _ form later ih =>
      cases count with
      | zero => exact ⟨[], _, rfl, .none, parted.trans (Nat.zero_add more) ▸ .scalar form later⟩
      | succ count =>
          obtain ⟨first, second, rfl, front, back⟩ := @ih count (by omega)
          exact ⟨item ++ first, second, (List.append_assoc ..).symm, .scalar form front, back⟩
  | @tagged _ _ head _ form later ih =>
      cases count with
      | zero => exact ⟨[], _, rfl, .none, parted.trans (Nat.zero_add more) ▸ .tagged form later⟩
      | succ count =>
          obtain ⟨first, second, rfl, front, back⟩ := ih parted
          exact ⟨head ++ first, second, (List.append_assoc ..).symm, .tagged form front, back⟩
  | @container _ _ width length head _ known form later ih =>
      cases count with
      | zero =>
          exact ⟨[], _, rfl, .none, parted.trans (Nat.zero_add more) ▸ .container known form later⟩
      | succ count =>
          obtain ⟨first, second, rfl, front, back⟩ := @ih (width * length + count) (by omega)
          exact ⟨head ++ first, second, (List.append_assoc ..).symm, .container known form front,
            back⟩
  | openContainer known inside later _ ih =>
      cases count with
      | zero =>
          refine ⟨[], _, rfl, .none, parted.trans (Nat.zero_add more) ▸ ?_⟩
          exact .openContainer known inside later
      | succ count =>
          obtain ⟨first, second, rfl, front, back⟩ := @ih count (by omega)
          refine ⟨_, second, ?_, .openContainer known inside front, back⟩
          rw [List.cons_append, List.append_assoc, List.cons_append]

end AreItems

/-! ## Single items -/

theorem isItem_scalar {bytes : Bytes} (form : IsScalar bytes) : IsItem bytes := by
  rw [← List.append_nil bytes]
  exact .scalar form .none

/-- An array of as many elements as its head counts is an item. -/
theorem isItem_array {length : Nat} {head items : Bytes} (form : IsHead 4 length head)
    (elements : AreItems length items) : IsItem (head ++ items) := by
  refine .container .array form ?_
  rw [Nat.one_mul]
  exact elements

/-- Any number of elements can be made up from a number of one byte. -/
theorem areItems_zeros (count : Nat) : AreItems count (List.replicate count 0x00) := by
  induction count with
  | zero => exact .none
  | succ count ih =>
      exact .scalar (.number (.inl rfl) (.mk (.short (by decide : 0 < 24)))) ih

end UtxoLedger.Cbor
