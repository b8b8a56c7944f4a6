import UtxoLedger.VarUint

/-!
# Integers in place

A reader may walk over a byte string that it shares with other readers, and
keep the number denoted so far in 128 bits; it stops at the byte that takes
the number over 64 bits, so no bit is ever lost. A writer may append the
groups to a buffer from the lowest one on and then reverse what it has
appended. They read and write the same integers.
-/

namespace UtxoLedger

open Number (digits digits_of_pos)

namespace VarUint

/-! ## Reading at a place -/

/-- The largest word in 128 bits. -/
def largestWord : BitVec 128 := BitVec.ofNat 128 (bound64 - 1)

/-- The number denoted so far with the group of one more byte. -/
def pushGroup (total : BitVec 128) (byte : UInt8) : BitVec 128 :=
  total <<< 7 ||| (byte &&& 0x7f).toBitVec.setWidth 128

/-- Reads groups from a place on; gives the integer and the place behind it. -/
def readAtFrom (total : BitVec 128) (bytes : Bytes) (place : Nat) :
    Except VarUintError (UInt64 × Nat) :=
  if inside : place < bytes.length then
    let next := pushGroup total bytes[place]
    if largestWord < next then .error .overflow
    else if bytes[place] &&& 0x80 = 0 then .ok (UInt64.ofBitVec (next.setWidth 64), place + 1)
    else readAtFrom next bytes (place + 1)
  else .error .unexpectedEnd
termination_by bytes.length - place

/-- The integer at a place in a byte string and the place behind it. -/
def readAt (bytes : Bytes) (place : Nat) : Except VarUintError (UInt64 × Nat) :=
  readAtFrom 0 bytes place

/-- A group takes the seven bits that the shift has made free. -/
theorem toNat_pushGroup {total : BitVec 128} (fits : total.toNat < bound64) (byte : UInt8) :
    (pushGroup total byte).toNat = 128 * total.toNat + byte.toNat % 128 := by
  have group : ((byte &&& 0x7f).toBitVec.setWidth 128).toNat = byte.toNat % 128 := by
    rw [BitVec.toNat_setWidth, UInt8.toNat_toBitVec, UInt8.toNat_and]
    have low : byte.toNat &&& (0x7f : UInt8).toNat = byte.toNat % 128 :=
      Nat.and_two_pow_sub_one_eq_mod byte.toNat 7
    rw [low]
    omega
  have shifted : (total <<< 7).toNat = total.toNat <<< 7 := by
    rw [BitVec.toNat_shiftLeft]
    refine Nat.mod_eq_of_lt ?_
    rw [Nat.shiftLeft_eq]
    exact Nat.lt_trans (Nat.mul_lt_mul_of_pos_right fits (by decide)) (by decide)
  rw [pushGroup, BitVec.toNat_or, shifted, group,
    ← Nat.shiftLeft_add_eq_or_of_lt (Nat.mod_lt _ (by decide)), Nat.shiftLeft_eq, Nat.mul_comm]

theorem largestWord_lt_iff {total : BitVec 128} : largestWord < total ↔ bound64 ≤ total.toNat := by
  rw [BitVec.lt_def]
  exact Nat.succ_le_iff.symm

theorem and_high_eq_zero_iff (byte : UInt8) : byte &&& 0x80 = 0 ↔ byte < 128 := by
  have bits : ∀ number : Fin 256, UInt8.ofNat number &&& 0x80 = 0 ↔ UInt8.ofNat number < 128 := by
    decide +kernel
  have byteBits := bits ⟨byte.toNat, byte.toNat_lt⟩
  rwa [UInt8.ofNat_toNat] at byteBits

/-- What is read in place is what is read from the bytes that stand there. -/
theorem readAtFrom_eq {total : Nat} (fits : total < bound64) (bytes : Bytes) (place : Nat) :
    readAtFrom (BitVec.ofNat 128 total) bytes place =
      (readFrom total (bytes.drop place)).map fun found =>
        (found.1, bytes.length - found.2.length) := by
  have kept : (BitVec.ofNat 128 total).toNat = total := by
    rw [BitVec.toNat_ofNat]
    exact Nat.mod_eq_of_lt (Nat.lt_trans fits (by decide))
  induction left : bytes.length - place generalizing total place with
  | zero =>
      have ends : bytes.length ≤ place := by omega
      rw [readAtFrom, dif_neg (Nat.not_lt.2 ends), List.drop_eq_nil_of_le ends]
      rfl
  | succ left ih =>
      have inside : place < bytes.length := by omega
      have pushed := toNat_pushGroup (kept.symm ▸ fits) bytes[place]
      rw [kept] at pushed
      rw [readAtFrom, dif_pos inside, List.drop_eq_getElem_cons inside, readFrom]
      simp only [largestWord_lt_iff, and_high_eq_zero_iff, pushed]
      split
      next => rfl
      next room =>
        split
        next stops =>
          have word : UInt64.ofBitVec ((pushGroup (BitVec.ofNat 128 total) bytes[place]).setWidth
              64) = UInt64.ofNat (128 * total + bytes[place].toNat % 128) := by
            apply UInt64.toNat_inj.1
            rw [UInt64.toNat_ofBitVec, BitVec.toNat_setWidth, pushed, UInt64.toNat_ofNat']
          rw [word]
          simp only [Except.map, List.length_drop]
          rw [show bytes.length - (bytes.length - (place + 1)) = place + 1 by omega]
        next goes =>
          have number : pushGroup (BitVec.ofNat 128 total) bytes[place] =
              BitVec.ofNat 128 (128 * total + bytes[place].toNat % 128) := by
            rw [← pushed, BitVec.ofNat_toNat, BitVec.setWidth_eq]
          rw [number]
          refine ih (Nat.not_le.1 room) (place + 1) ?_ (by omega)
          rw [← number, pushed]

/-- The integer at a place is the one in front of the bytes that stand there. -/
theorem readAt_eq (bytes : Bytes) (place : Nat) :
    readAt bytes place =
      (read (bytes.drop place)).map fun found => (found.1, bytes.length - found.2.length) :=
  readAtFrom_eq (by decide) bytes place

/-! ## Writing to the end of a buffer -/

/-- Appends the groups of a number from the lowest one on, each marked as continued. -/
def pushMarked (buffer : Bytes) (number : UInt64) : Bytes :=
  if 0 < number then
    pushMarked (buffer ++ [(number &&& 0x7f).toUInt8 ||| 0x80]) (number >>> 7)
  else buffer
termination_by number.toNat
decreasing_by
  have positive : (0 : UInt64).toNat < number.toNat := UInt64.lt_iff_toNat_lt.1 ‹_›
  rw [UInt64.toNat_shiftRight, Nat.shiftRight_eq_div_pow]
  exact Nat.div_lt_self positive (by decide)

/-- Appends an integer: its groups from the lowest one on, which are then reversed. -/
def writeOnto (buffer : Bytes) (number : UInt64) : Bytes :=
  let pushed := pushMarked (buffer ++ [number.toUInt8 &&& 0x7f]) (number >>> 7)
  pushed.take buffer.length ++ (pushed.drop buffer.length).reverse

/-- The byte of a group that others follow. -/
def markedGroup (group : Nat) : UInt8 := UInt8.ofNat (128 + group)

theorem marked_append_singleton (front : List Nat) (last : Nat) :
    marked (front ++ [last]) = front.map markedGroup ++ [UInt8.ofNat last] := by
  induction front with
  | nil => rfl
  | cons group rest ih =>
      cases rest with
      | nil => rfl
      | cons next more => exact congrArg (markedGroup group :: ·) ih

/-- The last group stands alone and those of the quotient are marked. -/
theorem write_eq_append (number : UInt64) :
    write number = (digits 128 (number >>> 7).toNat).map markedGroup ++
      [number.toUInt8 &&& 0x7f] := by
  have quotient : (number >>> 7).toNat = number.toNat / 128 := by
    rw [UInt64.toNat_shiftRight, Nat.shiftRight_eq_div_pow]
    rfl
  have last : number.toUInt8 &&& 0x7f = UInt8.ofNat (number.toNat % 128) := by
    apply UInt8.toNat_inj.1
    have low : number.toUInt8.toNat &&& (0x7f : UInt8).toNat = number.toUInt8.toNat % 128 :=
      Nat.and_two_pow_sub_one_eq_mod _ 7
    rw [UInt8.toNat_and, low, UInt64.toNat_toUInt8, UInt8.toNat_ofNat']
    omega
  unfold write
  by_cases zero : number = 0
  · rw [if_pos zero, zero]
    rfl
  · have positive : 0 < number.toNat :=
      Nat.pos_of_ne_zero fun nothing => zero (UInt64.toNat_inj.1 nothing)
    rw [if_neg zero, digits_of_pos (by decide) positive, marked_append_singleton, quotient, last]

theorem pushMarked_eq (buffer : Bytes) (number : UInt64) :
    pushMarked buffer number =
      buffer ++ ((digits 128 number.toNat).map markedGroup).reverse := by
  induction denoted : number.toNat using Nat.strongRecOn generalizing buffer number with
  | ind size ih =>
      rw [pushMarked]
      split
      next above =>
        have positive : 0 < size := denoted ▸ UInt64.lt_iff_toNat_lt.1 above
        have quotient : (number >>> 7).toNat = size / 128 := by
          rw [UInt64.toNat_shiftRight, Nat.shiftRight_eq_div_pow, denoted]
          rfl
        have byte : (number &&& 0x7f).toUInt8 ||| 0x80 = markedGroup (size % 128) := by
          have low : number.toNat &&& (0x7f : UInt64).toNat = number.toNat % 128 :=
            Nat.and_two_pow_sub_one_eq_mod _ 7
          have high : ∀ group < 128, UInt8.ofNat group ||| 0x80 = markedGroup group := by
            decide +kernel
          rw [← high _ (Nat.mod_lt _ (by decide)), ← denoted]
          congr 1
          apply UInt8.toNat_inj.1
          rw [UInt64.toNat_toUInt8, UInt64.toNat_and, low, UInt8.toNat_ofNat']
        rw [ih (size / 128) (Nat.div_lt_self positive (by decide)) _ _ quotient, byte,
          digits_of_pos (by decide) positive, List.map_append, List.reverse_append,
          List.append_assoc]
        rfl
      next nothing =>
        have zero : size = 0 := by
          rw [UInt64.lt_iff_toNat_lt, denoted] at nothing
          exact Nat.eq_zero_of_not_pos nothing
        rw [zero]
        exact (List.append_nil buffer).symm

/-- A buffer keeps what it holds, and the written form follows it. -/
theorem writeOnto_eq (buffer : Bytes) (number : UInt64) :
    writeOnto buffer number = buffer ++ write number := by
  unfold writeOnto
  simp only [pushMarked_eq, List.append_assoc, List.take_left, List.drop_left]
  rw [write_eq_append, List.reverse_append, List.reverse_reverse]
  rfl

end VarUint

end UtxoLedger
