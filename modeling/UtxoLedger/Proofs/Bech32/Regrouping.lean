import UtxoLedger.Bech32
import UtxoLedger.Bytes.Sized
import UtxoLedger.Proofs.Number.Positional

/-!
# Bytes in five-bit data

Regrouping changes neither the bits nor their order: what comes out denotes
the number that went in. So bytes and their five-bit data, which may end in
fewer than five more bits of zero, determine each other.
-/

namespace UtxoLedger.Bech32

open Number (ofDigits)

/-! ## Regrouping -/

/-- The groups and the bits left over denote what the pending bits and the values denote, in as
many bits. -/
structure Regroups (width target pending bits : Nat) (values groups : List Nat)
    (rest left : Nat) : Prop where
  length : target * groups.length + left = bits + width * values.length
  left_lt : left < target
  small : ∀ group ∈ groups, group < 2 ^ target
  rest_lt : rest < 2 ^ left
  value : ofDigits (2 ^ target) groups * 2 ^ left + rest =
    pending * 2 ^ (width * values.length) + ofDigits (2 ^ width) values

/-- The groups that are cut from the front of a number denote its high part. -/
theorem ofDigits_cut {target left whole total : Nat}
    (fits : total < 2 ^ (target * whole + left)) :
    ofDigits (2 ^ target) ((List.range whole).map fun place =>
      total / 2 ^ (left + target * (whole - 1 - place)) % 2 ^ target) = total / 2 ^ left := by
  have digits := Number.ofDigits_range (2 ^ target) (total / 2 ^ left) whole
  rw [← Nat.pow_mul, Nat.mod_eq_of_lt] at digits
  · rw [← digits]
    refine congrArg (ofDigits _) (List.map_congr_left fun place _ => ?_)
    rw [Nat.pow_add, ← Nat.pow_mul, Nat.div_div_eq_div_mul]
  · rw [Nat.pow_add] at fits
    exact (Nat.div_lt_iff_lt_mul (Nat.two_pow_pos left)).2 fits

/-- One more value comes in behind the pending bits, and whole groups are cut off in front. -/
theorem Regroups.cons {width target pending bits value total whole left final spare : Nat}
    {rest groups : List Nat} (total_eq : total = pending * 2 ^ width + value)
    (sum : target * whole + left = bits + width) (fits : total < 2 ^ (target * whole + left))
    (later : Regroups width target (total % 2 ^ left) left rest groups final spare) :
    Regroups width target pending bits (value :: rest)
      (((List.range whole).map fun place =>
        total / 2 ^ (left + target * (whole - 1 - place)) % 2 ^ target) ++ groups) final spare := by
  have cut := ofDigits_cut fits
  refine ⟨?_, later.left_lt, ?_, later.rest_lt, ?_⟩
  · have length := later.length
    rw [List.length_append, List.length_map, List.length_range, List.length_cons, Nat.mul_add,
      Nat.mul_succ]
    omega
  · intro group member
    rcases List.mem_append.1 member with earlier | after
    · obtain ⟨place, _, rfl⟩ := List.mem_map.1 earlier
      exact Nat.mod_lt _ (Nat.two_pow_pos target)
    · exact later.small group after
  · -- The high part of the total moves up by what the rest takes, and the low part is pending.
    have moved : (2 ^ target) ^ groups.length * 2 ^ spare =
        2 ^ left * 2 ^ (width * rest.length) := by
      rw [← Nat.pow_mul, ← Nat.pow_add, ← Nat.pow_add, later.length]
    calc ofDigits (2 ^ target) (_ ++ groups) * 2 ^ spare + final
        = total / 2 ^ left * (2 ^ left * 2 ^ (width * rest.length)) +
            (ofDigits (2 ^ target) groups * 2 ^ spare + final) := by
          rw [Number.ofDigits_append, cut, Nat.add_mul, Nat.mul_assoc, moved, Nat.add_assoc]
      _ = (2 ^ left * (total / 2 ^ left) + total % 2 ^ left) * 2 ^ (width * rest.length) +
            ofDigits (2 ^ width) rest := by
          rw [later.value, Nat.add_mul, ← Nat.mul_assoc, Nat.mul_comm (total / 2 ^ left),
            Nat.add_assoc]
      _ = pending * 2 ^ (width * (value :: rest).length) +
            ofDigits (2 ^ width) (value :: rest) := by
          rw [Nat.div_add_mod, total_eq, Number.ofDigits_cons, Nat.add_mul, List.length_cons,
            Nat.mul_succ, Nat.add_comm (width * rest.length), Nat.pow_add, Nat.mul_assoc,
            ← Nat.pow_mul, Nat.add_assoc]

theorem regroups_regroup {width target : Nat} (positive : 0 < target) {values : List Nat}
    (small : ∀ value ∈ values, value < 2 ^ width) {pending bits : Nat} (short : bits < target)
    (low : pending < 2 ^ bits) :
    Regroups width target pending bits values (regroup width target pending bits values).1
      (regroup width target pending bits values).2.1
      (regroup width target pending bits values).2.2 := by
  induction values generalizing pending bits with
  | nil =>
      refine ⟨?_, short, List.forall_mem_nil _, low, ?_⟩ <;> simp [regroup, ofDigits]
  | cons value rest ih =>
      have first : value < 2 ^ width := small value List.mem_cons_self
      have sum : target * ((bits + width) / target) + (bits + width) % target = bits + width :=
        Nat.div_add_mod _ _
      have fits : pending * 2 ^ width + value <
          2 ^ (target * ((bits + width) / target) + (bits + width) % target) := by
        have product := Nat.mul_le_mul_right (2 ^ width) (Nat.succ_le_of_lt low)
        rw [Nat.succ_mul, ← Nat.pow_add] at product
        rw [sum]
        exact Nat.lt_of_lt_of_le (Nat.add_lt_add_left first _) product
      exact .cons rfl sum fits (ih (fun other member => small other (List.mem_cons_of_mem _ member))
        (Nat.mod_lt _ positive) (Nat.mod_lt _ (Nat.two_pow_pos _)))

/-! ## Data that hold bytes -/

/-- The data are the bits of the bytes with fewer than five bits of zero behind them. -/
structure HoldsWith (padding : Nat) (data : List Nat) (bytes : Bytes) : Prop where
  small : ∀ value ∈ data, value < 32
  padding_lt : padding < 5
  length : 8 * bytes.length + padding = 5 * data.length
  value : ofDigits 32 data = ofDigits 256 (bytes.map UInt8.toNat) * 2 ^ padding

def Holds (data : List Nat) (bytes : Bytes) : Prop := ∃ padding, HoldsWith padding data bytes

theorem toNat_lt_of_mem {bytes : Bytes} {value : Nat} (member : value ∈ bytes.map UInt8.toNat) :
    value < 2 ^ 8 := by
  obtain ⟨byte, _, rfl⟩ := List.mem_map.1 member
  exact byte.toNat_lt

theorem holds_dataOfBytes (bytes : Bytes) : Holds (dataOfBytes bytes) bytes := by
  have regrouped : Regroups 8 5 0 0 (bytes.map UInt8.toNat) _ _ _ :=
    regroups_regroup (by decide) (fun _ => toNat_lt_of_mem) (by decide) (by decide)
  unfold dataOfBytes
  generalize regroup 8 5 0 0 (bytes.map UInt8.toNat) = outcome at regrouped ⊢
  obtain ⟨groups, rest, left⟩ := outcome
  obtain ⟨length, left_lt, small, rest_lt, value⟩ := regrouped
  simp only [List.length_map, Nat.zero_add, Nat.zero_mul] at length left_lt small rest_lt value
  cases left with
  | zero =>
      obtain rfl := Nat.lt_one_iff.1 rest_lt
      exact ⟨0, small, by decide, length.symm, by simpa using value⟩
  | succ spare =>
      have whole : 2 ^ (spare + 1) * 2 ^ (5 - (spare + 1)) = 32 := by
        rw [← Nat.pow_add, show spare + 1 + (5 - (spare + 1)) = 5 by omega]
      have last : rest * 2 ^ (5 - (spare + 1)) < 32 := by
        rw [← whole]
        exact Nat.mul_lt_mul_of_pos_right rest_lt (Nat.two_pow_pos _)
      refine ⟨5 - (spare + 1), ?_, by omega, ?_, ?_⟩
      · intro digit member
        rcases List.mem_append.1 member with earlier | final
        · exact small digit earlier
        · rw [List.mem_singleton.1 final]
          exact last
      · simp only [List.length_append, List.length_singleton]
        omega
      · simp only [Number.ofDigits_append_singleton]
        rw [show (256 : Nat) = 2 ^ 8 from rfl, ← value, Nat.add_mul, Nat.mul_assoc, whole,
          Nat.mul_comm 32]
        rfl

theorem holds_of_bytesOfData {data : List Nat} {bytes : Bytes}
    (small : ∀ value ∈ data, value < 32) (read : bytesOfData data = .ok bytes) :
    Holds data bytes := by
  have regrouped : Regroups 5 8 0 0 data _ _ _ :=
    regroups_regroup (by decide) small (by decide) (by decide)
  unfold bytesOfData at read
  generalize regroup 5 8 0 0 data = outcome at regrouped read
  obtain ⟨groups, rest, left⟩ := outcome
  obtain ⟨length, _, less, _, value⟩ := regrouped
  simp only at read
  split at read
  next => cases read
  next padded =>
    cases read
    simp only [Bool.or_eq_true, decide_eq_true_eq, not_or, Nat.not_le, ne_eq,
      Decidable.not_not] at padded
    obtain ⟨short, rfl⟩ := padded
    have words : (groups.map UInt8.ofNat).map UInt8.toNat = groups := by
      rw [List.map_map]
      refine (List.map_congr_left fun group member => ?_).trans (List.map_id groups)
      exact UInt8.toNat_ofNat_of_lt' (less group member)
    dsimp only at length less value
    refine ⟨left, small, short, ?_, ?_⟩
    · rw [List.length_map]
      omega
    · rw [words]
      simpa using value.symm

/-- The data tell the bytes: fewer than five bits are not enough for another one. -/
theorem Holds.bytes_eq {data : List Nat} {first second : Bytes} (left : Holds data first)
    (right : Holds data second) : first = second := by
  obtain ⟨padding, _, short, length, value⟩ := left
  obtain ⟨other, _, less, size, number⟩ := right
  obtain rfl : padding = other := by omega
  have same := Nat.eq_of_mul_eq_mul_right (Nat.two_pow_pos padding) (value.symm.trans number)
  have sizes : (first.map UInt8.toNat).length = (second.map UInt8.toNat).length := by
    rw [List.length_map, List.length_map]
    omega
  exact Bytes.rank_injective
    (Number.ofDigits_injective sizes (fun _ => toNat_lt_of_mem) (fun _ => toNat_lt_of_mem) same)

/-- The bytes tell the data. -/
theorem Holds.data_eq {first second : List Nat} {bytes : Bytes} (left : Holds first bytes)
    (right : Holds second bytes) : first = second := by
  obtain ⟨padding, small, short, length, value⟩ := left
  obtain ⟨other, less, fewer, size, number⟩ := right
  obtain rfl : padding = other := by omega
  exact Number.ofDigits_injective (by omega) small less (value.trans number.symm)

end UtxoLedger.Bech32
