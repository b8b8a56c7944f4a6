import UtxoLedger.Proofs.Cbor.Levels
import UtxoLedger.Proofs.Cbor.WellFormed
import UtxoLedger.Proofs.Cbor.Yields

/-!
# Walking over well-formed items

A walk goes over well-formed items one after the other and then owes what it
should. So an item is skipped as a whole, whatever follows it, and no item is
the start of another one.
-/

namespace UtxoLedger.Cbor

open Decoder
open Pending (IsAt Takes settled)

variable {cursor after : Cursor} {major number : Nat} {bytes head : Bytes} {pending : Pending}

/-! ## Steps -/

/-- The branches of a step, by the major type of the next item. -/
def majorStep (pending : Pending) : (major : Nat) → Decoder (Option Pending)
  | 0 => do
      let _ ← unsigned
      return pending.settle
  | 1 => do
      let _ ← signed
      return pending.settle
  | 2 => do
      chunked 2 Decoder.bytes
      return pending.settle
  | 3 => do
      chunked 3 text
      return pending.settle
  | 4 => do
      match ← array with
      | some length => return (pending.openDefinite length).settle
      | none => return pending.openIndefinite.settle
  | 5 => do
      match ← map with
      | some length => return (pending.openDefinite (Pending.capped (2 * length))).settle
      | none => return pending.openIndefinite.settle
  | 6 => do
      let _ ← tag
      return some pending
  | _ => do
      simple
      return pending.settle

/-- The major type decides, unless the first byte is one that no item starts with. -/
theorem run_skipStep_of_major {info : Nat} {first : UInt8} {rest : Bytes} {position : Nat}
    (shape : first.toNat = 32 * major + info) (known : major < 8)
    (low : info < 28 ∨ info = 31 ∧ 2 ≤ major ∧ major ≤ 5) :
    (skipStep pending).run ⟨first :: rest, position⟩ =
      (majorStep pending major).run ⟨first :: rest, position⟩ := by
  have peeked : peek.run ⟨first :: rest, position⟩ = .ok (first, ⟨first :: rest, position⟩) := rfl
  unfold skipStep
  rw [run_bind_ok peeked]
  have bounds (bound : UInt8) : first ≤ bound ↔ 32 * major + info ≤ bound.toNat := by
    rw [UInt8.le_iff_toNat_le, shape]
  have above (bound : UInt8) : bound ≤ first ↔ bound.toNat ≤ 32 * major + info := by
    rw [UInt8.le_iff_toNat_le, shape]
  have majors : major = 0 ∨ major = 1 ∨ major = 2 ∨ major = 3 ∨ major = 4 ∨ major = 5 ∨
      major = 6 ∨ major = 7 := by omega
  simp only [bounds, above, Bool.and_eq_true, decide_eq_true_eq, UInt8.reduceToNat]
  rcases majors with rfl | rfl | rfl | rfl | rfl | rfl | rfl | rfl
  -- The branches of the major types below are passed over.
  all_goals
    repeat rw [if_neg (by omega)]
    rw [if_pos (by omega)]
    rfl

theorem run_skipStep_head {middle : Cursor} (known : major < 8) (form : IsHead major number head)
    (passes : cursor.Passes head middle) :
    (skipStep pending).run cursor = (majorStep pending major).run cursor := by
  obtain ⟨announced⟩ := form
  obtain ⟨_, tail, position⟩ := passes
  have low := announced.info_lt
  exact run_skipStep_of_major (toNat_parts known (by omega)) known (.inl low)

/-- The first byte of what goes on up to a stop byte. -/
theorem run_skipStep_open {middle : Cursor} (known : 2 ≤ major ∧ major ≤ 5)
    (passes : cursor.Passes [UInt8.ofNat (32 * major + 31)] middle) :
    (skipStep pending).run cursor = (majorStep pending major).run cursor := by
  obtain ⟨_, tail, position⟩ := passes
  exact run_skipStep_of_major (toNat_parts (by omega) (by omega)) (by omega) (.inr ⟨rfl, known⟩)

theorem run_skipStep_stop (passes : cursor.Passes [0xff] after) :
    (skipStep pending).run cursor = .ok (pending.close.settle, after) := by
  obtain ⟨_, tail, position⟩ := passes
  rfl

/-! ## Items without items inside -/

theorem run_signed_of_head (sign : major = 0 ∨ major = 1) (form : IsHead major number head)
    (passes : cursor.Passes head after) :
    ∃ isNegative, signed.run cursor = .ok ((isNegative, number), after) := by
  obtain @⟨info, _, announced⟩ := form
  have low := announced.info_lt
  obtain ⟨middle, start, passes⟩ := Cursor.passes_cons.1 passes
  have counted := run_argument_eq_ok_iff.2 ⟨_, announced, passes⟩
  unfold signed
  rw [run_bind_ok (run_byte_eq_ok_iff.2 start)]
  rcases sign with rfl | rfl
  · rw [toNat_parts (by decide) (by omega), if_pos (by simp; omega),
      show (32 * 0 + info) % 32 = info by omega, run_bind_ok counted]
    exact ⟨false, rfl⟩
  · rw [toNat_parts (by decide) (by omega), if_neg (by simp), if_pos (by simp; omega),
      show (32 * 1 + info) % 32 = info by omega, run_bind_ok counted]
    exact ⟨true, rfl⟩

theorem run_simple_of_head (form : IsHead 7 number head) (passes : cursor.Passes head after) :
    simple.run cursor = .ok ((), after) := by
  obtain @⟨info, _, announced⟩ := form
  have low := announced.info_lt
  obtain ⟨middle, start, passes⟩ := Cursor.passes_cons.1 passes
  have counted := run_argument_eq_ok_iff.2 ⟨_, announced, passes⟩
  unfold simple
  rw [run_bind_ok (run_byte_eq_ok_iff.2 start), toNat_parts (by decide) (by omega),
    show (32 * 7 + info) % 32 = info by omega, run_bind_ok counted]
  rfl

/-- The reader takes every string of a major type. -/
def ReadsStrings {α : Type} (major : Nat) (chunk : Decoder α) : Prop :=
  ∀ ⦃cursor bytes after⦄, IsString major bytes → cursor.Passes bytes after →
    ∃ value, chunk.run cursor = .ok (value, after)

theorem readsStrings_bytes : ReadsStrings 2 Decoder.bytes := by
  rintro cursor _ after ⟨form⟩ passes
  exact ⟨_, run_bytes_eq_ok_iff.2 ⟨_, form, passes⟩⟩

theorem readsStrings_text : ReadsStrings 3 Decoder.text := by
  intro cursor bytes after string passes
  cases string with
  | text form valid => exact ⟨_, run_text_eq_ok_iff.2 ⟨_, _, valid, form, passes⟩⟩

variable {α : Type} {chunk : Decoder α}

theorem IsString.exists_first (string : IsString major bytes) :
    ∃ info rest, info < 28 ∧ major < 4 ∧ bytes = UInt8.ofNat (32 * major + info) :: rest := by
  cases string with
  | bytes form | text form _ =>
      obtain ⟨announced⟩ := form
      exact ⟨_, _, announced.info_lt, by decide, rfl⟩

theorem run_chunked_string (reads : ReadsStrings major chunk) (string : IsString major bytes)
    (passes : cursor.Passes bytes after) :
    (chunked major chunk).run cursor = .ok ((), after) := by
  obtain ⟨value, read⟩ := reads string passes
  obtain ⟨info, rest, low, known, rfl⟩ := string.exists_first
  obtain ⟨_, tail, position⟩ := passes
  unfold chunked
  rw [run_bind_ok rfl, toNat_parts (by omega) (by omega), if_neg (by simp; omega),
    run_bind_ok read]
  rfl

/-- Strings up to a stop byte are read with fuel for all of them. -/
theorem run_untilStopWithin_strings (reads : ReadsStrings major chunk) {chunks : List Bytes}
    {fuel : Nat} (enough : chunks.length < fuel) (each : ∀ piece ∈ chunks, IsString major piece)
    (passes : cursor.Passes (chunks.flatten ++ [0xff]) after) :
    ∃ values, (untilStopWithin chunk fuel).run cursor = .ok (values, after) := by
  induction chunks generalizing cursor fuel with
  | nil =>
      obtain ⟨_, tail, position⟩ := passes
      cases fuel with
      | zero => cases enough
      | succ fuel => exact ⟨[], rfl⟩
  | cons piece chunks ih =>
      cases fuel with
      | zero => cases enough
      | succ fuel =>
          rw [List.flatten_cons, List.append_assoc] at passes
          obtain ⟨middle, here, later⟩ := Cursor.passes_append.1 passes
          have string := each piece List.mem_cons_self
          obtain ⟨value, read⟩ := reads string here
          obtain ⟨values, rest⟩ := ih (Nat.lt_of_succ_lt_succ enough)
            (fun other member => each other (List.mem_cons_of_mem _ member)) later
          obtain ⟨info, others, low, known, rfl⟩ := string.exists_first
          obtain ⟨_, tail, position⟩ := here
          have goes : UInt8.ofNat (32 * major + info) ≠ 0xff := by
            intro stop
            have same := congrArg UInt8.toNat stop
            rw [toNat_parts (by omega) (by omega)] at same
            simp at same
            omega
          unfold untilStopWithin
          rw [run_bind_ok rfl, if_neg goes, run_bind_ok read, run_bind_ok rest]
          exact ⟨_, rfl⟩

theorem run_chunked_chunks (reads : ReadsStrings major chunk) (known : major < 4)
    {chunks : List Bytes} (each : ∀ piece ∈ chunks, IsString major piece)
    (passes : cursor.Passes (UInt8.ofNat (32 * major + 31) :: (chunks.flatten ++ [0xff])) after) :
    (chunked major chunk).run cursor = .ok ((), after) := by
  obtain ⟨middle, start, later⟩ := Cursor.passes_cons.1 passes
  have enough : chunks.length < middle.rest.length := by
    have pieces : chunks.length ≤ chunks.flatten.length := by
      rw [List.flatten_eq_flatMap]
      refine length_le_flatMap fun piece member => ?_
      exact List.length_pos_iff.1 (each piece member).length_pos
    obtain ⟨_, tail, position⟩ := later
    simp only [List.length_append, List.length_cons]
    omega
  obtain ⟨values, read⟩ := run_untilStopWithin_strings reads enough each later
  have opened := run_byte_eq_ok_iff.2 start
  have inside : (untilStop chunk).run middle = .ok (values, after) := read
  obtain ⟨_, tail, position⟩ := start
  unfold chunked
  rw [run_bind_ok rfl, toNat_parts (by omega) (by omega), if_pos (by simp; omega),
    run_bind_ok opened, run_bind_ok inside]
  rfl

/-- A step goes over an item without items inside. -/
theorem run_skipStep_scalar (form : IsScalar bytes) (passes : cursor.Passes bytes after) :
    (skipStep pending).run cursor = .ok (pending.settle, after) := by
  cases form with
  | number sign form =>
      obtain ⟨isNegative, read⟩ := run_signed_of_head sign form passes
      rw [run_skipStep_head (by omega) form passes]
      rcases sign with rfl | rfl
      · exact run_bind_ok ((run_head_eq_ok_iff (by decide)).2 ⟨_, form, passes⟩)
      · exact run_bind_ok read
  | string string =>
      cases string with
      | @bytes head content form =>
          obtain ⟨middle, start, -⟩ := Cursor.passes_append.1 passes
          rw [run_skipStep_head (by decide) form start]
          exact run_bind_ok (run_chunked_string readsStrings_bytes (.bytes form) passes)
      | @text head content _ form valid =>
          obtain ⟨middle, start, -⟩ := Cursor.passes_append.1 passes
          rw [run_skipStep_head (by decide) form start]
          exact run_bind_ok (run_chunked_string readsStrings_text (.text form valid) passes)
  | chunks known each =>
      obtain ⟨middle, start, -⟩ := Cursor.passes_cons.1 passes
      rw [run_skipStep_open (by omega) start]
      rcases known with rfl | rfl
      · exact run_bind_ok (run_chunked_chunks readsStrings_bytes (by decide) each passes)
      · exact run_bind_ok (run_chunked_chunks readsStrings_text (by decide) each passes)
  | simple form =>
      rw [run_skipStep_head (by decide) form passes]
      exact run_bind_ok (run_simple_of_head form passes)

/-! ## Containers and tags -/

theorem run_skipStep_tag (form : IsHead 6 number head) (passes : cursor.Passes head after) :
    (skipStep pending).run cursor = .ok (some pending, after) := by
  rw [run_skipStep_head (by decide) form passes]
  have read := (run_head_eq_ok_iff (by decide)).2 ⟨_, form, passes⟩
  exact run_bind_ok (run_map_eq_ok.2 ⟨number, read, rfl⟩)

/-- Behind the head of a container the items inside are owed, when a word can count them. -/
theorem run_skipStep_container {width length : Nat} (container : IsContainer major width)
    (form : IsHead major length head) (passes : cursor.Passes head after)
    (small : width * length < bound64) :
    (skipStep pending).run cursor =
      .ok ((pending.openDefinite (width * length)).settle, after) := by
  cases container with
  | array =>
      rw [run_skipStep_head (by decide) form passes, Nat.one_mul]
      exact run_bind_ok ((run_openHead_some_eq_ok_iff (by decide)).2 ⟨_, form, passes⟩)
  | map =>
      have capped : Pending.capped (2 * length) = 2 * length := Nat.min_eq_left (by omega)
      rw [run_skipStep_head (by decide) form passes]
      rw [← capped]
      exact run_bind_ok ((run_openHead_some_eq_ok_iff (by decide)).2 ⟨_, form, passes⟩)

theorem run_skipStep_openContainer {width : Nat} (container : IsContainer major width)
    (passes : cursor.Passes [UInt8.ofNat (32 * major + 31)] after) :
    (skipStep pending).run cursor = .ok (pending.openIndefinite.settle, after) := by
  cases container with
  | array | map =>
      rw [run_skipStep_open (by decide) passes]
      exact run_bind_ok ((run_openHead_none_eq_ok_iff (by decide)).2 passes)

/-! ## The walk -/

/-- A walk goes on from a place until nothing is owed. -/
def Ends : (place : Option Pending) → (cursor final : Cursor) → Prop
  | none, cursor, final => cursor = final
  | some pending, cursor, final => ∃ fuel, (skipWithin fuel pending).run cursor = .ok ((), final)

/-- A walk gets from one place to another: it ends from the first where it does from the second. -/
def Leads (before : Option Pending) (cursor : Cursor) (behind : Option Pending)
    (after : Cursor) : Prop :=
  ∀ final, Ends behind after final → Ends before cursor final

theorem Leads.trans {before between behind : Option Pending} {middle : Cursor}
    (first : Leads before cursor between middle) (second : Leads between middle behind after) :
    Leads before cursor behind after :=
  fun final ends => first final (second final ends)

theorem leads_of_step {place : Option Pending} (owes : pending.isDone = false)
    (step : (skipStep pending).run cursor = .ok (place, after)) :
    Leads (some pending) cursor place after := by
  intro final ends
  cases place with
  | none =>
      obtain rfl : after = final := ends
      refine ⟨1, ?_⟩
      rw [skipWithin, owes, if_neg Bool.false_ne_true]
      exact run_bind_ok step
  | some next =>
      obtain ⟨fuel, run⟩ := ends
      refine ⟨fuel + 1, ?_⟩
      rw [skipWithin, owes, if_neg Bool.false_ne_true]
      exact (run_bind_ok step).trans run

/-- A walk over well-formed items gets to where these items are no longer owed. -/
theorem AreItems.leads {count : Nat} {place : Option Pending} {before behind : List (Option Nat)}
    (items : AreItems count bytes) (short : bytes.length < bound64)
    (passes : cursor.Passes bytes after) (isAt : IsAt count before place)
    (takes : Takes count before behind) :
    ∃ next, IsAt 0 behind next ∧ Leads place cursor next after := by
  induction items generalizing cursor after place before behind with
  | none =>
      cases takes with
      | none =>
          obtain rfl := Cursor.passes_nil.1 passes
          exact ⟨place, isAt, fun _ => id⟩
  | scalar form _ ih =>
      rw [List.length_append] at short
      obtain ⟨middle, here, later⟩ := Cursor.passes_append.1 passes
      cases takes with
      | next goes takes =>
          obtain ⟨pending, rfl, owes⟩ := isAt.goes_on goes
          obtain ⟨next, ends, leads⟩ := ih (by omega) later (isAt.settle goes) takes
          exact ⟨next, ends, (leads_of_step owes (run_skipStep_scalar form here)).trans leads⟩
  | tagged form _ ih =>
      rw [List.length_append] at short
      obtain ⟨middle, here, later⟩ := Cursor.passes_append.1 passes
      have goes : before ≠ [] := by
        cases takes with
        | next goes _ => exact goes
      obtain ⟨pending, rfl, owes⟩ := isAt.goes_on goes
      obtain ⟨next, ends, leads⟩ := ih (by omega) later isAt takes
      exact ⟨next, ends, (leads_of_step owes (run_skipStep_tag form here)).trans leads⟩
  | @container count _ width length _ _ known form items ih =>
      have fits := items.le_length
      have start := form.length_pos
      rw [List.length_append] at short
      obtain ⟨middle, here, later⟩ := Cursor.passes_append.1 passes
      cases takes with
      | next goes takes =>
          obtain ⟨pending, rfl, owes⟩ := isAt.goes_on goes
          have small : count + 1 + width * length < bound64 := by omega
          obtain ⟨inside, opened, whole⟩ := isAt.openDefinite goes small
          obtain ⟨next, ends, leads⟩ := ih (by omega) later opened (whole.trans takes)
          have step := @run_skipStep_container _ _ _ _ pending _ _ known form here (by omega)
          exact ⟨next, ends, (leads_of_step owes step).trans leads⟩
  | openContainer known inner items ihInner ih =>
      rw [List.length_cons, List.length_append, List.length_cons] at short
      obtain ⟨first, start, passes⟩ := Cursor.passes_cons.1 passes
      obtain ⟨second, within, passes⟩ := Cursor.passes_append.1 passes
      obtain ⟨third, stop, later⟩ := Cursor.passes_cons.1 passes
      cases takes with
      | next goes takes =>
          obtain ⟨pending, rfl, owes⟩ := isAt.goes_on goes
          obtain ⟨outer, opened, same⟩ := isAt.openIndefinite goes
          obtain ⟨last, inside, walked⟩ := ihInner (by omega) within (opened.mono (Nat.zero_le _))
            (Pending.takes_open _ outer)
          obtain ⟨open', rfl, owesInside⟩ := inside.goes_on (List.cons_ne_nil _ _)
          obtain ⟨next, ends, leads⟩ := ih (by omega) later inside.close (same ▸ takes)
          have opens := leads_of_step owes (run_skipStep_openContainer known start)
          have closes := leads_of_step owesInside (run_skipStep_stop stop)
          exact ⟨next, ends, ((opens.trans walked).trans closes).trans leads⟩

/-- A well-formed item is skipped as a whole. -/
theorem IsItem.run_skip (item : IsItem bytes) (short : bytes.length < bound64)
    (passes : cursor.Passes bytes after) : skip.run cursor = .ok ((), after) := by
  have start : IsAt 1 [some 0] (some .single) := @IsAt.counts 1 1 0 (Nat.le_refl 1)
  obtain ⟨next, isAt, leads⟩ :=
    item.leads short passes start (.next (List.cons_ne_nil _ _) .none)
  have stays : Ends next after after := by
    cases next with
    | none => exact rfl
    | some pending =>
        refine ⟨1, ?_⟩
        rw [skipWithin, if_pos isAt.is_over]
        rfl
  obtain ⟨fuel, run⟩ := leads after stays
  exact run_skipWithin_of_lt run (by omega)

/-- Bytes in memory are fewer than `bound63`, so no count of the items in them saturates. -/
theorem IsItem.skips {item : Bytes} (whole : IsItem item) (small : cursor.rest.length < bound63)
    (passes : cursor.Passes item after) : skip.run cursor = .ok ((), after) := by
  have size := congrArg List.length passes.rest_eq
  have room : bound63 ≤ bound64 := by decide
  rw [List.length_append] at size
  exact whole.run_skip (by omega) passes

/-! ## Walks over any bytes -/

/-- A step lowers what is owed by at most one, whatever it goes over. -/
theorem yields_skipStep (pending : Pending) :
    Yields (skipStep pending) fun place => pending.owed ≤ Pending.owedAt place + 1 := by
  have settles {β : Type} (decoder : Decoder β) : Yields (decoder >>= fun _ => pure pending.settle)
      fun place => pending.owed ≤ Pending.owedAt place + 1 :=
    yields_bind fun _ => yields_pure pending.owed_le_settle
  have opens (length : Nat) : pending.owed ≤
      Pending.owedAt (pending.openDefinite length).settle + 1 :=
    Nat.le_trans (Pending.owed_le_openDefinite length pending) (Pending.owed_le_settle _)
  refine yields_bind fun first => ?_
  refine yields_ite (fun _ => settles _) fun _ => ?_
  refine yields_ite (fun _ => settles _) fun _ => ?_
  refine yields_ite (fun _ => settles _) fun _ => ?_
  refine yields_ite (fun _ => settles _) fun _ => ?_
  refine yields_ite (fun _ => yields_bind fun length => ?_) fun _ => ?_
  · cases length with
    | some length => exact yields_pure (opens length)
    | none => exact yields_pure pending.owed_le_openIndefinite
  refine yields_ite (fun _ => yields_bind fun length => ?_) fun _ => ?_
  · cases length with
    | some length => exact yields_pure (opens _)
    | none => exact yields_pure pending.owed_le_openIndefinite
  refine yields_ite (fun _ => yields_bind fun _ => yields_pure (Nat.le_succ _)) fun _ => ?_
  refine yields_ite (fun _ => settles _) fun _ => ?_
  refine yields_ite (fun _ => yields_bind fun _ => yields_pure ?_) fun _ => yields_fail _
  rw [← pending.owed_close]
  exact Pending.owed_le_settle _

/-- A walk takes a byte for every item that is owed. -/
theorem owed_le_of_run_skipWithin {fuel : Nat}
    (run : (skipWithin fuel pending).run cursor = .ok ((), after)) :
    pending.owed + after.rest.length ≤ cursor.rest.length := by
  induction fuel generalizing pending cursor with
  | zero => cases run
  | succ fuel ih =>
      unfold skipWithin at run
      split at run
      next done =>
        cases run
        rw [Pending.owed_of_isDone done, Nat.zero_add]
      next =>
        obtain ⟨place, middle, step, later⟩ := run_bind_eq_ok.1 run
        have lowered := yields_skipStep pending step
        obtain ⟨used, proceeds, split, -⟩ := uses_skipStep pending step
        have left := congrArg List.length split
        rw [List.length_append] at left
        cases place with
        | none =>
            cases later
            simp only [Pending.owedAt] at lowered
            omega
        | some next =>
            have rest := ih later
            simp only [Pending.owedAt] at lowered
            omega

/-- An array that is skipped has as many bytes behind its head as elements. -/
theorem length_le_of_run_skip {length : Nat} {first : Cursor} (form : IsHead 4 length head)
    (passes : cursor.Passes head first) (short : first.rest.length < bound63)
    (run : skip.run cursor = .ok ((), after)) : length ≤ first.rest.length := by
  have word := form.number_lt
  have step := @run_skipStep_container _ _ _ _ .single _ _ .array form passes (by omega)
  rw [Nat.one_mul] at step
  have opened : Pending.capped (length + 1) ≤ (Pending.single.openDefinite length).owed := by
    cases length with
    | zero => decide
    | succ length =>
        change Pending.capped _ ≤ Pending.capped (Pending.capped (1 + (length + 1))) + 0
        simp only [Pending.capped]
        omega
  have lowered := Pending.owed_le_settle (Pending.single.openDefinite length)
  change (skipWithin (cursor.rest.length + 1 + 1) .single).run cursor = _ at run
  rw [skipWithin, if_neg (by decide), run_bind_ok step] at run
  have wide : bound63 + 2 ≤ bound64 - 1 := by decide
  simp only [Pending.capped] at opened
  cases place : (Pending.single.openDefinite length).settle with
  | none =>
      simp only [place, Pending.owedAt] at lowered
      omega
  | some next =>
      rw [place] at run
      have owed := owed_le_of_run_skipWithin run
      simp only [place, Pending.owedAt] at lowered
      omega

end UtxoLedger.Cbor
