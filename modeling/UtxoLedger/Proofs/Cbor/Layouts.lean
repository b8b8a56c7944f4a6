import UtxoLedger.Proofs.Cbor.Arity
import UtxoLedger.Proofs.Cbor.Heads
import UtxoLedger.Proofs.Cbor.KeyMask

/-!
# The maps that a layout reads

A layout reads exactly the maps of either length form whose keys are those of
its fields, each at most once and the required ones all there. The visitor is
called once for every entry, in the order of the bytes and with the field of
the key, and what is read ends right behind the map.
-/

namespace UtxoLedger.Cbor

namespace MapLayout

/-! ## Maps as they stand in the bytes -/

/-- An entry of a map: the field that the key names, the bytes of the key and those of the
value. -/
structure Entry where
  field : Field
  key : Bytes
  value : Bytes

def Entry.bytes (entry : Entry) : Bytes := entry.key ++ entry.value

/-- What stands around the entries of a map: a head that counts them, or the head of an
indefinite length and a stop byte. -/
inductive Encloses (count : Nat) : (opening closing : Bytes) → Prop where
  | definite {opening : Bytes} (head : IsHead 5 count opening) : Encloses count opening []
  | indefinite : Encloses count Encoder.openMap Encoder.stop

/-- The entries make up a record of the layout. -/
structure Admits (layout : MapLayout) (entries : List Entry) : Prop where
  known : ∀ entry ∈ entries, entry.field ∈ layout.fields
  keys : ∀ entry ∈ entries, IsHead 0 entry.field.key.toNat entry.key
  distinct : ((entries.map Entry.field).map Field.key).Nodup
  required : ∀ field ∈ layout.fields, field.required = true →
    ∃ entry ∈ entries, entry.field = field

section

variable {σ : Type}

/-- The visitor is called once for every entry, in order: with the field of the entry, at the
first byte of the value, and it stops behind the last one. -/
inductive Visits (visit : Field → σ → Decoder σ) :
    List Entry → σ → Cursor → σ → Cursor → Prop where
  | nil (state : σ) (cursor : Cursor) : Visits visit [] state cursor state cursor
  | cons {entry : Entry} {rest : List Entry} {state next final : σ}
      {cursor inside behind after : Cursor} (key : cursor.Passes entry.key inside)
      (visited : (visit entry.field state).run inside = .ok (next, behind))
      (value : inside.Passes entry.value behind)
      (later : Visits visit rest next behind final after) :
      Visits visit (entry :: rest) state cursor final after

/-- Every call of the visitor that succeeds takes exactly the bytes of one item. -/
def TakesItems (IsItem : Bytes → Prop) (visit : Field → σ → Decoder σ) : Prop :=
  ∀ ⦃field state cursor next after⦄, (visit field state).run cursor = .ok (next, after) →
    ∃ value, IsItem value ∧ cursor.Passes value after

end

variable {σ : Type} {layout : MapLayout} {seen : List Field} {cursor after : Cursor}
  {field : Field} {entry : Entry} {entries : List Entry} {visit : Field → σ → Decoder σ}
  {state final : σ}

/-! ## Records of which some fields have been read -/

/-- The entries complete a record of which those fields have been read. -/
structure Completes (layout : MapLayout) (seen : List Field) (entries : List Entry) : Prop where
  known : ∀ entry ∈ entries, entry.field ∈ layout.fields
  keys : ∀ entry ∈ entries, IsHead 0 entry.field.key.toNat entry.key
  distinct : (entries.map Entry.field).Nodup
  fresh : ∀ entry ∈ entries, entry.field ∉ seen
  required : ∀ field ∈ layout.fields, field.required = true →
    field ∈ seen ∨ ∃ entry ∈ entries, entry.field = field

theorem completes_nil_iff :
    layout.Completes seen [] ↔
      ∀ field ∈ layout.fields, field.required = true → field ∈ seen := by
  constructor
  · intro completes field member required
    exact (completes.required field member required).resolve_right nofun
  · intro met
    exact ⟨nofun, nofun, .nil, nofun, fun field member required =>
      .inl (met field member required)⟩

theorem completes_cons_iff :
    layout.Completes seen (entry :: entries) ↔
      (entry.field ∈ layout.fields ∧ IsHead 0 entry.field.key.toNat entry.key ∧
        entry.field ∉ seen) ∧ layout.Completes (entry.field :: seen) entries := by
  constructor
  · intro completes
    obtain ⟨member, known⟩ := List.forall_mem_cons.1 completes.known
    obtain ⟨key, keys⟩ := List.forall_mem_cons.1 completes.keys
    obtain ⟨unlike, distinct⟩ := List.nodup_cons.1 completes.distinct
    obtain ⟨unseen, fresh⟩ := List.forall_mem_cons.1 completes.fresh
    refine ⟨⟨member, key, unseen⟩, known, keys, distinct, ?_, ?_⟩
    · intro other listed again
      rcases List.mem_cons.1 again with same | old
      · exact unlike (same ▸ List.mem_map_of_mem listed)
      · exact fresh other listed old
    · intro field listed required
      rcases completes.required field listed required with old | ⟨other, among, rfl⟩
      · exact .inl (List.mem_cons_of_mem _ old)
      · rcases List.mem_cons.1 among with rfl | later
        · exact .inl List.mem_cons_self
        · exact .inr ⟨other, later, rfl⟩
  · rintro ⟨⟨member, key, unseen⟩, completes⟩
    refine ⟨List.forall_mem_cons.2 ⟨member, completes.known⟩,
      List.forall_mem_cons.2 ⟨key, completes.keys⟩, List.nodup_cons.2 ⟨?_, completes.distinct⟩,
      List.forall_mem_cons.2 ⟨unseen, ?_⟩, ?_⟩
    · intro again
      obtain ⟨other, listed, same⟩ := List.mem_map.1 again
      exact completes.fresh other listed (same ▸ List.mem_cons_self)
    · exact fun other listed old => completes.fresh other listed (List.mem_cons_of_mem _ old)
    · intro field listed required
      rcases completes.required field listed required with new | ⟨other, among, rfl⟩
      · rcases List.mem_cons.1 new with rfl | old
        · exact .inr ⟨entry, List.mem_cons_self, rfl⟩
        · exact .inl old
      · exact .inr ⟨other, List.mem_cons_of_mem _ among, rfl⟩

theorem completes_of_admits (admits : layout.Admits entries) : layout.Completes [] entries where
  known := admits.known
  keys := admits.keys
  distinct := .of_map _ admits.distinct
  fresh _ _ := nofun
  required field member required := .inr (admits.required field member required)

theorem Completes.admits (completes : layout.Completes [] entries) : layout.Admits entries where
  known := completes.known
  keys := completes.keys
  distinct := by
    refine completes.distinct.map_on ?_
    simp only [List.forall_mem_map]
    intro entry member other listed same
    exact eq_of_key_eq (completes.known entry member) (completes.known other listed) same
  required field member required :=
    (completes.required field member required).resolve_left nofun

/-- There are no more entries than fields. -/
theorem Completes.length_le (completes : layout.Completes seen entries) :
    entries.length ≤ layout.fields.length := by
  rw [← List.length_map Entry.field]
  refine completes.distinct.length_le_of_subset ?_
  simpa only [List.subset_def, List.forall_mem_map] using completes.known

/-! ## Single steps -/

/-- What is skipped is one item. -/
theorem exists_single_of_skip (skipped : Decoder.skip.run cursor = .ok ((), after)) :
    ∃ bytes, RawItem.IsSingle ⟨bytes⟩ ∧ cursor.Passes bytes after := by
  obtain ⟨used, -, passes, again⟩ := uses_skip.exists_passes skipped
  have alone := again [] 0
  rw [List.append_nil] at alone
  exact ⟨used, RawItem.isSingle_iff.2 ⟨_, alone⟩, passes⟩

theorem run_decodeKey_eq_ok_iff :
    (layout.decodeKey seen).run cursor = .ok (field, after) ↔
      (field ∈ layout.fields ∧ field ∉ seen) ∧
        ∃ key, IsHead 0 field.key.toNat key ∧ cursor.Passes key after := by
  have word {key : UInt64} {behind : Cursor} :
      (decode : Decoder UInt64).run cursor = .ok (key, behind) ↔
        ∃ bytes, IsHead 0 key.toNat bytes ∧ cursor.Passes bytes behind :=
    Decoder.run_word_eq_ok_iff (by decide)
  rw [run_decodeKey]
  constructor
  · intro read
    split at read
    next => cases read
    next key behind decoded =>
      split at read
      next => cases read
      next named found =>
        split at read
        next => cases read
        next unseen =>
          cases read
          obtain ⟨member, rfl⟩ := field?_eq_some_iff.1 found
          exact ⟨⟨member, by simpa using unseen⟩, word.1 decoded⟩
  · rintro ⟨⟨member, unseen⟩, form⟩
    rw [word.2 form]
    dsimp only
    rw [field?_eq_some_iff.2 ⟨member, rfl⟩]
    dsimp only
    rw [if_neg (by simpa using unseen)]

theorem run_decodeEnd_eq_ok_iff :
    (layout.decodeEnd seen).run cursor = .ok ((), after) ↔
      cursor = after ∧ ∀ field ∈ layout.fields, field.required = true → field ∈ seen := by
  have met : layout.missing? seen = none ↔
      ∀ field ∈ layout.fields, field.required = true → field ∈ seen := by
    simp [missing?]
  rw [← met, decodeEnd]
  cases layout.missing? seen with
  | some field =>
      constructor
      · intro failed
        cases failed
      · rintro ⟨-, absent⟩
        cases absent
  | none =>
      constructor
      · intro ended
        cases ended
        exact ⟨rfl, rfl⟩
      · rintro ⟨rfl, -⟩
        rfl

theorem run_atStop_true_iff :
    atStop.run cursor = .ok (true, after) ↔ cursor.Passes Encoder.stop after := by
  constructor
  · intro read
    obtain ⟨kind, between, announced, decided⟩ := Decoder.run_bind_eq_ok.1 read
    obtain ⟨rfl, first, rest, here, told⟩ := run_kind_eq_ok announced
    split at decided
    next stops =>
      rw [stops] at told
      obtain rfl := Kind.eq_of_stop told
      obtain ⟨byte, behind, taken, done⟩ := Decoder.run_bind_eq_ok.1 decided
      obtain ⟨bytes, position⟩ := between
      obtain rfl : bytes = 0xff :: rest := here
      cases taken
      cases done
      exact .mk Encoder.stop rest position
    next => cases decided
  · rintro ⟨_, tail, position⟩
    rfl

theorem run_atStop_false (read : atStop.run cursor = .ok (false, after)) : cursor = after := by
  obtain ⟨kind, between, announced, decided⟩ := Decoder.run_bind_eq_ok.1 read
  obtain ⟨rfl, -⟩ := run_kind_eq_ok announced
  split at decided
  next =>
    obtain ⟨byte, behind, -, done⟩ := Decoder.run_bind_eq_ok.1 decided
    cases done
  next =>
    cases decided
    rfl

/-- A key is not taken for a stop byte. -/
theorem run_atStop_of_isHead {number : Nat} {key : Bytes} (head : IsHead 0 number key)
    (passes : cursor.Passes key after) : atStop.run cursor = .ok (false, cursor) := by
  obtain @⟨info, digits, argument⟩ := head
  obtain ⟨_, tail, position⟩ := passes
  have table : ∀ low : Fin 28, ∃ kind, Kind.ofFirst? (UInt8.ofNat (32 * 0 + low)) = some kind ∧
      kind ≠ .stop := by
    decide
  obtain ⟨kind, told, moving⟩ := table ⟨info, argument.info_lt⟩
  have announced : Decoder.kind.run ⟨UInt8.ofNat (32 * 0 + info) :: (digits ++ tail), position⟩ =
      .ok (kind, ⟨UInt8.ofNat (32 * 0 + info) :: (digits ++ tail), position⟩) := by
    unfold Decoder.kind Decoder.run
    simp only [Kind.ofBytes?, told]
  exact Decoder.run_bind_eq_ok.2 ⟨kind, _, announced, by rw [if_neg moving]; rfl⟩

/-! ## The end of a map -/

/-- So many entries on, the map ends: they have all been counted, or a stop byte follows. -/
inductive Ends : (left : Option Nat) → (count : Nat) → (last after : Cursor) → Prop where
  | counted (count : Nat) (last : Cursor) : Ends (some count) count last last
  | stopped {count : Nat} {last after : Cursor} (stop : last.Passes Encoder.stop after) :
      Ends none count last after

variable {left : Option Nat} {count : Nat} {last : Cursor}

theorem run_atEnd_true_iff :
    (atEnd left).run cursor = .ok (true, after) ↔ Ends left 0 cursor after := by
  cases left with
  | none =>
      rw [atEnd, run_atStop_true_iff]
      exact ⟨.stopped, fun | .stopped stop => stop⟩
  | some left =>
      constructor
      · intro read
        obtain rfl : left = 0 := by
          by_contra more
          simp [atEnd, more, Decoder.run_pure] at read
        cases read
        exact .counted 0 cursor
      · rintro ⟨⟩
        rfl

theorem run_atEnd_false (read : (atEnd left).run cursor = .ok (false, after)) :
    cursor = after ∧ left ≠ some 0 := by
  cases left with
  | none => exact ⟨run_atStop_false read, nofun⟩
  | some left =>
      obtain ⟨more, rfl⟩ : left ≠ 0 ∧ cursor = after := by
        simpa [atEnd, Decoder.run_pure] using read
      exact ⟨rfl, fun none => more (Option.some.inj none)⟩

/-- Where a key stands the map goes on. -/
theorem run_atEnd_of_isHead {number : Nat} {key : Bytes} (more : left ≠ some 0)
    (head : IsHead 0 number key) (passes : cursor.Passes key after) :
    (atEnd left).run cursor = .ok (false, cursor) := by
  cases left with
  | none => exact run_atStop_of_isHead head passes
  | some left =>
      have positive : left ≠ 0 := fun none => more (congrArg some none)
      simp [atEnd, positive, Decoder.run_pure]

theorem ends_succ_iff :
    Ends left (count + 1) last after ↔
      left ≠ some 0 ∧ Ends (left.map (· - 1)) count last after := by
  constructor
  · rintro (_ | stop)
    · exact ⟨by simp, .counted count _⟩
    · exact ⟨nofun, .stopped stop⟩
  · rintro ⟨more, ends⟩
    cases left with
    | none =>
        obtain _ | stop := ends
        exact .stopped stop
    | some left =>
        have positive : left ≠ 0 := fun none => more (congrArg some none)
        obtain ⟨before, rfl⟩ := Nat.exists_eq_succ_of_ne_zero positive
        cases ends
        exact .counted (before + 1) _

/-! ## Walks -/

namespace Visits

theorem passes {start stop : Cursor} (visits : Visits visit entries state start final stop) :
    start.Passes (entries.flatMap Entry.bytes) stop := by
  induction visits with
  | nil state cursor => exact Cursor.passes_nil.2 rfl
  | cons key visited value later ih =>
      rw [List.flatMap_cons, Entry.bytes, List.append_assoc]
      exact Cursor.passes_append.2 ⟨_, key, Cursor.passes_append.2 ⟨_, value, ih⟩⟩

theorem items {IsItem : Bytes → Prop} (takes : TakesItems IsItem visit) {start stop : Cursor}
    (visits : Visits visit entries state start final stop) :
    ∀ entry ∈ entries, IsItem entry.value := by
  induction visits with
  | nil state cursor => exact nofun
  | cons key visited value later ih =>
      obtain ⟨item, well, passes⟩ := takes visited
      exact List.forall_mem_cons.2 ⟨passes.bytes_eq value ▸ well, ih⟩

end Visits

variable {IsItem : Bytes → Prop}

/-- A step of a walk that ends well: the map ends there and no required field is missing, or an
entry of a fresh field is read and the walk goes on behind it. -/
theorem walkWithin_succ_eq_ok_iff {fuel : Nat} :
    layout.walkWithin visit (fuel + 1) left seen state cursor = (final, .ok after) ↔
      (Ends left 0 cursor after ∧ layout.Completes seen [] ∧ state = final) ∨
        ∃ field key inside next behind, left ≠ some 0 ∧
          (field ∈ layout.fields ∧ IsHead 0 field.key.toNat key ∧ field ∉ seen) ∧
          cursor.Passes key inside ∧ (visit field state).run inside = .ok (next, behind) ∧
          layout.walkWithin visit fuel (left.map (· - 1)) (field :: seen) next behind =
            (final, .ok after) := by
  constructor
  · intro walked
    rw [walkWithin] at walked
    split at walked
    next => cases walked
    next behind ended =>
      cases closed : (layout.decodeEnd seen).run behind with
      | error error =>
          rw [closed] at walked
          cases walked
      | ok found =>
          rw [closed] at walked
          cases walked
          obtain ⟨rfl, met⟩ := run_decodeEnd_eq_ok_iff.1 closed
          exact .inl ⟨run_atEnd_true_iff.1 ended, completes_nil_iff.2 met, rfl⟩
    next behind goesOn =>
      obtain ⟨rfl, more⟩ := run_atEnd_false goesOn
      split at walked
      next => cases walked
      next field inside named =>
        split at walked
        next => cases walked
        next next behind visited =>
          obtain ⟨⟨member, unseen⟩, key, head, before⟩ := run_decodeKey_eq_ok_iff.1 named
          exact .inr ⟨field, key, inside, next, behind, more, ⟨member, head, unseen⟩, before,
            visited, walked⟩
  · rintro (⟨ends, completes, rfl⟩ |
      ⟨field, key, inside, next, behind, more, ⟨member, head, unseen⟩, before, visited, walked⟩)
    · have closed : (layout.decodeEnd seen).run after = .ok ((), after) :=
        run_decodeEnd_eq_ok_iff.2 ⟨rfl, completes_nil_iff.1 completes⟩
      rw [walkWithin, run_atEnd_true_iff.2 ends]
      dsimp only
      rw [closed]
      rfl
    · rw [walkWithin, run_atEnd_of_isHead more head before]
      dsimp only
      rw [run_decodeKey_eq_ok_iff.2 ⟨⟨member, unseen⟩, key, head, before⟩]
      dsimp only
      rw [visited]
      exact walked

/-- A walk goes through entries that complete the record up to where the map ends. -/
theorem walkWithin_eq_ok_iff (takes : TakesItems IsItem visit) {fuel : Nat} :
    layout.walkWithin visit fuel left seen state cursor = (final, .ok after) ↔
      ∃ entries last, entries.length < fuel ∧ layout.Completes seen entries ∧
        Visits visit entries state cursor final last ∧ Ends left entries.length last after := by
  -- On the fuel: an entry that is read moves its field from those that are missing to `seen`.
  induction fuel generalizing left seen state cursor with
  | zero => exact ⟨nofun, fun ⟨_, _, few, _⟩ => nomatch few⟩
  | succ fuel ih =>
      rw [walkWithin_succ_eq_ok_iff]
      constructor
      · rintro (⟨ends, completes, rfl⟩ |
          ⟨field, key, inside, next, behind, more, known, before, visited, walked⟩)
        · exact ⟨[], cursor, Nat.succ_pos fuel, completes, .nil state cursor, ends⟩
        · obtain ⟨value, -, within⟩ := takes visited
          obtain ⟨entries, last, few, completes, later, ends⟩ := ih.1 walked
          exact ⟨⟨field, key, value⟩ :: entries, last, Nat.succ_lt_succ few,
            completes_cons_iff.2 ⟨known, completes⟩, .cons before visited within later,
            ends_succ_iff.2 ⟨more, ends⟩⟩
      · rintro ⟨entries, last, few, completes, visits, ends⟩
        cases visits with
        | nil => exact .inl ⟨ends, completes, rfl⟩
        | cons before visited within later =>
            obtain ⟨known, completes⟩ := completes_cons_iff.1 completes
            obtain ⟨more, ends⟩ := ends_succ_iff.1 ends
            exact .inr ⟨_, _, _, _, _, more, known, before, visited,
              ih.2 ⟨_, last, Nat.lt_of_succ_lt_succ few, completes, later, ends⟩⟩

/-- A map is opened in the way it is closed. -/
theorem encloses_iff {first : Cursor} :
    (∃ left, Decoder.map.run cursor = .ok (left, first) ∧ Ends left count last after) ↔
      ∃ opening closing, Encloses count opening closing ∧ cursor.Passes opening first ∧
        last.Passes closing after := by
  constructor
  · rintro ⟨_, opened, _ | stop⟩
    · obtain ⟨opening, head, start⟩ := (Decoder.run_openHead_some_eq_ok_iff (by decide)).1 opened
      exact ⟨opening, [], .definite head, start, Cursor.passes_nil.2 rfl⟩
    · have start := (Decoder.run_openHead_none_eq_ok_iff (by decide)).1 opened
      exact ⟨Encoder.openMap, Encoder.stop, .indefinite, start, stop⟩
  · rintro ⟨opening, closing, encloses, start, close⟩
    cases encloses with
    | definite head =>
        obtain rfl := Cursor.passes_nil.1 close
        have opened := (Decoder.run_openHead_some_eq_ok_iff (by decide)).2 ⟨opening, head, start⟩
        exact ⟨some count, opened, .counted count last⟩
    | indefinite =>
        have opened : Decoder.map.run cursor = .ok (none, first) :=
          (Decoder.run_openHead_none_eq_ok_iff (by decide)).2 start
        exact ⟨none, opened, .stopped close⟩

/-- A record that is read is a map around visited entries. -/
theorem walk_eq_ok_iff (takes : TakesItems IsItem visit) :
    layout.walk visit state cursor = (final, .ok after) ↔
      ∃ entries opening closing first last, Encloses entries.length opening closing ∧
        layout.Admits entries ∧ cursor.Passes opening first ∧
        Visits visit entries state first final last ∧ last.Passes closing after := by
  constructor
  · intro walked
    rw [walk] at walked
    split at walked
    next => cases walked
    next left first opened =>
      obtain ⟨entries, last, -, completes, visits, ends⟩ :=
        (walkWithin_eq_ok_iff takes).1 walked
      obtain ⟨opening, closing, encloses, start, close⟩ := encloses_iff.1 ⟨left, opened, ends⟩
      exact ⟨entries, opening, closing, first, last, encloses, completes.admits, start, visits,
        close⟩
  · rintro ⟨entries, opening, closing, first, last, encloses, admits, start, visits, close⟩
    obtain ⟨left, opened, ends⟩ := encloses_iff.2 ⟨opening, closing, encloses, start, close⟩
    have completes := completes_of_admits admits
    rw [walk, opened]
    -- The fuel is enough because no field is named twice.
    exact (walkWithin_eq_ok_iff takes).2
      ⟨entries, last, Nat.lt_succ_of_le completes.length_le, completes, visits, ends⟩

theorem run_decodeEntries_eq_ok_iff :
    (layout.decodeEntries visit state).run cursor = .ok (final, after) ↔
      layout.walk visit state cursor = (final, .ok after) := by
  unfold decodeEntries Decoder.run
  dsimp only
  constructor
  · intro read
    split at read
    next reached stop walked =>
      cases read
      exact walked
    next => cases read
  · intro walked
    rw [walked]

/-- The layout reads exactly its records: maps whose entries name its fields, none twice and the
required ones all there, when every visit succeeds. The visitor is called once for every entry,
in order, and the cursor stops behind the map. No shift by a key overflows on the way, whatever
the bytes are. -/
theorem decodeEntries_exact (layout : MapLayout) (takes : TakesItems IsItem visit) (state : σ)
    (cursor : Cursor) :
    (∀ final after, (layout.decodeEntries visit state).run cursor = .ok (final, after) ↔
      ∃ entries opening closing, Encloses entries.length opening closing ∧
        cursor.Passes (opening ++ entries.flatMap Entry.bytes ++ closing) after ∧
        layout.Admits entries ∧ (∀ entry ∈ entries, IsItem entry.value) ∧
        ∃ first last, cursor.Passes opening first ∧ Visits visit entries state first final last) ∧
      layout.walkMarked visit state cursor = some (layout.walk visit state cursor) := by
  refine ⟨fun final after => ?_, layout.walkMarked_eq visit state cursor⟩
  rw [run_decodeEntries_eq_ok_iff, walk_eq_ok_iff takes]
  constructor
  · rintro ⟨entries, opening, closing, first, last, encloses, admits, start, visits, close⟩
    refine ⟨entries, opening, closing, encloses, ?_, admits, visits.items takes, first, last,
      start, visits⟩
    rw [List.append_assoc]
    exact Cursor.passes_append.2 ⟨first, start,
      Cursor.passes_append.2 ⟨last, visits.passes, close⟩⟩
  · rintro ⟨entries, opening, closing, encloses, passes, admits, -, first, last, start, visits⟩
    rw [List.append_assoc] at passes
    obtain ⟨middle, head, passes⟩ := Cursor.passes_append.1 passes
    obtain ⟨final, body, close⟩ := Cursor.passes_append.1 passes
    obtain rfl := head.after_eq start
    obtain rfl := body.after_eq visits.passes
    exact ⟨entries, opening, closing, middle, final, encloses, admits, start, visits, close⟩

/-- A transaction body of which only the outline is read. -/
def outline : MapLayout where
  record := "body"
  fields := [.mandatory 0 "inputs", .mandatory 1 "outputs", .optional 3 "ttl"]
  distinct := by decide

/-- Skips a value and notes the name of its field. -/
def noteName (field : Field) (names : List String) : Decoder (List String) := do
  Decoder.skip
  return names ++ [field.name]

theorem takesItems_noteName : TakesItems (fun bytes => RawItem.IsSingle ⟨bytes⟩) noteName := by
  intro field names start next stop read
  obtain ⟨value, behind, skipped, noted⟩ := Decoder.run_bind_eq_ok.1 read
  cases noted
  exact exists_single_of_skip skipped

/-- A map of indefinite length with all three fields. -/
theorem decodeEntries_exact_outline :
    TakesItems (fun bytes => RawItem.IsSingle ⟨bytes⟩) noteName ∧
      ∃ entries opening closing, Encloses entries.length opening closing ∧
        Cursor.Passes ⟨[0xbf, 0x00, 0x00, 0x01, 0x00, 0x03, 0x05, 0xff], 0⟩
          (opening ++ entries.flatMap Entry.bytes ++ closing) ⟨[], 8⟩ ∧
        outline.Admits entries ∧ (∀ entry ∈ entries, RawItem.IsSingle ⟨entry.value⟩) ∧
        ∃ first last,
          Cursor.Passes ⟨[0xbf, 0x00, 0x00, 0x01, 0x00, 0x03, 0x05, 0xff], 0⟩ opening first ∧
            Visits noteName entries [] first ["inputs", "outputs", "ttl"] last :=
  ⟨takesItems_noteName,
    ((decodeEntries_exact outline takesItems_noteName [] _).1 ["inputs", "outputs", "ttl"] _).1 rfl⟩

end MapLayout

end UtxoLedger.Cbor
