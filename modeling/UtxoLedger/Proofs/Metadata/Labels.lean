import Mathlib.Data.List.Induction
import UtxoLedger.Metadata.Auxiliary

/-!
# Labels of merged metadata

Metadata that was read may list a label more than once, in any order. A merge
sets the value of the first entry of each label that it is given, adds the
labels that were not there, and sorts by label. So a label that is given occurs
once unless it was listed more than once before; every other label keeps its
values in order.
-/

namespace UtxoLedger.AuxiliaryData

open Cbor

/-! ## Values under a label -/

/-- The values under a label, in order. -/
def valuesAt (label : UInt64) (entries : List (UInt64 × Metadatum)) : List Metadatum :=
  (entries.filter fun entry => entry.1 = label).map (·.2)

section

variable {label other : UInt64} {value : Metadatum} {entries : List (UInt64 × Metadatum)}

theorem valuesAt_cons_self : valuesAt label ((label, value) :: entries) =
    value :: valuesAt label entries := by
  simp [valuesAt]

theorem valuesAt_cons_of_ne (apart : other ≠ label) :
    valuesAt label ((other, value) :: entries) = valuesAt label entries := by
  simp [valuesAt, apart]

theorem valuesAt_concat :
    valuesAt label (entries ++ [(other, value)]) =
      valuesAt label entries ++ if other = label then [value] else [] := by
  unfold valuesAt
  rw [List.filter_append, List.map_append]
  by_cases same : other = label
  · simp [same]
  · simp [same]

theorem valuesAt_eq_nil_iff : valuesAt label entries = [] ↔ label ∉ entries.map (·.1) := by
  unfold valuesAt
  rw [List.map_eq_nil_iff, List.filter_eq_nil_iff, List.mem_map]
  constructor
  · rintro other ⟨entry, listed, same⟩
    exact other entry listed (decide_eq_true same)
  · exact fun absent entry listed same => absent ⟨entry, listed, of_decide_eq_true same⟩

/-! ## Setting labels -/

theorem valuesAt_setLabel_self :
    valuesAt label (setLabel label value entries) = value :: (valuesAt label entries).tail := by
  induction entries with
  | nil => exact valuesAt_cons_self
  | cons entry rest ih =>
      obtain ⟨found, old⟩ := entry
      unfold setLabel
      split
      next here => rw [here, valuesAt_cons_self, valuesAt_cons_self, List.tail_cons]
      next elsewhere => rw [valuesAt_cons_of_ne elsewhere, valuesAt_cons_of_ne elsewhere, ih]

theorem valuesAt_setLabel_of_ne (apart : other ≠ label) :
    valuesAt label (setLabel other value entries) = valuesAt label entries := by
  induction entries with
  | nil => exact valuesAt_cons_of_ne apart
  | cons entry rest ih =>
      obtain ⟨found, old⟩ := entry
      unfold setLabel
      split
      next here => rw [here, valuesAt_cons_of_ne apart, valuesAt_cons_of_ne apart]
      next =>
        by_cases same : found = label
        · rw [same, valuesAt_cons_self, valuesAt_cons_self, ih]
        · rw [valuesAt_cons_of_ne same, valuesAt_cons_of_ne same, ih]

end

/-- What becomes of the values under a label when values are given for it: the last one given
takes the place of the first one held. -/
def replaced (given held : List Metadatum) : List Metadatum :=
  match given.getLast? with
  | none => held
  | some value => value :: held.tail

/-- Setting one more entry replaces the first value under its label and no other. -/
theorem valuesAt_foldl_setLabel (label : UInt64) (held given : List (UInt64 × Metadatum)) :
    valuesAt label (given.foldl (fun total entry => setLabel entry.1 entry.2 total) held) =
      replaced (valuesAt label given) (valuesAt label held) := by
  induction given using List.reverseRecOn with
  | nil => rfl
  | append_singleton earlier entry ih =>
      obtain ⟨found, value⟩ := entry
      rw [List.foldl_append, List.foldl_cons, List.foldl_nil, valuesAt_concat]
      by_cases same : found = label
      · rw [if_pos same, same, valuesAt_setLabel_self, ih]
        unfold replaced
        rw [List.getLast?_concat]
        cases (valuesAt label earlier).getLast? <;> rfl
      · rw [if_neg same, valuesAt_setLabel_of_ne same, ih, List.append_nil]

/-! ## Merged metadata -/

section

variable (first second third : UInt64 × Metadatum)

theorem label_le_trans : decide (first.1 ≤ second.1) = true → decide (second.1 ≤ third.1) = true →
    decide (first.1 ≤ third.1) = true := by
  simp only [decide_eq_true_eq]
  exact UInt64.le_trans

theorem label_le_total :
    (decide (first.1 ≤ second.1) || decide (second.1 ≤ first.1)) = true := by
  simp only [Bool.or_eq_true, decide_eq_true_eq]
  exact UInt64.le_total first.1 second.1

end

/-- Sorting by label is stable, so it moves no value under a label past another. -/
theorem valuesAt_mergedMetadata (label : UInt64) (metadata : Metadata)
    (given : List (UInt64 × Metadatum)) :
    valuesAt label (mergedMetadata metadata given).entries =
      replaced (valuesAt label given) (valuesAt label metadata.entries) := by
  rw [← valuesAt_foldl_setLabel]
  unfold valuesAt mergedMetadata PairList.definite
  rw [filter_mergeSort label_le_trans label_le_total]
  intro first second left right
  simp only [decide_eq_true_eq] at left right ⊢
  exact UInt64.le_of_eq (left.trans right.symm)

theorem ascending_mergedMetadata (metadata : Metadata) (given : List (UInt64 × Metadatum)) :
    ((mergedMetadata metadata given).entries.map (·.1)).Pairwise (· ≤ ·) := by
  rw [List.pairwise_map]
  exact (List.pairwise_mergeSort label_le_trans label_le_total _).imp of_decide_eq_true

/-- The metadata entries; there are none without metadata. -/
def labelled (data : AuxiliaryData) : List (UInt64 × Metadatum) :=
  (data.metadata?.map (·.entries)).getD []

/-- The same form and the same scripts with other metadata. -/
def withMetadata (data : AuxiliaryData) (metadata : Metadata) : AuxiliaryData :=
  match data with
  | shelley _ => shelley metadata
  | shelleyMa _ scripts => shelleyMa metadata scripts
  | postAlonzo parts => postAlonzo { parts with metadata := some metadata }

theorem mergeMetadata_eq (data : AuxiliaryData) (given : List (UInt64 × Metadatum)) :
    data.mergeMetadata given =
      data.withMetadata (mergedMetadata (.definite data.labelled) given) := by
  cases data with
  | shelley metadata => rfl
  | shelleyMa metadata scripts => rfl
  | postAlonzo parts =>
      obtain ⟨metadata, _, _, _, _⟩ := parts
      cases metadata <;> rfl

/-- A merge keeps the scripts, orders the labels, keeps all values under the labels that it is not
given, in order, and puts the last value given for a label in the place of the first one held. So
a given label occurs once exactly when it was listed at most once. -/
theorem mergeMetadata_replaces (data : AuxiliaryData) (given : List (UInt64 × Metadatum)) :
    ∃ merged, data.mergeMetadata given = data.withMetadata merged ∧
      (merged.entries.map (·.1)).Pairwise (· ≤ ·) ∧
      (∀ label, label ∉ given.map (·.1) →
        valuesAt label merged.entries = valuesAt label data.labelled) ∧
      ∀ label value, (valuesAt label given).getLast? = some value →
        valuesAt label merged.entries = value :: (valuesAt label data.labelled).tail ∧
          (valuesAt label merged.entries = [value] ↔
            (valuesAt label data.labelled).length ≤ 1) := by
  refine ⟨_, mergeMetadata_eq data given, ascending_mergedMetadata _ given, ?_, ?_⟩
  · intro label absent
    rw [valuesAt_mergedMetadata, valuesAt_eq_nil_iff.2 absent]
    rfl
  · intro label value last
    have values : valuesAt label (mergedMetadata (.definite data.labelled) given).entries =
        value :: (valuesAt label data.labelled).tail := by
      rw [valuesAt_mergedMetadata, replaced, last]
      rfl
    refine ⟨values, ?_⟩
    rw [values, List.cons_inj_right, ← List.length_eq_zero_iff, List.length_tail]
    omega

/-- A map that lists a label twice is accepted, and a merge under that label leaves the second
entry. -/
theorem mergeMetadata_keeps_second :
    ∃ data, decodeFragment AuxiliaryData [0xa2, 0x01, 0x01, 0x01, 0x02] = .ok data ∧
      (data.mergeMetadata [(1, .ofInt64 3)]).labelled = [(1, .ofInt64 3), (1, .ofInt64 2)] := by
  refine ⟨shelley (.definite [(1, .ofInt64 1), (1, .ofInt64 2)]), by rfl, ?_⟩
  simp [mergeMetadata, mergedMetadata, labelled, metadata?, setLabel, PairList.definite,
    List.mergeSort, List.MergeSort.Internal.splitInTwo]

end UtxoLedger.AuxiliaryData
