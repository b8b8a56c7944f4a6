import UtxoLedger.Proofs.Build.Passes
import UtxoLedger.Proofs.Selection.Splits

/-!
# The inputs of a build

The inputs of a transaction are outputs that the draft was given or that the
chain reports at one of its addresses. No output is spent twice: the pool of
candidates leaves out what is given, and the inputs are distinct by name.
-/

namespace UtxoLedger

namespace Plan

open Ranked

/-! ## Distinct inputs -/

theorem mem_of_mem_dropRepeated {last : TransactionInput} {utxos : List Utxo} {utxo : Utxo}
    (member : utxo ∈ dropRepeated last utxos) : utxo ∈ utxos := by
  induction utxos generalizing last with
  | nil => simp [dropRepeated] at member
  | cons first rest ih =>
      unfold dropRepeated at member
      split at member
      · exact List.mem_cons_of_mem _ (ih member)
      · rcases List.mem_cons.1 member with rfl | later
        · exact List.mem_cons_self
        · exact List.mem_cons_of_mem _ (ih later)

/-- What is kept of a sorted list behind a name increases strictly from that name on. -/
theorem dropRepeated_ascending {last : TransactionInput} {utxos : List Utxo}
    (above : ∀ utxo ∈ utxos, ¬ Before utxo.input last)
    (sorted : utxos.Pairwise fun first second => ¬ Before second first) :
    (∀ utxo ∈ dropRepeated last utxos, Before last utxo.input) ∧
      (dropRepeated last utxos).Pairwise fun first second => Before first.input second.input := by
  induction utxos generalizing last with
  | nil => simp [dropRepeated]
  | cons first rest ih =>
      obtain ⟨least, tail⟩ := List.pairwise_cons.1 sorted
      have later : ∀ utxo ∈ rest, ¬ Before utxo.input last :=
        fun utxo member => above utxo (List.mem_cons_of_mem _ member)
      unfold dropRepeated
      by_cases repeated : first.input = last
      · rw [if_pos repeated]
        exact ih later tail
      · have behind : Before last first.input := by
          by_cases before : Before last first.input
          · exact before
          · exact absurd (eq_of_not_before (above first List.mem_cons_self) before) repeated
        obtain ⟨beyond, ascending⟩ := @ih first.input least tail
        rw [if_neg repeated]
        refine ⟨fun utxo member => ?_, List.pairwise_cons.2 ⟨beyond, ascending⟩⟩
        rcases List.mem_cons.1 member with rfl | kept
        · exact behind
        · exact behind.trans (beyond utxo kept)

theorem distinctInputs_ascending (utxos : List Utxo) :
    (distinctInputs utxos).Pairwise fun first second => Before first.input second.input := by
  unfold distinctInputs
  have sorted := sort_pairwise utxos
  cases sort : Ranked.sort utxos with
  | nil => exact List.Pairwise.nil
  | cons first rest =>
      rw [sort] at sorted
      obtain ⟨least, tail⟩ := List.pairwise_cons.1 sorted
      obtain ⟨beyond, ascending⟩ := dropRepeated_ascending least tail
      exact List.pairwise_cons.2 ⟨beyond, ascending⟩

/-- No name is repeated. -/
theorem distinctInputs_nodup (utxos : List Utxo) :
    ((distinctInputs utxos).map (·.input)).Nodup :=
  nodup_of_ascending Utxo.input (distinctInputs_ascending utxos)

theorem mem_of_mem_distinctInputs {utxos : List Utxo} {utxo : Utxo}
    (member : utxo ∈ distinctInputs utxos) : utxo ∈ utxos := by
  have sorted : utxo ∈ Ranked.sort utxos := by
    unfold distinctInputs at member
    cases sort : Ranked.sort utxos with
    | nil => simp [sort] at member
    | cons first rest =>
        rw [sort] at member
        rcases List.mem_cons.1 member with rfl | later
        · exact List.mem_cons_self
        · exact List.mem_cons_of_mem _ (mem_of_mem_dropRepeated later)
  exact (Ranked.sort_perm utxos).subset sorted

/-- Of a sorted list, what is kept behind a name is the first output of each other name. -/
theorem mem_dropRepeated_iff {last : TransactionInput} {utxos : List Utxo} {utxo : Utxo}
    (above : ∀ utxo ∈ utxos, ¬ Before utxo.input last)
    (sorted : utxos.Pairwise fun first second => ¬ Before second first) :
    utxo ∈ dropRepeated last utxos ↔
      utxo.input ≠ last ∧ utxos.find? (·.input = utxo.input) = some utxo := by
  induction utxos generalizing last with
  | nil => simp [dropRepeated]
  | cons first rest ih =>
      obtain ⟨least, tail⟩ := List.pairwise_cons.1 sorted
      by_cases repeated : first.input = last
      · have later : ∀ utxo ∈ rest, ¬ Before utxo.input last :=
          fun utxo member => above utxo (List.mem_cons_of_mem _ member)
        rw [dropRepeated, if_pos repeated, ih later tail]
        apply and_congr_right
        intro different
        rw [List.find?_cons_of_neg]
        simpa [repeated] using different.symm
      · constructor
        · intro member
          have behind := (dropRepeated_ascending above sorted).1 utxo member
          have different : utxo.input ≠ last := by
            intro same
            rw [same] at behind
            exact Before.irrefl last behind
          refine ⟨different, ?_⟩
          rw [dropRepeated, if_neg repeated] at member
          rcases List.mem_cons.1 member with rfl | later
          · simp
          · obtain ⟨other, found⟩ := (ih least tail).1 later
            rwa [List.find?_cons_of_neg]
            simpa using other.symm
        · rintro ⟨_, found⟩
          rw [dropRepeated, if_neg repeated]
          by_cases same : first.input = utxo.input
          · rw [List.find?_cons_of_pos (by simpa using same)] at found
            rw [Option.some.inj found]
            exact List.mem_cons_self
          · rw [List.find?_cons_of_neg (by simpa using same)] at found
            exact List.mem_cons_of_mem _ ((ih least tail).2 ⟨Ne.symm same, found⟩)

/-- Of outputs that share a name the first one is kept. -/
theorem mem_distinctInputs_iff {utxos : List Utxo} {utxo : Utxo} :
    utxo ∈ distinctInputs utxos ↔ utxos.find? (·.input = utxo.input) = some utxo := by
  have level : (Ranked.sort utxos).find? (·.input = utxo.input) =
      utxos.find? (·.input = utxo.input) := by
    rw [← List.head?_filter, ← List.head?_filter, filter_sort]
    intro first second here there before
    have same : first.input = second.input :=
      (of_decide_eq_true here).trans (of_decide_eq_true there).symm
    change Before second.input first.input at before
    rw [same] at before
    exact Before.irrefl second.input before
  have sorted := sort_pairwise utxos
  rw [← level]
  unfold distinctInputs
  cases sort : Ranked.sort utxos with
  | nil => simp
  | cons first rest =>
      rw [sort] at sorted
      obtain ⟨least, tail⟩ := List.pairwise_cons.1 sorted
      simp only [List.mem_cons, mem_dropRepeated_iff least tail]
      by_cases same : first.input = utxo.input
      · rw [List.find?_cons_of_pos (by simpa using same)]
        simp [same, eq_comm]
      · rw [List.find?_cons_of_neg (by simpa using same)]
        have different : utxo ≠ first := by
          rintro rfl
          exact same rfl
        simp [different, Ne.symm same]

/-- A name that is listed finds an output of that name. -/
theorem exists_find?_of_mem {utxos : List Utxo} {utxo : Utxo} (member : utxo ∈ utxos) :
    ∃ first, utxos.find? (·.input = utxo.input) = some first ∧ first.input = utxo.input := by
  have named : (utxos.find? (·.input = utxo.input)).isSome = true :=
    List.find?_isSome.2 ⟨utxo, member, decide_eq_true rfl⟩
  obtain ⟨first, found⟩ := Option.isSome_iff_exists.1 named
  exact ⟨first, found, by simpa using List.find?_some found⟩

/-- Each name is kept. -/
theorem mem_names_distinctInputs_iff {utxos : List Utxo} {name : TransactionInput} :
    name ∈ (distinctInputs utxos).map (·.input) ↔ name ∈ utxos.map (·.input) := by
  constructor
  · intro member
    obtain ⟨utxo, kept, rfl⟩ := List.mem_map.1 member
    exact List.mem_map_of_mem (mem_of_mem_distinctInputs kept)
  · intro member
    obtain ⟨utxo, listed, rfl⟩ := List.mem_map.1 member
    obtain ⟨first, found, same⟩ := exists_find?_of_mem listed
    rw [← same] at found ⊢
    exact List.mem_map_of_mem (mem_distinctInputs_iff.2 found)

theorem mem_names_distinctInputs_append_iff {first second : List Utxo} {name : TransactionInput} :
    name ∈ (distinctInputs (first ++ second)).map (·.input) ↔
      name ∈ first.map (·.input) ∨ name ∈ second.map (·.input) := by
  rw [mem_names_distinctInputs_iff, List.map_append, List.mem_append]

/-- Lists with the same first output of each name come to the same inputs. -/
theorem distinctInputs_eq_of_find? {first second : List Utxo}
    (same : ∀ name : TransactionInput,
      first.find? (·.input = name) = second.find? (·.input = name)) :
    distinctInputs first = distinctInputs second := by
  apply eq_of_ascending Utxo.input (distinctInputs_ascending first) (distinctInputs_ascending second)
  intro utxo
  rw [mem_distinctInputs_iff, mem_distinctInputs_iff, same]

/-- Nothing is dropped from outputs with distinct names. -/
theorem dropRepeated_of_distinct {last : TransactionInput} {utxos : List Utxo}
    (distinct : (last :: utxos.map (·.input)).Nodup) : dropRepeated last utxos = utxos := by
  induction utxos generalizing last with
  | nil => rfl
  | cons first rest ih =>
      obtain ⟨absent, tail⟩ := List.nodup_cons.1 distinct
      have different : first.input ≠ last := fun same =>
        absent (by simp [← same])
      rw [dropRepeated, if_neg different, ih tail]

theorem distinctInputs_perm {utxos : List Utxo} (distinct : (utxos.map (·.input)).Nodup) :
    (distinctInputs utxos).Perm utxos := by
  have sorted := Ranked.sort_perm utxos
  unfold distinctInputs
  cases sort : Ranked.sort utxos with
  | nil =>
      rw [sort] at sorted
      exact sorted
  | cons first rest =>
      rw [sort] at sorted
      have apart : ((first :: rest).map (·.input)).Nodup :=
        (sorted.map (·.input)).nodup_iff.2 distinct
      simpa only [dropRepeated_of_distinct apart] using sorted

/-- Outputs with distinct names are put in the order of these. -/
theorem distinctInputs_of_perm {utxos ordered : List Utxo} (same : utxos.Perm ordered)
    (ascending : ordered.Pairwise fun first second => Before first.input second.input) :
    distinctInputs utxos = ordered := by
  have distinct : (utxos.map (·.input)).Nodup :=
    (same.map (·.input)).nodup_iff.2 (nodup_of_ascending Utxo.input ascending)
  apply eq_of_ascending Utxo.input (distinctInputs_ascending utxos) ascending
  intro utxo
  rw [((distinctInputs_perm distinct).trans same).mem_iff]

/-! ## Candidates -/

/-- The chain reports the output at one of the addresses of a draft. -/
def IsReported (draft : Draft) (context : ChainContext) (utxo : Utxo) : Prop :=
  ∃ address ∈ draft.inputAddresses, ∃ utxos,
    context.utxosAt address = .ok utxos ∧ utxo ∈ utxos

/-- Candidates have distinct names, none of them that of a given input, and are on the chain. -/
structure IsPool (draft : Draft) (context : ChainContext) (pool : List Utxo) : Prop where
  distinct : (pool.map (·.input)).Nodup
  apart : ∀ given ∈ draft.inputs, ∀ utxo ∈ pool, given.input ≠ utxo.input
  reported : ∀ utxo ∈ pool, IsReported draft context utxo

theorem isPool_nil (draft : Draft) (context : ChainContext) : IsPool draft context [] where
  distinct := List.nodup_nil
  apart _ _ _ none := absurd none List.not_mem_nil
  reported _ none := absurd none List.not_mem_nil

theorem IsPool.addCandidate {draft : Draft} {context : ChainContext} {pool : List Utxo}
    (isPool : IsPool draft context pool) {utxo : Utxo} (reported : IsReported draft context utxo) :
    IsPool draft context (addCandidate draft pool utxo) := by
  unfold Plan.addCandidate
  split
  next => exact isPool
  next free =>
    have fresh : ∀ other ∈ draft.inputs ++ pool, other.input ≠ utxo.input := by
      intro other member same
      apply free
      rw [Bool.or_eq_true, Bool.or_eq_true, List.any_eq_true]
      exact .inl (.inl ⟨other, member, decide_eq_true same⟩)
    refine ⟨?_, ?_, ?_⟩
    · rw [List.map_append, List.nodup_append]
      refine ⟨isPool.distinct, List.nodup_cons.2 ⟨List.not_mem_nil, List.nodup_nil⟩, ?_⟩
      intro name listed other single
      obtain ⟨old, member, rfl⟩ := List.mem_map.1 listed
      rw [List.mem_singleton.1 single]
      exact fresh old (List.mem_append_right _ member)
    · intro given member other listed
      rcases List.mem_append.1 listed with old | new
      · exact isPool.apart given member other old
      · rw [List.mem_singleton.1 new]
        exact fresh given (List.mem_append_left _ member)
    · intro other listed
      rcases List.mem_append.1 listed with old | new
      · exact isPool.reported other old
      · rw [List.mem_singleton.1 new]
        exact reported

/-- What holds of a pool after each candidate that the chain reports holds of the whole pool. -/
theorem poolFrom_keeps {draft : Draft} {context : ChainContext} (holds : List Utxo → Prop)
    (kept : ∀ {pool : List Utxo} {utxo : Utxo}, holds pool → IsReported draft context utxo →
      holds (addCandidate draft pool utxo))
    {pool result : List Utxo} {addresses : List Address} (before : holds pool)
    (listed : ∀ address ∈ addresses, address ∈ draft.inputAddresses)
    (done : poolFrom draft context pool addresses = .ok result) : holds result := by
  have keptByAll {pool utxos : List Utxo} (before : holds pool)
      (reported : ∀ utxo ∈ utxos, IsReported draft context utxo) :
      holds (utxos.foldl (addCandidate draft) pool) := by
    induction utxos generalizing pool with
    | nil => exact before
    | cons first rest ih =>
        exact ih (kept before (reported first List.mem_cons_self))
          fun utxo member => reported utxo (List.mem_cons_of_mem _ member)
  induction addresses generalizing pool with
  | nil =>
      simp only [poolFrom, Except.ok.injEq] at done
      exact done ▸ before
  | cons address rest ih =>
      unfold poolFrom at done
      cases asked : context.utxosAt address with
      | error error => simp [asked] at done
      | ok utxos =>
          simp only [asked] at done
          refine ih (keptByAll before fun utxo member => ?_)
            (fun other member => listed other (List.mem_cons_of_mem _ member)) done
          exact ⟨address, listed address List.mem_cons_self, utxos, asked, member⟩

theorem isPool_of_poolFrom {draft : Draft} {context : ChainContext} {pool : List Utxo}
    (done : poolFrom draft context [] draft.inputAddresses = .ok pool) :
    IsPool draft context pool :=
  poolFrom_keeps (IsPool draft context) (fun isPool reported => isPool.addCandidate reported)
    (isPool_nil draft context) (fun _ member => member) done

/-- A candidate is not excluded and carries no script. -/
structure IsEligible (draft : Draft) (utxo : Utxo) : Prop where
  unexcluded : utxo.input ∉ draft.excludedInputs
  scriptless : utxo.output.script = none

theorem isEligible_of_poolFrom {draft : Draft} {context : ChainContext} {pool : List Utxo}
    (done : poolFrom draft context [] draft.inputAddresses = .ok pool) :
    ∀ utxo ∈ pool, IsEligible draft utxo := by
  refine poolFrom_keeps (∀ utxo ∈ ·, IsEligible draft utxo) ?_
    (fun _ none => absurd none List.not_mem_nil) (fun _ member => member) done
  intro pool candidate before _
  unfold addCandidate
  split
  · exact before
  next free =>
    simp only [Bool.or_eq_true, not_or, Bool.not_eq_true, Option.isSome_eq_false_iff,
      Option.isNone_iff_eq_none] at free
    obtain ⟨⟨_, unexcluded⟩, scriptless⟩ := free
    refine List.forall_mem_append.2 ⟨before, List.forall_mem_singleton.2 ⟨?_, scriptless⟩⟩
    intro excluded
    rw [List.contains_iff_mem.2 excluded] at unexcluded
    cases unexcluded

/-! ## Funding -/

/-- What is selected on top of the inputs of the draft: nothing when they suffice, and else what
a selector selects from the pool for the request that the build makes. -/
inductive Selects (plan : Plan) (context : ChainContext) : List Utxo → Prop where
  | nothing (fulfilled : (plan.unfulfilled plan.draft.inputs).isZero = true) :
      Selects plan context []
  | selection {pool : List Utxo} {address : Address} {selector next : Selector}
      {selection : Selection}
      (pooled : poolFrom plan.draft context [] plan.draft.inputAddresses = .ok pool)
      (addressed : plan.selectionAddress? = some address)
      (selected : selector.select plan.parameters
        (plan.request address (plan.unfulfilled plan.draft.inputs)) pool =
          (.ok selection, next)) :
      Selects plan context selection.selected

theorem exists_of_selectWith {plan : Plan} {request : SelectionRequest} {unfulfilled : Value}
    {pool : List Utxo} {selectors : List Selector} {selection : Selection}
    (done : (plan.selectWith request unfulfilled pool selectors).result = .ok selection) :
    ∃ selector ∈ selectors, ∃ next,
      selector.select plan.parameters request pool = (.ok selection, next) := by
  induction selectors with
  | nil => simp [selectWith] at done
  | cons selector rest ih =>
      rw [selectWith, Traced.result_emit_bind] at done
      cases answer : selector.select plan.parameters request pool with
      | mk result next =>
          cases result with
          | ok found =>
              simp only [answer] at done
              exact ⟨selector, List.mem_cons_self, next, by
                rw [answer, Except.ok.inj done]⟩
          | error error =>
              simp only [answer] at done
              obtain ⟨other, member, found⟩ := ih done
              exact ⟨other, List.mem_cons_of_mem _ member, found⟩

theorem selects_of_selectMissing {plan : Plan} {context : ChainContext}
    {selectors : List Selector} {selected : List Utxo}
    (done : (plan.selectMissing context selectors
      (plan.unfulfilled plan.draft.inputs)).result = .ok selected) :
    plan.Selects context selected := by
  unfold selectMissing at done
  by_cases nowhere : (plan.draft.inputs.isEmpty && plan.draft.inputAddresses.isEmpty) = true
  · simp only [if_pos nowhere, Traced.result_fail, reduceCtorEq] at done
  · simp only [if_neg nowhere] at done
    obtain ⟨pool, pooled, rest⟩ := Traced.result_bind_eq_ok.1 done
    cases addressed : plan.selectionAddress? with
    | none => simp [addressed] at rest
    | some address =>
        simp only [addressed] at rest
        obtain ⟨selection, asked, made⟩ := Traced.result_bind_eq_ok.1 rest
        obtain ⟨selector, _, next, answer⟩ := exists_of_selectWith asked
        rw [← Except.ok.inj made]
        exact .selection pooled addressed answer

/-- The outputs that are spent besides the inputs of the draft. -/
def supplement (plan : Plan) (context : ChainContext) (selectors : List Selector) :
    Except BuildError (List Utxo) :=
  let unfulfilled := plan.unfulfilled plan.draft.inputs
  if unfulfilled.isZero then .ok []
  else (plan.selectMissing context selectors unfulfilled).result

/-- The inputs of the draft and others, sorted and distinct, unless there are none. -/
def joined (plan : Plan) (selected : List Utxo) : Except BuildError (List Utxo) :=
  let inputs := distinctInputs (plan.draft.inputs ++ selected)
  if inputs.isEmpty then .error .noInputs else .ok inputs

theorem joined_eq_ok {plan : Plan} {selected inputs : List Utxo}
    (done : plan.joined selected = .ok inputs) :
    inputs = distinctInputs (plan.draft.inputs ++ selected) ∧ inputs ≠ [] := by
  unfold joined at done
  simp only at done
  split at done
  · cases done
  next some =>
    rw [← Except.ok.inj done]
    exact ⟨rfl, fun none => some (List.isEmpty_iff.2 none)⟩

/-- Inputs with distinct names are put in the order of these. -/
theorem joined_of_perm {plan : Plan} {selected ordered : List Utxo}
    (same : (plan.draft.inputs ++ selected).Perm ordered)
    (ascending : ordered.Pairwise fun first second => Before first.input second.input)
    (some : ordered ≠ []) : plan.joined selected = .ok ordered := by
  unfold joined
  rw [distinctInputs_of_perm same ascending]
  exact if_neg fun none => some (List.isEmpty_iff.1 none)

theorem result_fund (plan : Plan) (context : ChainContext) (selectors : List Selector) :
    (plan.fund context selectors).result =
      (plan.supplement context selectors).bind plan.joined := by
  have closing (selected : List Utxo) :
      (if (distinctInputs (plan.draft.inputs ++ selected)).isEmpty = true then
        Traced.fail .noInputs
      else pure (distinctInputs (plan.draft.inputs ++ selected)) :
        Traced (List Utxo)).result = plan.joined selected := by
    unfold joined
    by_cases none : (distinctInputs (plan.draft.inputs ++ selected)).isEmpty = true
    · rw [if_pos none, if_pos none, Traced.result_fail]
    · rw [if_neg none, if_neg none, Traced.result_pure]
  unfold fund supplement
  by_cases fulfilled : (plan.unfulfilled plan.draft.inputs).isZero = true
  · simp only [if_pos fulfilled, Traced.result_bind, closing, Traced.result_pure]
  · simp only [if_neg fulfilled, Traced.result_bind, closing]

theorem selects_of_supplement {plan : Plan} {context : ChainContext} {selectors : List Selector}
    {selected : List Utxo} (selecting : plan.supplement context selectors = .ok selected) :
    plan.Selects context selected := by
  unfold supplement at selecting
  simp only at selecting
  split at selecting
  next fulfilled =>
    rw [← Except.ok.inj selecting]
    exact .nothing fulfilled
  next => exact selects_of_selectMissing selecting

/-- The inputs are those of the draft and those selected, sorted and distinct. -/
theorem selects_of_fund {plan : Plan} {context : ChainContext} {selectors : List Selector}
    {inputs : List Utxo} (funded : (plan.fund context selectors).result = .ok inputs) :
    ∃ selected, plan.Selects context selected ∧
      inputs = distinctInputs (plan.draft.inputs ++ selected) := by
  rw [result_fund] at funded
  obtain ⟨selected, selecting, done⟩ := Except.bind_eq_ok.1 funded
  exact ⟨selected, selects_of_supplement selecting, (joined_eq_ok done).1⟩

/-- A transaction has inputs. -/
theorem ne_nil_of_fund {plan : Plan} {context : ChainContext} {selectors : List Selector}
    {inputs : List Utxo} (funded : (plan.fund context selectors).result = .ok inputs) :
    inputs ≠ [] := by
  rw [result_fund] at funded
  obtain ⟨_, _, done⟩ := Except.bind_eq_ok.1 funded
  exact (joined_eq_ok done).2

/-- What is selected comes from a pool. -/
theorem Selects.exists_isPool {plan : Plan} {context : ChainContext} {selected : List Utxo}
    (selects : plan.Selects context selected) :
    ∃ pool, IsPool plan.draft context pool ∧ ∃ rest, (selected ++ rest).Perm pool := by
  cases selects with
  | nothing => exact ⟨[], isPool_nil _ _, [], List.Perm.refl _⟩
  | selection pooled _ answer =>
      have isPool := isPool_of_poolFrom pooled
      have distinct := List.Pairwise.of_map Utxo.input
        (fun first second apart same => apart (congrArg Utxo.input same)) isPool.distinct
      exact ⟨_, isPool, _, Selector.select_splits distinct answer⟩

theorem Selects.reported {plan : Plan} {context : ChainContext} {selected : List Utxo}
    (selects : plan.Selects context selected) {utxo : Utxo} (member : utxo ∈ selected) :
    IsReported plan.draft context utxo := by
  obtain ⟨pool, isPool, rest, splits⟩ := selects.exists_isPool
  exact isPool.reported utxo (splits.subset (List.mem_append_left _ member))

/-- What is selected has distinct names, and none of them is the name of a given input. -/
theorem Selects.nodup {plan : Plan} {context : ChainContext} {selected : List Utxo}
    (selects : plan.Selects context selected)
    (distinct : (plan.draft.inputs.map (·.input)).Nodup) :
    ((plan.draft.inputs ++ selected).map (·.input)).Nodup := by
  obtain ⟨pool, isPool, rest, splits⟩ := selects.exists_isPool
  have names : ((selected ++ rest).map (·.input)).Nodup :=
    (splits.map (·.input)).nodup_iff.2 isPool.distinct
  rw [List.map_append] at names ⊢
  refine List.nodup_append.2 ⟨distinct, (List.nodup_append.1 names).1, ?_⟩
  intro name listed other member same
  obtain ⟨given, inside, rfl⟩ := List.mem_map.1 listed
  obtain ⟨utxo, taken, rfl⟩ := List.mem_map.1 member
  exact isPool.apart given inside utxo (splits.subset (List.mem_append_left _ taken)) same

end Plan

/-- What is selected decides the inputs, and the inputs decide the outcome. -/
theorem Draft.result_build_of_joined {draft : Draft} {context : ChainContext}
    {selectors : List Selector} {changeAddress : Option Address} {plan : Plan}
    {selected inputs : List Utxo} (planned : draft.planned context changeAddress = .ok plan)
    (selecting : plan.supplement context selectors = .ok selected)
    (joining : plan.joined selected = .ok inputs) :
    (draft.build context selectors changeAddress).result = plan.conclude inputs := by
  rw [result_build, planned]
  simp only [Except.bind, Plan.result_fund, selecting, joining]

/-- Every successful build comes about like this. -/
theorem Draft.exists_of_result_build {draft : Draft} {context : ChainContext}
    {selectors : List Selector} {changeAddress : Option Address} {plan : Plan}
    {result : Draft.Result} (planned : draft.planned context changeAddress = .ok plan)
    (built : (draft.build context selectors changeAddress).result = .ok result) :
    ∃ selected inputs, plan.supplement context selectors = .ok selected ∧
      plan.joined selected = .ok inputs ∧ plan.conclude inputs = .ok result := by
  rw [result_build, planned] at built
  change (plan.fund context selectors).result.bind plan.conclude = .ok result at built
  obtain ⟨inputs, funded, concluded⟩ := Except.bind_eq_ok.1 built
  rw [Plan.result_fund] at funded
  obtain ⟨selected, selecting, joining⟩ := Except.bind_eq_ok.1 funded
  exact ⟨selected, inputs, selecting, joining, concluded⟩

end UtxoLedger
