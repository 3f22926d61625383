import EntityFlux.Proofs.Mentions

/-!
# References

The text of a lowered query refers to its parameters by name, in the order of the stages; its
document binds them in reading order. The two are compared up to order: the positions that the text
refers to (`Query.used`) and those that nothing refers to (`Query.idle`) make up all positions, each
once (`Query.used_append_idle`). Idle are the parameters of a take or a skip that a later one
overrides, and of every skip where nothing is taken.
-/

namespace EntityFlux

open Flux

/-- The parameters that a text refers to. -/
def references (text : String) : List String := mentions isReference text

/-! ## Positions -/

def Clause.filterPositions (bound : Nat) : Clause → List Nat
  | .filter predicate => block bound predicate.constants.length
  | .order _ => []

def Clause.sortPositions (bound : Nat) (clause : Clause) : List Nat :=
  (clause.sortBounds bound).flatMap (block · 2)

/-- The positions of the constants of a count. -/
def countPositions (count : Nat × Expr) : List Nat := block count.1 count.2.constants.length

namespace Query

variable (settings : Settings) (query : Query)

/-- How many parameters a query takes. -/
def width : Nat :=
  settings.sourceWidth + (query.body.map Clause.width).sum
    + (query.operators.map ResultOperator.width).sum

/-- The positions of the parameters in the order of the stages. -/
def used : List Nat :=
  block 0 settings.sourceWidth
    ++ (query.clausesAt settings).flatMap (fun (bound, clause) => clause.filterPositions bound)
    ++ (query.clausesAt settings).flatMap (fun (bound, clause) => clause.sortPositions bound)
    ++ (query.applied settings).flatMap countPositions

/-- The counts that no stage shows: of every take but the last, of every skip but the last, and of
every skip where there is no take. -/
def lost : List (Nat × Expr) :=
  (query.takesAt settings).dropLast
    ++ if (query.takesAt settings).isEmpty then query.skipsAt settings
      else (query.skipsAt settings).dropLast

def idle : List Nat := (query.lost settings).flatMap countPositions

end Query

section Positions

variable {settings : Settings} {query : Query}

/-- Items that take up room one behind the other take up all of it. -/
theorem flatMap_block_offsets {α : Type} (weight : α → Nat) (start : Nat) (items : List α) :
    (offsets weight start items).flatMap (fun (bound, item) => block bound (weight item))
      = block start (items.map weight).sum := by
  induction items generalizing start with
  | nil => rfl
  | cons item items ih =>
    rw [offsets_cons, List.flatMap_cons, ih, List.map_cons, List.sum_cons, block_append]

theorem Clause.positions_append (bound : Nat) (clause : Clause) :
    clause.filterPositions bound ++ clause.sortPositions bound = block bound clause.width := by
  cases clause with
  | filter predicate => simp [filterPositions, sortPositions, sortBounds, width]
  | order keys =>
    have hkeys := flatMap_block_offsets (fun _ : SortKey => 2) bound keys
    simpa [filterPositions, sortPositions, sortBounds, width, List.flatMap_map, Nat.mul_comm]
      using hkeys

theorem ResultOperator.positions_append (bound : Nat) (operator : ResultOperator) :
    (operator.takes bound).flatMap countPositions ++ (operator.skipped bound).flatMap countPositions
      = block bound operator.width := by
  cases operator <;> simp [takes, skipped, countPositions, width, literals, block]

theorem Query.clause_positions (settings : Settings) (query : Query) :
    List.Perm
      ((query.clausesAt settings).flatMap (fun (bound, clause) => clause.filterPositions bound)
        ++ (query.clausesAt settings).flatMap (fun (bound, clause) => clause.sortPositions bound))
      (block settings.sourceWidth (query.body.map Clause.width).sum) := by
  refine (List.flatMap_append_perm _ _ _).trans (.of_eq ?_)
  simp only [Clause.positions_append]
  exact flatMap_block_offsets _ _ _

theorem Query.operator_positions :
    ((query.takesAt settings).flatMap countPositions
      ++ (query.skipsAt settings).flatMap countPositions).Perm
      (block (settings.sourceWidth + (query.body.map Clause.width).sum)
        (query.operators.map ResultOperator.width).sum) := by
  rw [Query.takesAt, Query.skipsAt, List.flatMap_assoc, List.flatMap_assoc]
  refine (List.flatMap_append_perm _ _ _).trans (.of_eq ?_)
  simp only [ResultOperator.positions_append]
  exact flatMap_block_offsets _ _ _

theorem getLast?_append_dropLast {α : Type} (items : List α) :
    (items.getLast?.toList ++ items.dropLast).Perm items := by
  rcases List.eq_nil_or_concat items with rfl | ⟨earlier, last, rfl⟩
  · exact .nil
  · simpa using (List.perm_append_singleton last earlier).symm

theorem Query.applied_append_lost :
    (query.applied settings ++ query.lost settings).Perm
      (query.takesAt settings ++ query.skipsAt settings) := by
  unfold Query.applied Query.lost
  generalize query.takesAt settings = takes
  generalize query.skipsAt settings = skips
  rcases htake : takes.getLast? with _ | take
  · obtain rfl := List.getLast?_eq_none_iff.1 htake
    simp
  · have hne : takes.isEmpty = false := by
      rw [List.isEmpty_eq_false_iff]
      rintro rfl
      simp at htake
    -- of each kind the last one moves ahead of the others; then the kinds are sorted apart
    have hswap := (List.perm_append_comm_assoc skips.getLast?.toList takes.dropLast
      skips.dropLast).append_left [take]
    have htakes := getLast?_append_dropLast takes
    rw [htake] at htakes
    have hboth := htakes.append (getLast?_append_dropLast skips)
    simp only [Option.toList_some, List.flatMap_singleton, hne, Bool.false_eq_true, if_false,
      List.cons_append, List.nil_append] at hswap hboth ⊢
    exact hswap.trans hboth

/-- Every position is used or idle, and none is both. -/
theorem Query.used_append_idle (settings : Settings) (query : Query) :
    (query.used settings ++ query.idle settings).Perm (block 0 (query.width settings)) := by
  have hcounts : ((query.applied settings).flatMap countPositions ++ query.idle settings).Perm
      (block (settings.sourceWidth + (query.body.map Clause.width).sum)
        (query.operators.map ResultOperator.width).sum) := by
    refine List.Perm.trans ?_ Query.operator_positions
    rw [Query.idle, ← List.flatMap_append, ← List.flatMap_append]
    exact Query.applied_append_lost.flatMap_right _
  have hall := (query.clause_positions settings).append hcounts
  rw [Query.width, Query.used]
  simp only [← block_append, List.append_assoc, Nat.zero_add] at hall ⊢
  exact hall.append_left _

end Positions

/-! ## The text and its document -/

section Text

variable {settings : Settings} {registry : Registry} {bucket : String} {query : Query}
  {request : Request} {entity : Entity}

theorem Query.Lowered.references_filterTexts (h : query.Lowered settings registry request entity)
    (hplain : registry.IsPlain) :
    (query.filterTexts settings entity).flatMap references
      = ((query.clausesAt settings).flatMap fun (bound, clause) =>
        clause.filterPositions bound).map parameterName := by
  rw [Query.filterTexts, List.flatMap_assoc, List.map_flatMap]
  refine List.flatMap_congr ?_
  rintro ⟨bound, clause⟩ hc
  cases clause with
  | filter predicate =>
    simp only [Clause.filterTexts, List.flatMap_singleton]
    exact Expr.mentions_references (h.filters hc) (hplain.columns h.found predicate)
  | order keys => rfl

theorem Stage.references_sort (bound : Nat) :
    references (Stage.sort bound) = (block bound 2).map parameterName := by
  rw [references, Stage.mentions_sort (by decide)]
  simp [isReference_parameterName, block, List.range'_succ]

theorem Query.references_sorts :
    ((query.sortBounds settings).map Stage.sort).flatMap references
      = ((query.clausesAt settings).flatMap fun (bound, clause) =>
        clause.sortPositions bound).map parameterName := by
  rw [List.flatMap_map, Query.sortBounds, List.flatMap_assoc, List.map_flatMap]
  refine List.flatMap_congr ?_
  rintro ⟨bound, clause⟩ -
  simp only [Clause.sortPositions, List.map_flatMap, Stage.references_sort]

theorem Query.Lowered.references_limit (h : query.Lowered settings registry request entity)
    (hplain : registry.IsPlain) :
    (Stage.limit (query.limits settings entity).getLast?
        (query.skips settings entity).getLast?).flatMap references
      = ((query.applied settings).flatMap countPositions).map parameterName := by
  unfold references
  rw [h.mentions_limit hplain (by decide), List.map_flatMap]
  refine List.flatMap_congr ?_
  rintro ⟨bound, n⟩ hn
  exact Expr.mentions_references (h.compile_of_mem_applied hn) (hplain.columns h.found n)

theorem Query.Lowered.references_query (h : query.Lowered settings registry request entity)
    (hplain : registry.IsPlain) :
    references request.query = (query.used settings).map parameterName := by
  have hclosed : ∀ stage ∈ query.stages settings entity, Closed stage :=
    fun stage hs => (h.whole_stages hplain stage hs).closed
  have hsource : ["from(bucket: p1)", Stage.range settings.rangeStop.isSome].flatMap references
      = (block 0 settings.sourceWidth).map parameterName := by
    unfold Settings.sourceWidth
    cases settings.rangeStop.isSome <;> decide +kernel
  have hdrop : (Stage.drop settings.dropColumns).flatMap references = [] :=
    Stage.mentions_drop (by decide) _
  have hpivot : [Stage.pivot].flatMap references = [] := by decide +kernel
  have hfilter : (Stage.filter (query.filterTexts settings entity)).flatMap references
      = (query.filterTexts settings entity).flatMap references :=
    Stage.mentions_filter (by decide) fun text ht => (h.whole_filterTexts hplain text ht).closed
  have hcount : (if query.operators.any (·.counts) then Stage.count else []).flatMap references
      = [] := by
    cases query.operators.any (·.counts) <;> decide +kernel
  rw [references, h.text, mentions_intercalate (by decide) (by decide) hclosed]
  change (query.stages settings entity).flatMap references = _
  rw [Query.stages]
  simp only [List.flatMap_append, hsource, hdrop, hpivot, hfilter, hcount,
    h.references_filterTexts hplain, Query.references_sorts, h.references_limit hplain,
    List.append_nil, Query.used, List.map_append]

/-- The parameters of the operators come behind those of the source and the body. -/
theorem Query.bindings_eq (h : (query.lower settings registry bucket).2 = .ok request) :
    ∃ first : List Literal,
      first.length = settings.sourceWidth + (query.body.map Clause.width).sum
      ∧ request.bindings.body
        = Progress.bindingsFrom 0 (first ++ query.operators.flatMap ResultOperator.literals) := by
  obtain ⟨entity, p₀, p₁, p₂, he, hs, -, h₁, h₂, rfl⟩ := Query.lower_ok h
  refine ⟨p₁.parameters, ?_, ?_⟩
  · rw [(Clause.run_of_lowerAll query.body h₁).bound, hs, length_sourceLiterals]
  · rw [Progress.document,
      Attempt.binds_forM (ResultOperator.binds_lower settings entity) query.operators h₂]

theorem Query.names_bindings (h : (query.lower settings registry bucket).2 = .ok request) :
    request.bindings.body.map (·.name) = (block 0 (query.width settings)).map parameterName := by
  obtain ⟨first, hfirst, hbody⟩ := Query.bindings_eq h
  rw [hbody, Progress.names_bindingsFrom, List.length_append, hfirst, List.length_flatMap]
  rfl

theorem Progress.length_bindingsFrom (bound : Nat) (values : List Literal) :
    (bindingsFrom bound values).length = values.length := by
  rw [bindingsFrom_eq, List.length_mapIdx]

/-- Values are bound behind those ahead of them. -/
theorem Progress.bindingsFrom_window (ahead values behind : List Literal) :
    ((bindingsFrom 0 (ahead ++ (values ++ behind))).drop ahead.length).take values.length
      = bindingsFrom ahead.length values := by
  rw [bindingsFrom_append, bindingsFrom_append, Nat.zero_add,
    List.drop_left' (length_bindingsFrom 0 ahead), List.take_left' (length_bindingsFrom _ values)]

theorem split_of_mem_offsets {α : Type} {weight : α → Nat} {start offset : Nat} {items : List α}
    {item : α} (h : (offset, item) ∈ offsets weight start items) :
    ∃ before after, items = before ++ item :: after
      ∧ offset = start + (before.map weight).sum := by
  induction items generalizing start with
  | nil => simp at h
  | cons first items ih =>
    rw [offsets_cons, List.mem_cons] at h
    rcases h with h | h
    · obtain ⟨rfl, rfl⟩ := Prod.mk.inj h
      exact ⟨[], items, rfl, rfl⟩
    · obtain ⟨before, after, rfl, rfl⟩ := ih h
      exact ⟨first :: before, after, rfl, by simp [Nat.add_assoc]⟩

theorem Query.operator_of_count {bound : Nat} {n : Expr}
    (h : (bound, n) ∈ query.takesAt settings ++ query.skipsAt settings) :
    ∃ operator, (bound, operator) ∈ query.operatorsAt settings
      ∧ operator.literals = n.constants := by
  rcases List.mem_append.1 h with h | h
  · exact ⟨.take n, Query.mem_takesAt.1 h, rfl⟩
  · exact ⟨.skip n, Query.mem_skipsAt.1 h, rfl⟩

/-- The document binds the constants of a count right behind the parameters ahead of it. -/
theorem Query.bindings_at_count (h : (query.lower settings registry bucket).2 = .ok request)
    {bound : Nat} {n : Expr}
    (hn : (bound, n) ∈ query.takesAt settings ++ query.skipsAt settings) :
    (request.bindings.body.drop bound).take n.constants.length
      = Progress.bindingsFrom bound n.constants := by
  obtain ⟨first, hfirst, hbody⟩ := Query.bindings_eq h
  obtain ⟨operator, ho, hconstants⟩ := Query.operator_of_count hn
  obtain ⟨before, after, hsplit, rfl⟩ := split_of_mem_offsets ho
  have hahead : (first ++ before.flatMap ResultOperator.literals).length
      = settings.sourceWidth + (query.body.map Clause.width).sum
        + (before.map ResultOperator.width).sum := by
    rw [List.length_append, hfirst, List.length_flatMap]
    rfl
  rw [hbody, hsplit, List.flatMap_append, List.flatMap_cons, ← List.append_assoc, ← hahead,
    hconstants, Progress.bindingsFrom_window]

/-- A lowered text refers to parameters that its document binds, and to none of them twice. Those
that it does not refer to are the constants of a take or a skip that a later one overrides, or of a
skip where nothing is taken. -/
theorem Query.references_account_for_bindings (hplain : registry.IsPlain)
    (h : (query.lower settings registry bucket).2 = .ok request) :
    request.bindings.body.length = query.width settings
      ∧ (∀ word ∈ references request.query,
        ∃ i, 1 ≤ i ∧ i ≤ request.bindings.body.length ∧ word = parameterName i)
      ∧ (references request.query).Nodup
      ∧ (∀ i, 1 ≤ i → i ≤ request.bindings.body.length →
        (parameterName i ∉ references request.query ↔ i ∈ query.idle settings))
      ∧ ∀ bound n, (bound, n) ∈ query.lost settings →
        (request.bindings.body.drop bound).take n.constants.length
          = Progress.bindingsFrom bound n.constants := by
  obtain ⟨entity, hl⟩ := Query.lowered_of_lower h
  have hreferences := hl.references_query hplain
  have hnames := Query.names_bindings h
  have hlength : request.bindings.body.length = query.width settings := by
    simpa [block] using congrArg List.length hnames
  have hmem : ∀ i, i ∈ block 0 (query.width settings) ↔ 1 ≤ i ∧ i ≤ query.width settings := by
    intro i
    simp only [block, List.mem_range'_1]
    omega
  -- all positions differ, so used ones occur once and idle ones not at all
  have hperm := query.used_append_idle settings
  have hnodup := hperm.nodup_iff.2 (List.nodup_range' 1)
  rw [hlength, hreferences]
  refine ⟨rfl, ?_, ?_, ?_, ?_⟩
  · intro word hw
    obtain ⟨i, hi, rfl⟩ := List.mem_map.1 hw
    obtain ⟨hone, hle⟩ := (hmem i).1 (hperm.subset (List.mem_append_left _ hi))
    exact ⟨i, hone, hle, rfl⟩
  · exact hnodup.of_append_left.map parameterName_injective
  · intro i hone hle
    rw [List.mem_map_of_injective parameterName_injective]
    have hi := List.mem_append.1 (hperm.mem_iff.2 ((hmem i).2 ⟨hone, hle⟩))
    refine ⟨hi.resolve_left, fun hidle hused => ?_⟩
    exact List.disjoint_of_nodup_append hnodup hused hidle
  · intro bound n hn
    exact Query.bindings_at_count h
      (Query.applied_append_lost.subset (List.mem_append_right _ hn))

end Text

theorem Query.references_account_for_bindings_sample :
    sampleRegistry.IsPlain
      ∧ ∃ request, (sampleQuery.lower sampleSettings sampleRegistry "b").2 = .ok request
        ∧ request.bindings.body.length = 13
        ∧ (references request.query).Nodup
        ∧ ∀ i, 1 ≤ i → i ≤ 13 → (parameterName i ∉ references request.query ↔ i = 11) := by
  have hplain : sampleRegistry.IsPlain := by decide
  obtain ⟨request, hr⟩ := sampleQuery_lower
  obtain ⟨hlength, -, hnodup, hidle, -⟩ := Query.references_account_for_bindings hplain hr
  have hwidth : sampleQuery.width sampleSettings = 13 := by decide
  have hpositions : sampleQuery.idle sampleSettings = [11] := by decide
  rw [hwidth] at hlength
  refine ⟨hplain, request, hr, hlength, hnodup, fun i hone hle => ?_⟩
  rw [hidle i hone (hlength ▸ hle), hpositions, List.mem_singleton]

end EntityFlux
