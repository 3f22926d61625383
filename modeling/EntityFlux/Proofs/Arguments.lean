import EntityFlux.Proofs.References

/-!
# Arguments of the stages

The arguments of a stage are names of parameters, and the document says what they are bound to. A
clause or an operator of a lowered query has its literals behind as many parameters as stand ahead
of it (`StandsAt.of_mem_offsets`), so the names in its stage lead to its own literals
(`StandsAt.find?`). The stages of one kind are picked by their name.
-/

namespace EntityFlux

open Flux

/-! ## Literals behind their bound -/

/-- The values follow one another behind `bound` others. -/
def StandsAt {β : Type} (values : List β) (bound : Nat) (all : List β) : Prop :=
  ∃ ahead behind, all = ahead ++ (values ++ behind) ∧ ahead.length = bound

section StandsAt

variable {α β : Type} {weight : α → Nat} {literals : α → List β} {items : List α} {item : α}
  {all : List β} {start bound : Nat}

theorem StandsAt.of_mem_offsets (h : StandsAt (items.flatMap literals) start all)
    (hweight : ∀ item ∈ items, (literals item).length = weight item)
    (hitem : (bound, item) ∈ offsets weight start items) :
    StandsAt (literals item) bound all := by
  obtain ⟨ahead, behind, rfl, rfl⟩ := h
  obtain ⟨before, after, rfl, rfl⟩ := split_of_mem_offsets hitem
  refine ⟨ahead ++ before.flatMap literals, after.flatMap literals ++ behind, by simp, ?_⟩
  have hbefore := fun item hi => hweight item (List.mem_append_left _ hi)
  rw [List.length_append, List.length_flatMap, List.map_congr_left hbefore]

theorem StandsAt.find? {values all : List Literal} (h : StandsAt values bound all) {i : Nat}
    {value : Literal} (hi : values[i]? = some value) :
    Document.find? { body := Progress.bindingsFrom 0 all } (parameterName (bound + i + 1))
      = some (Node.ofLiteral value) := by
  obtain ⟨ahead, behind, rfl, rfl⟩ := h
  have hvalue : (ahead ++ (values ++ behind))[ahead.length + i]? = some value := by
    rw [List.getElem?_append_right (Nat.le_add_right _ _), Nat.add_sub_cancel_left,
      List.getElem?_append_left (List.getElem?_eq_some_iff.1 hi).1, hi]
  rw [Progress.find?_bindingsFrom, hvalue, Option.map_some]

end StandsAt

/-! ## Literals of clauses and operators -/

section Literals

variable {settings : Settings} {registry : Registry} {bucket : String} {query : Query}
  {request : Request} {entity : Entity}

theorem Query.bindings_of_entity (he : registry.find? query.entity = some entity)
    (h : (query.lower settings registry bucket).2 = .ok request) :
    request.bindings =
      { body := Progress.bindingsFrom 0 (query.literals settings entity bucket) } := by
  obtain ⟨found, hf, hb⟩ := Query.bindings_of_lower h
  rwa [← Option.some.inj (he.symm.trans hf)] at hb

/-- A sort key that does not offend is a mapped member. -/
theorem SortKey.mapped_of_clean {key : SortKey} (h : key.offences entity = []) :
    ∃ name role, key.expr = .member name ∧ entity.role? name = some role := by
  obtain ⟨e, direction⟩ := key
  cases e with
  | member name =>
    rcases hr : entity.role? name with _ | role
    · simp [SortKey.offences, Expr.offence?, hr] at h
    · exact ⟨name, role, rfl, hr⟩
  | _ => simp [SortKey.offences] at h

theorem SortKey.length_literals {key : SortKey} (h : key.offences entity = []) :
    (key.literals entity).length = 2 := by
  obtain ⟨name, role, he, hr⟩ := SortKey.mapped_of_clean h
  simp [SortKey.literals, he, hr]

/-- A clause that does not offend has as many literals as it takes parameters. -/
theorem Clause.length_literals {clause : Clause} (h : clause.offences entity = []) :
    (clause.literals entity).length = clause.width := by
  cases clause with
  | filter predicate => rfl
  | order keys =>
    have hkey := fun key hk => SortKey.length_literals (List.flatMap_eq_nil_iff.1 h key hk)
    rw [Clause.literals, List.length_flatMap, List.map_congr_left hkey, Clause.width]
    simp [Nat.mul_comm]

theorem Clause.length_flatMap_literals {clauses : List Clause}
    (h : ∀ clause ∈ clauses, clause.offences entity = []) :
    (clauses.flatMap (Clause.literals entity)).length = (clauses.map Clause.width).sum := by
  have hclause := fun clause hc => Clause.length_literals (h clause hc)
  rw [List.length_flatMap, List.map_congr_left hclause]

theorem Query.Clean.standsAt_clause (h : query.Clean settings entity) (bucket : String)
    {bound : Nat} {clause : Clause} (hc : (bound, clause) ∈ query.clausesAt settings) :
    StandsAt (clause.literals entity) bound (query.literals settings entity bucket) := by
  have hbody : StandsAt (query.body.flatMap (Clause.literals entity)) settings.sourceWidth
      (query.literals settings entity bucket) :=
    ⟨sourceLiterals settings bucket, _, rfl, length_sourceLiterals settings bucket⟩
  exact hbody.of_mem_offsets (fun clause hc => Clause.length_literals (h.clauses clause hc)) hc

theorem Query.Clean.standsAt_operator (h : query.Clean settings entity) (bucket : String)
    {bound : Nat} {operator : ResultOperator}
    (ho : (bound, operator) ∈ query.operatorsAt settings) :
    StandsAt operator.literals bound (query.literals settings entity bucket) := by
  have hoperators : StandsAt (query.operators.flatMap ResultOperator.literals)
      (settings.sourceWidth + (query.body.map Clause.width).sum)
      (query.literals settings entity bucket) := by
    refine ⟨sourceLiterals settings bucket ++ query.body.flatMap (Clause.literals entity), [],
      ?_, ?_⟩
    · simp [Query.literals]
    · rw [List.length_append, length_sourceLiterals, Clause.length_flatMap_literals h.clauses]
  exact hoperators.of_mem_offsets (fun _ _ => rfl) ho

end Literals

/-! ## Words of a stage -/

section Words

variable {before left between right after : String}

theorem mentions_all (text : String) : mentions (fun _ => true) text = wordsOf text :=
  List.filter_eq_self.2 fun _ _ => rfl

theorem wordsOf_frame {text : String} (hbefore : Closed before ∧ EndsApart before)
    (hafter : StartsApart after) (h : Closed text) :
    wordsOf (before ++ (text ++ after)) = wordsOf before ++ (wordsOf text ++ wordsOf after) := by
  simp only [← mentions_all]
  rw [mentions_lead hbefore.1 hbefore.2, mentions_rear h hafter]

theorem wordsOf_frame_two (hbefore : Closed before ∧ EndsApart before) (hbetween : Glue between)
    (hafter : StartsApart after) (hl : Closed left) (hr : Closed right) :
    wordsOf (before ++ (left ++ (between ++ (right ++ after))))
      = wordsOf before
        ++ (wordsOf left ++ (wordsOf between ++ (wordsOf right ++ wordsOf after))) := by
  simp only [← mentions_all]
  rw [mentions_lead hbefore.1 hbefore.2, mentions_glue hl hbetween, mentions_rear hr hafter]

end Words

/-! ## Stages of one kind -/

/-- The stages of that name. -/
def Stage.named (name : String) (stages : List String) : List String :=
  stages.filter (Stage.name · = name)

section Named

variable {name : String} {stages : List String}

theorem Stage.named_append (name : String) (stages more : List String) :
    Stage.named name (stages ++ more) = Stage.named name stages ++ Stage.named name more :=
  List.filter_append ..

theorem Stage.named_eq_self (h : ∀ other ∈ stages.map Stage.name, other = name) :
    Stage.named name stages = stages := by
  rw [List.forall_mem_map] at h
  exact List.filter_eq_self.2 fun stage hs => decide_eq_true (h stage hs)

theorem Stage.named_eq_nil (h : name ∉ stages.map Stage.name) : Stage.named name stages = [] := by
  rw [List.mem_map, not_exists] at h
  exact List.filter_eq_nil_iff.2 fun stage hs hn => h stage ⟨hs, of_decide_eq_true hn⟩

variable {settings : Settings} {entity : Entity} {query : Query}

/-- Only sorts and limits are left of the stages if neither those ahead of them nor those of a count
are asked for. -/
theorem Query.named_stages
    (h : name ∉ ["from", "range", "drop", "pivot", "filter", "stateCount", "last", "keep"]) :
    Stage.named name (query.stages settings entity)
      = Stage.named name ((query.sortBounds settings).map Stage.sort)
        ++ Stage.named name (Stage.limit (query.limits settings entity).getLast?
          (query.skips settings entity).getLast?) := by
  simp only [List.mem_cons, List.not_mem_nil, or_false, not_or] at h
  obtain ⟨hfrom, hrange, hdrop, hpivot, hfilter, hcount, hlast, hkeep⟩ := h
  have hsource : Stage.named name ["from(bucket: p1)", Stage.range settings.rangeStop.isSome]
      = [] := by
    have hnames : ["from(bucket: p1)", Stage.range settings.rangeStop.isSome].map Stage.name
        = ["from", "range"] := by
      cases settings.rangeStop.isSome <;> decide
    exact Stage.named_eq_nil (by simp [hnames, hfrom, hrange])
  have hdropped : Stage.named name (Stage.drop settings.dropColumns) = [] := by
    refine Stage.named_eq_nil ?_
    rw [Stage.name_drop]
    split <;> simp [hdrop]
  have hpivoted : Stage.named name [Stage.pivot] = [] := by
    have hnames : [Stage.pivot].map Stage.name = ["pivot"] := by decide +kernel
    exact Stage.named_eq_nil (by simp [hnames, hpivot])
  have hfiltered : Stage.named name (Stage.filter (query.filterTexts settings entity)) = [] := by
    refine Stage.named_eq_nil ?_
    rw [Stage.name_filter]
    split <;> simp [hfilter]
  have hcounted : Stage.named name (if query.operators.any (·.counts) then Stage.count else [])
      = [] := by
    have hnames : Stage.count.map Stage.name = ["stateCount", "last", "keep"] := by decide +kernel
    split
    · exact Stage.named_eq_nil (by simp [hnames, hcount, hlast, hkeep])
    · rfl
  simp only [Query.stages, Stage.named_append, hsource, hdropped, hpivoted, hfiltered, hcounted,
    List.nil_append, List.append_nil]

theorem Query.named_sort :
    Stage.named "sort" (query.stages settings entity)
      = (query.sortBounds settings).map Stage.sort := by
  have hsorts : Stage.named "sort" ((query.sortBounds settings).map Stage.sort)
      = (query.sortBounds settings).map Stage.sort :=
    Stage.named_eq_self (by simp [Stage.name_sort])
  rw [Query.named_stages (by decide), hsorts, Stage.named_eq_nil, List.append_nil]
  rw [Stage.name_limit]
  split <;> simp

theorem Query.named_limit :
    Stage.named "limit" (query.stages settings entity)
      = Stage.limit (query.limits settings entity).getLast?
        (query.skips settings entity).getLast? := by
  have hsorts : Stage.named "limit" ((query.sortBounds settings).map Stage.sort) = [] :=
    Stage.named_eq_nil (by simp [Stage.name_sort])
  rw [Query.named_stages (by decide), hsorts, List.nil_append, Stage.named_eq_self]
  rw [Stage.name_limit]
  split <;> simp

end Named

end EntityFlux
