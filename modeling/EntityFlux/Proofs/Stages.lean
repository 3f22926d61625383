import EntityFlux.Proofs.Bindings
import EntityFlux.Proofs.Offences
import Mathlib

/-!
# Stages

The text of a lowered query, written down without a lowering: every clause and every operator stands
behind a number of parameters that can be counted in the query itself (`offsets`), its fragment is
the one it has behind that many parameters, and the stages follow in their fixed order. A query that
is lowered has this text, and all its fragments compile where they stand (`Query.Lowered`).
-/

namespace EntityFlux

open Flux Attempt

section Offsets

variable {α : Type} (weight : α → Nat) (start : Nat)

/-- Every item with what the items ahead of it weigh together, counted from `start`. -/
def offsets (items : List α) : List (Nat × α) :=
  items.mapIdx fun i item => (start + ((items.take i).map weight).sum, item)

@[simp] theorem offsets_nil : offsets weight start [] = [] := rfl

@[simp] theorem offsets_cons (item : α) (items : List α) :
    offsets weight start (item :: items)
      = (start, item) :: offsets weight (start + weight item) items := by
  simp [offsets, List.mapIdx_cons, Nat.add_assoc]

theorem offsets_append (items more : List α) :
    offsets weight start (items ++ more)
      = offsets weight start items ++ offsets weight (start + (items.map weight).sum) more := by
  induction items generalizing start with
  | nil => simp
  | cons item items ih => simp [ih, Nat.add_assoc]

theorem map_snd_offsets (items : List α) : (offsets weight start items).map (·.2) = items := by
  induction items generalizing start with
  | nil => rfl
  | cons item items ih => rw [offsets_cons, List.map_cons, ih]

theorem mem_of_mem_offsets {items : List α} {offset : Nat} {item : α}
    (h : (offset, item) ∈ offsets weight start items) : item ∈ items := by
  obtain ⟨i, hi, heq⟩ := List.mem_mapIdx.1 h
  simp only [Prod.mk.injEq] at heq
  rw [← heq.2]
  exact List.getElem_mem hi

end Offsets

/-- The fragment of an expression behind `bound` parameters. -/
def Expr.fragment (entity : Entity) (bound : Nat) (e : Expr) : String :=
  (e.compile entity bound).result.toOption.getD ""

/-- How many parameters the source takes. -/
def Settings.sourceWidth (settings : Settings) : Nat :=
  2 + if settings.rangeStop.isSome then 1 else 0

/-- How many parameters a clause takes: one for every constant, two for every sort key. -/
def Clause.width : Clause → Nat
  | .filter predicate => predicate.constants.length
  | .order keys => 2 * keys.length

def ResultOperator.width (operator : ResultOperator) : Nat := operator.literals.length

def Clause.filterTexts (entity : Entity) (bound : Nat) : Clause → List String
  | .filter predicate => [predicate.fragment entity bound]
  | .order _ => []

/-- How many parameters stand ahead of each sort key. -/
def Clause.sortBounds (bound : Nat) : Clause → List Nat
  | .filter _ => []
  | .order keys => (offsets (fun _ => 2) bound keys).map (·.1)

def ResultOperator.limits (entity : Entity) (bound : Nat) : ResultOperator → List String
  | .take n => [n.fragment entity bound]
  | _ => []

def ResultOperator.skips (entity : Entity) (bound : Nat) : ResultOperator → List String
  | .skip n => [n.fragment entity bound]
  | _ => []

/-- The count of a take, with the number of parameters ahead of it. -/
def ResultOperator.takes (bound : Nat) : ResultOperator → List (Nat × Expr)
  | .take n => [(bound, n)]
  | _ => []

def ResultOperator.skipped (bound : Nat) : ResultOperator → List (Nat × Expr)
  | .skip n => [(bound, n)]
  | _ => []

def ResultOperator.counts : ResultOperator → Bool
  | .count => true
  | _ => false

/-! How the stages are written. -/

namespace Stage

def range (stop : Bool) : String :=
  if stop then "range(start: p2, stop: p3)" else "range(start: p2)"

def drop (columns : List String) : List String :=
  if columns = [] then []
  else ["drop(columns: [" ++ ", ".intercalate (columns.map Text.quote) ++ "])"]

def pivot : String := "pivot(rowKey:[\"_time\"], columnKey: [\"_field\"], valueColumn: \"_value\")"

/-- One stage for all filters, each in parentheses. -/
def filter : List String → List String
  | [] => []
  | texts =>
    ["filter(fn: (r) => " ++ " and ".intercalate (texts.map fun text => "(" ++ text ++ ")") ++ ")"]

/-- The sort whose column and direction are the next two parameters behind `bound`. -/
def sort (bound : Nat) : String :=
  "sort(columns: [" ++ parameterName (bound + 1) ++ "], desc: " ++ parameterName (bound + 2) ++ ")"

/-- A limit, if there is one, with an offset, if there is one. -/
def limit : Option String → Option String → List String
  | none, _ => []
  | some n, none => ["limit(n: " ++ n ++ ")"]
  | some n, some offset => ["limit(n: " ++ n ++ ", offset: " ++ offset ++ ")"]

def count : List String :=
  ["stateCount(fn: (r) => true, column: \"linq_result_column\")",
   "last(column: \"linq_result_column\")",
   "keep(columns: [\"linq_result_column\"])"]

end Stage

namespace Query

variable (settings : Settings) (entity : Entity) (query : Query)

/-- The clauses, each with the number of parameters ahead of it. -/
def clausesAt : List (Nat × Clause) := offsets Clause.width settings.sourceWidth query.body

/-- The operators, each with the number of parameters ahead of it. -/
def operatorsAt : List (Nat × ResultOperator) :=
  offsets ResultOperator.width (settings.sourceWidth + (query.body.map Clause.width).sum)
    query.operators

/-- One text for each filter. -/
def filterTexts : List String :=
  (query.clausesAt settings).flatMap fun (bound, clause) => clause.filterTexts entity bound

def sortBounds : List Nat :=
  (query.clausesAt settings).flatMap fun (bound, clause) => clause.sortBounds bound

def limits : List String :=
  (query.operatorsAt settings).flatMap fun (bound, operator) => operator.limits entity bound

def skips : List String :=
  (query.operatorsAt settings).flatMap fun (bound, operator) => operator.skips entity bound

def takesAt : List (Nat × Expr) :=
  (query.operatorsAt settings).flatMap fun (bound, operator) => operator.takes bound

def skipsAt : List (Nat × Expr) :=
  (query.operatorsAt settings).flatMap fun (bound, operator) => operator.skipped bound

/-- All stages of the query, from its source to its result. -/
def stages : List String :=
  ["from(bucket: p1)", Stage.range settings.rangeStop.isSome] ++ Stage.drop settings.dropColumns
    ++ [Stage.pivot] ++ Stage.filter (query.filterTexts settings entity)
    ++ (query.sortBounds settings).map Stage.sort
    ++ Stage.limit (query.limits settings entity).getLast? (query.skips settings entity).getLast?
    ++ if query.operators.any (·.counts) then Stage.count else []

end Query

/-- What a lowered query is: its entity is known, its text is its stages, and what it filters by and
limits to compiles where it stands. -/
structure Query.Lowered (settings : Settings) (registry : Registry) (query : Query)
    (request : Request) (entity : Entity) : Prop where
  found : registry.find? query.entity = some entity
  text : request.query = " |> ".intercalate (query.stages settings entity)
  filters : ∀ {bound predicate}, (bound, .filter predicate) ∈ query.clausesAt settings →
    (predicate.compile entity bound).result = .ok (predicate.fragment entity bound)
  takes : ∀ {bound n}, (bound, n) ∈ query.takesAt settings →
    (n.compile entity bound).result = .ok (n.fragment entity bound)
  skips : ∀ {bound n}, (bound, n) ∈ query.skipsAt settings →
    (n.compile entity bound).result = .ok (n.fragment entity bound)

section Limits

variable {settings : Settings} {query : Query} {entity : Entity} {bound : Nat} {n : Expr}

theorem Query.limits_eq : query.limits settings entity
    = (query.takesAt settings).map fun (bound, n) => n.fragment entity bound := by
  rw [Query.limits, Query.takesAt, List.map_flatMap]
  refine List.flatMap_congr ?_
  rintro ⟨bound, operator⟩ -
  cases operator <;> rfl

theorem Query.skips_eq : query.skips settings entity
    = (query.skipsAt settings).map fun (bound, n) => n.fragment entity bound := by
  rw [Query.skips, Query.skipsAt, List.map_flatMap]
  refine List.flatMap_congr ?_
  rintro ⟨bound, operator⟩ -
  cases operator <;> rfl

theorem Query.mem_takesAt :
    (bound, n) ∈ query.takesAt settings ↔ (bound, .take n) ∈ query.operatorsAt settings := by
  rw [Query.takesAt, List.mem_flatMap]
  constructor
  · rintro ⟨⟨start, operator⟩, ho, hn⟩
    cases operator <;> simp only [ResultOperator.takes, List.mem_singleton, List.not_mem_nil,
      Prod.mk.injEq] at hn
    rwa [hn.1, hn.2]
  · intro ho
    exact ⟨_, ho, List.mem_singleton_self _⟩

theorem Query.mem_skipsAt :
    (bound, n) ∈ query.skipsAt settings ↔ (bound, .skip n) ∈ query.operatorsAt settings := by
  rw [Query.skipsAt, List.mem_flatMap]
  constructor
  · rintro ⟨⟨start, operator⟩, ho, hn⟩
    cases operator <;> simp only [ResultOperator.skipped, List.mem_singleton, List.not_mem_nil,
      Prod.mk.injEq] at hn
    rwa [hn.1, hn.2]
  · intro ho
    exact ⟨_, ho, List.mem_singleton_self _⟩

end Limits

section Fragments

variable {entity : Entity} {bound : Nat} {e : Expr} {text : String}

theorem Expr.fragment_of_ok (h : (e.compile entity bound).result = .ok text) :
    e.fragment entity bound = text := by
  simp [fragment, h, Except.toOption]

/-- An expression without offences has a fragment behind any number of parameters. -/
theorem Expr.compile_eq_fragment (h : e.offences entity = []) (bound : Nat) :
    (e.compile entity bound).result = .ok (e.fragment entity bound) := by
  obtain ⟨text, ht⟩ := (compile_reports entity e bound).ok_iff.2 h
  rw [ht, fragment_of_ok ht]

theorem Expr.ne_empty_of_ok (h : (e.compile entity bound).result = .ok text) : text ≠ "" := by
  cases e with
  | member name =>
    simp only [compile, Except.map] at h
    split at h
    · simp at h
    · simp only [Except.ok.injEq] at h
      rw [← h]
      simp [recordAccess, String.append_eq_empty_iff]
  | constant value =>
    simp only [compile, Except.ok.injEq] at h
    rw [← h]
    simp [parameterName, String.append_eq_empty_iff]
  | binary op left right =>
    rcases hs : op.symbol? with _ | symbol
    · simp [compile_binary_of_none hs] at h
    · rcases hl : (left.compile entity bound).result with refusal | leftText
      · simp [compile_binary_of_error hs hl] at h
      · rw [compile_binary_of_ok hs hl] at h
        simp only [Except.map] at h
        split at h
        · simp at h
        · simp only [Except.ok.injEq] at h
          rw [← h]
          cases symbol <;> simp [Symbol.join, String.append_eq_empty_iff]
  | _ => simp [compile] at h

end Fragments

section Runs

variable {settings : Settings} {entity : Entity} {p p' : Progress}

/-- The names of the column and the direction of a sort behind `bound` parameters. -/
def sortNames (bound : Nat) : String × String :=
  (parameterName (bound + 1), parameterName (bound + 2))

/-- From `p` to `p'` these sort keys were gone through. -/
structure SortKey.Run (keys : List SortKey) (p p' : Progress) : Prop where
  bound : p'.parameters.length = p.parameters.length + 2 * keys.length
  pipeline : p'.pipeline = { p.pipeline with
    sorts := p.pipeline.sorts
      ++ (offsets (fun _ => 2) p.parameters.length keys).map (sortNames ·.1) }

/-- From `p` to `p'` these clauses were gone through: every filter has left its fragment, and every
sort key its names. -/
structure Clause.Run (entity : Entity) (clauses : List Clause) (p p' : Progress) : Prop where
  bound : p'.parameters.length = p.parameters.length + (clauses.map Clause.width).sum
  pipeline : p'.pipeline = { p.pipeline with
    filters := p.pipeline.filters ++ (offsets Clause.width p.parameters.length clauses).flatMap
      fun (bound, clause) => clause.filterTexts entity bound
    sorts := p.pipeline.sorts ++ ((offsets Clause.width p.parameters.length clauses).flatMap
      fun (bound, clause) => clause.sortBounds bound).map sortNames }

/-- From `p` to `p'` these operators were gone through: of the limits and of the offsets the last
has stayed. -/
structure ResultOperator.Run (entity : Entity) (operators : List ResultOperator)
    (p p' : Progress) : Prop where
  pipeline : p'.pipeline = { p.pipeline with
    limitCount := ((offsets ResultOperator.width p.parameters.length operators).flatMap
      fun (bound, operator) => operator.limits entity bound).getLast?.or p.pipeline.limitCount
    limitOffset := ((offsets ResultOperator.width p.parameters.length operators).flatMap
      fun (bound, operator) => operator.skips entity bound).getLast?.or p.pipeline.limitOffset
    resultFunction :=
      if operators.any (·.counts) then .count else p.pipeline.resultFunction }

theorem SortKey.run_of_lower (keys : List SortKey)
    (h : keys.forM (·.lower entity) p = (p', .ok ())) : SortKey.Run keys p p' := by
  refine forM_run (fun p => ⟨by simp, by simp⟩) ?_ keys h
  intro key keys p q p' h ih
  obtain ⟨name, role, -, -, rfl⟩ := SortKey.lower_ok h
  have hb := ih.bound
  simp only [Progress.edit_parameters, Progress.bindAll_parameters, List.length_append,
    List.length_cons, List.length_nil] at hb
  refine ⟨?_, ?_⟩
  · rw [hb, List.length_cons]
    omega
  · rw [ih.pipeline]
    simp [Pipeline.addSort, sortNames]

theorem Clause.run_of_lower {clause : Clause} (h : clause.lower entity p = (p', .ok ())) :
    Clause.Run entity [clause] p p' := by
  cases clause with
  | filter predicate =>
    obtain ⟨fragment, hf, rfl⟩ := Clause.lower_filter_ok h
    refine ⟨?_, ?_⟩
    · simp [Clause.width, Expr.literals_of_ok hf]
    · simp [Clause.filterTexts, Clause.sortBounds, Pipeline.addFilter, Expr.fragment_of_ok hf]
  | order keys =>
    obtain ⟨hb, hp⟩ := SortKey.run_of_lower keys h
    refine ⟨?_, ?_⟩
    · rw [hb]
      simp [Clause.width]
    · rw [hp]
      simp [Clause.filterTexts, Clause.sortBounds]

theorem Clause.run_of_lowerAll (clauses : List Clause)
    (h : clauses.forM (·.lower entity) p = (p', .ok ())) : Clause.Run entity clauses p p' := by
  refine forM_run (fun p => ⟨by simp, by simp⟩) ?_ clauses h
  intro clause clauses p q p' h ih
  obtain ⟨hb, hp⟩ := Clause.run_of_lower h
  refine ⟨?_, ?_⟩
  · rw [ih.bound, hb]
    simp [Nat.add_assoc]
  · rw [ih.pipeline, hp, hb]
    simp

theorem ResultOperator.run_of_lower {operator : ResultOperator}
    (h : operator.lower settings entity p = (p', .ok ())) :
    ResultOperator.Run entity [operator] p p' := by
  obtain ⟨n, limit, rfl, hl, rfl⟩ | ⟨n, offset, rfl, ho, rfl⟩ | ⟨rfl, -, rfl⟩ :=
    ResultOperator.lower_ok h
  · constructor
    simp [ResultOperator.limits, ResultOperator.skips, ResultOperator.counts,
      Expr.fragment_of_ok hl]
  · constructor
    simp [ResultOperator.limits, ResultOperator.skips, ResultOperator.counts,
      Expr.fragment_of_ok ho]
  · constructor
    simp [ResultOperator.limits, ResultOperator.skips, ResultOperator.counts]

theorem ResultOperator.run_of_lowerAll (operators : List ResultOperator)
    (h : operators.forM (·.lower settings entity) p = (p', .ok ())) :
    ResultOperator.Run entity operators p p' := by
  refine forM_run (fun p => ⟨by simp⟩) ?_ operators h
  intro operator operators p q p' h ih
  have hb : q.parameters.length = p.parameters.length + operator.width := by
    rw [ResultOperator.binds_lower settings entity operator h, List.length_append,
      ResultOperator.width]
  have hp := (ResultOperator.run_of_lower h).pipeline
  constructor
  rw [ih.pipeline, hp, hb]
  -- an operator further on overrides this one: `or` takes the later of the two
  cases hc : operator.counts <;> simp [hc, List.getLast?_append, Option.or_assoc]

end Runs

namespace Flux.Pipeline

variable (p : Pipeline)

theorem call?_one (name key value : String) :
    call? name [(key, some value)] = some (name ++ "(" ++ key ++ ": " ++ value ++ ")") := by
  simp [call?, String.append_assoc]

/-- Of two arguments the second may be missing. -/
theorem call?_two_none (name key key' value : String) :
    call? name [(key, some value), (key', none)]
      = some (name ++ "(" ++ key ++ ": " ++ value ++ ")") := by
  simp [call?, String.append_assoc]

theorem call?_two (name key key' value value' : String) :
    call? name [(key, some value), (key', some value')]
      = some (name ++ "(" ++ key ++ ": " ++ value ++ (", " ++ key' ++ ": ") ++ value' ++ ")") := by
  simp [call?, String.append_assoc]

theorem drop?_toList : p.drop?.toList = Stage.drop p.dropColumns := by
  unfold drop? Stage.drop
  split
  · rfl
  · have hl : "drop" ++ "(" ++ "columns" ++ ": " ++ "[" = "drop(columns: [" := by decide
    have hr : "]" ++ ")" = "])" := by decide
    rw [call?_one, listText, ← hl, ← hr]
    simp only [String.append_assoc, Option.toList_some]

theorem filter?_toList : p.filter?.toList = Stage.filter (p.filters.filter (· ≠ "")) := by
  unfold filter?
  cases p.filters.filter (· ≠ "") with
  | nil => rfl
  | cons text texts => rfl

theorem sort?_eq (sort : String × String) :
    sort? sort = some ("sort(columns: [" ++ sort.1 ++ "], desc: " ++ sort.2 ++ ")") := by
  have hl : "sort" ++ "(" ++ "columns" ++ ": " ++ "[" = "sort(columns: [" := by decide
  have hm : "]" ++ (", " ++ "desc" ++ ": ") = "], desc: " := by decide
  unfold sort?
  rw [call?_two, listText, String.intercalate_singleton, ← hl, ← hm]
  simp only [String.append_assoc]

theorem limit?_toList : p.limit?.toList = Stage.limit p.limitCount p.limitOffset := by
  have hl : "limit" ++ "(" ++ "n" ++ ": " = "limit(n: " := by decide
  have hm : ", " ++ "offset" ++ ": " = ", offset: " := by decide
  unfold limit?
  rcases p.limitCount with _ | n
  · rfl
  · rcases p.limitOffset with _ | offset
    · simp only [call?_two_none, hl]
      rfl
    · simp only [call?_two, hl, hm]
      rfl

end Flux.Pipeline

section Text

variable {settings : Settings} {registry : Registry} {bucket : String} {query : Query}
  {entity : Entity} {request : Request}

/-- The pipeline of a query, written down without a lowering. -/
def Query.pipeline (settings : Settings) (entity : Entity) (query : Query) : Pipeline :=
  { sourcePipeline settings with
    filters := query.filterTexts settings entity
    sorts := (query.sortBounds settings).map sortNames
    limitCount := (query.limits settings entity).getLast?
    limitOffset := (query.skips settings entity).getLast?
    resultFunction := if query.operators.any (·.counts) then .count else .none }

theorem length_sourceLiterals (settings : Settings) (bucket : String) :
    (sourceLiterals settings bucket).length = settings.sourceWidth := by
  rcases hs : settings.rangeStop with _ | stop
  · simp [sourceLiterals, Settings.sourceWidth, hs]
  · simp [sourceLiterals, Settings.sourceWidth, hs]

theorem Query.pipeline_of_visit {p : Progress}
    (h : query.visit settings registry bucket {} = (p, .ok ())) :
    ∃ entity, registry.find? query.entity = some entity
      ∧ p.pipeline = query.pipeline settings entity := by
  obtain ⟨entity, p₀, p₁, he, hs, hp, h₁, h₂⟩ := Query.visit_ok h
  refine ⟨entity, he, ?_⟩
  have hw : p₀.parameters.length = settings.sourceWidth := by rw [hs, length_sourceLiterals]
  obtain ⟨hb, hc⟩ := Clause.run_of_lowerAll query.body h₁
  obtain ⟨ho⟩ := ResultOperator.run_of_lowerAll query.operators h₂
  rw [ho, hc, hb, hw, hp]
  simp [sourcePipeline, Query.pipeline, Query.filterTexts, Query.sortBounds, Query.limits,
    Query.skips, Query.clausesAt, Query.operatorsAt]

theorem Query.pipeline_of_lower (h : (query.lower settings registry bucket).2 = .ok request) :
    ∃ entity, registry.find? query.entity = some entity
      ∧ request.query = (query.pipeline settings entity).text := by
  obtain ⟨p, hp, rfl⟩ := Query.visit_of_lower h
  obtain ⟨entity, he, hpipeline⟩ := Query.pipeline_of_visit hp
  exact ⟨entity, he, congrArg Pipeline.text hpipeline⟩

theorem Query.source_pipeline :
    (query.pipeline settings entity).source?.toList = ["from(bucket: p1)"] := by
  simp only [Pipeline.source?, Query.pipeline, sourcePipeline, Pipeline.call?_one,
    Option.toList_some]
  decide

theorem Query.range_pipeline :
    (query.pipeline settings entity).range?.toList = [Stage.range settings.rangeStop.isSome] := by
  simp only [Pipeline.range?, Query.pipeline, sourcePipeline]
  rcases settings.rangeStop with _ | stop
  · simp only [Option.map_none, Pipeline.call?_two_none, Option.toList_some]
    decide
  · simp only [Option.map_some, Pipeline.call?_two, Option.toList_some, Option.isSome_some]
    decide

theorem Query.sorts_pipeline :
    (query.pipeline settings entity).sorts.filterMap Pipeline.sort?
      = (query.sortBounds settings).map Stage.sort := by
  have hs : Pipeline.sort? ∘ sortNames = some ∘ Stage.sort :=
    funext fun bound => Pipeline.sort?_eq (sortNames bound)
  simp only [Query.pipeline, List.filterMap_map, hs, List.filterMap_eq_map]

theorem Query.result_pipeline :
    (query.pipeline settings entity).resultStages
      = if query.operators.any (·.counts) then Stage.count else [] := by
  simp only [Pipeline.resultStages, Query.pipeline]
  cases query.operators.any (·.counts)
  · rfl
  · decide

theorem Query.stages_pipeline (h : ∀ text ∈ query.filterTexts settings entity, text ≠ "") :
    (query.pipeline settings entity).stages = query.stages settings entity := by
  have hf : (query.pipeline settings entity).filters.filter (· ≠ "")
      = query.filterTexts settings entity := by
    refine List.filter_eq_self.2 fun text ht => ?_
    simpa using h text ht
  unfold Pipeline.stages
  rw [Query.source_pipeline, Query.range_pipeline, Query.sorts_pipeline, Query.result_pipeline,
    Pipeline.drop?_toList, Pipeline.filter?_toList, hf, Pipeline.limit?_toList]
  rfl

theorem Query.Clean.filterTexts_ne_empty (h : query.Clean settings entity) :
    ∀ text ∈ query.filterTexts settings entity, text ≠ "" := by
  intro text ht
  obtain ⟨⟨bound, clause⟩, hc, ht⟩ := List.mem_flatMap.1 ht
  cases clause with
  | filter predicate =>
    -- a fragment is never empty, so the filter stage drops none
    obtain rfl := List.mem_singleton.1 ht
    have hp := h.clauses _ (mem_of_mem_offsets _ _ hc)
    exact Expr.ne_empty_of_ok (Expr.compile_eq_fragment hp bound)
  | order keys => simp [Clause.filterTexts] at ht

theorem Query.lowered_of_lower (h : (query.lower settings registry bucket).2 = .ok request) :
    ∃ entity, query.Lowered settings registry request entity := by
  obtain ⟨entity, he, ht⟩ := Query.pipeline_of_lower h
  have hclean := Query.Clean.of_lower he h
  refine ⟨entity, he, ?_, fun hfilter => ?_, fun htake => ?_, fun hskip => ?_⟩
  · rw [ht, Pipeline.text, Query.stages_pipeline hclean.filterTexts_ne_empty]
  · exact Expr.compile_eq_fragment (hclean.clauses _ (mem_of_mem_offsets _ _ hfilter)) _
  · have hoperator := mem_of_mem_offsets _ _ (Query.mem_takesAt.1 htake)
    exact Expr.compile_eq_fragment (hclean.operators _ hoperator) _
  · have hoperator := mem_of_mem_offsets _ _ (Query.mem_skipsAt.1 hskip)
    exact Expr.compile_eq_fragment (hclean.operators _ hoperator) _

/-- The text of a lowered query is its stages one after the other, and every fragment in them is
what its expression compiles to. -/
theorem Query.text_eq_stages (h : (query.lower settings registry bucket).2 = .ok request) :
    ∃ entity, registry.find? query.entity = some entity
      ∧ request.query = " |> ".intercalate (query.stages settings entity)
      ∧ (∀ bound predicate, (bound, .filter predicate) ∈ query.clausesAt settings →
        (predicate.compile entity bound).result = .ok (predicate.fragment entity bound))
      ∧ ∀ bound n, (bound, .take n) ∈ query.operatorsAt settings
          ∨ (bound, .skip n) ∈ query.operatorsAt settings →
        (n.compile entity bound).result = .ok (n.fragment entity bound) := by
  obtain ⟨entity, hl⟩ := Query.lowered_of_lower h
  refine ⟨entity, hl.found, hl.text, fun _ _ => hl.filters, ?_⟩
  rintro bound n (htake | hskip)
  · exact hl.takes (Query.mem_takesAt.2 htake)
  · exact hl.skips (Query.mem_skipsAt.2 hskip)

end Text

theorem Query.text_eq_stages_sample :
    ∃ request, (sampleQuery.lower sampleSettings sampleRegistry "b").2 = .ok request
      ∧ request.query = " |> ".intercalate
        ["from(bucket: p1)", "range(start: p2, stop: p3)", "drop(columns: [\"_start\"])",
         "pivot(rowKey:[\"_time\"], columnKey: [\"_field\"], valueColumn: \"_value\")",
         "filter(fn: (r) => ((r[\"id\"] == p4) or (p5 < r[\"data\"])) and (r[\"id\"] != p10))",
         "sort(columns: [p6], desc: p7)", "sort(columns: [p8], desc: p9)",
         "limit(n: p13, offset: p12)",
         "stateCount(fn: (r) => true, column: \"linq_result_column\")",
         "last(column: \"linq_result_column\")", "keep(columns: [\"linq_result_column\"])"] := by
  obtain ⟨request, hr⟩ := sampleQuery_lower
  obtain ⟨entity, he, ht, -⟩ := Query.text_eq_stages hr
  obtain rfl := Option.some.inj he
  refine ⟨request, hr, ht.trans (congrArg _ ?_)⟩
  decide +kernel

end EntityFlux
