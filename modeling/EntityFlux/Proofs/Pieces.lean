import EntityFlux.Proofs.RecordAccess

/-!
# The pieces of a query

Nothing that goes into a query makes a stage of its own or breaks one in two: with plain columns
every stage is whole (`Query.Lowered.whole_stages`), so cutting the text where a reader sees ` |> `
gives back the stages, in their order and as many as the query calls for.
-/

namespace EntityFlux

open Flux

/-- No column of any entity holds a quote or a backslash. -/
def Registry.IsPlain (registry : Registry) : Prop :=
  ∀ entry ∈ registry, ∀ member ∈ entry.2.members, Flux.IsPlain member.2.column

instance (registry : Registry) : Decidable registry.IsPlain :=
  inferInstanceAs (Decidable (∀ entry ∈ registry, ∀ member ∈ entry.2.members, _))

theorem Registry.IsPlain.columns {registry : Registry} (h : registry.IsPlain) {name : String}
    {entity : Entity} (he : registry.find? name = some entity) (e : Expr) :
    ∀ column ∈ e.columns entity, Flux.IsPlain column := by
  intro column hc
  obtain ⟨member, -, hm⟩ := List.mem_filterMap.1 hc
  obtain ⟨role, hr, rfl⟩ := Option.map_eq_some_iff.1 hm
  exact h _ (Dictionary.mem_of_get? he) _ (Dictionary.mem_of_get? hr)

/-! ## Whole stages -/

section Lowered

variable {settings : Settings} {registry : Registry} {bucket : String} {query : Query}
  {request : Request} {entity : Entity}

theorem whole_quote (text : String) : Whole (Text.quote text) := by
  obtain ⟨hclosed, raw, hlex, -⟩ := lex_quote text
  exact ⟨hclosed, by simp [hlex]⟩

theorem Stage.whole_drop {columns : List String} : ∀ stage ∈ Stage.drop columns, Whole stage := by
  intro stage hs
  unfold Stage.drop at hs
  split at hs
  · simp at hs
  · obtain rfl := List.mem_singleton.1 hs
    have hquotes : ∀ text ∈ columns.map Text.quote, Whole text := by
      intro text ht
      obtain ⟨column, -, rfl⟩ := List.mem_map.1 ht
      exact whole_quote column
    have hlead : Whole "drop(columns: [" := by decide
    exact (hlead.append (whole_intercalate (by decide) hquotes)).append (by decide)

theorem Stage.whole_filter {texts : List String} (h : ∀ text ∈ texts, Whole text) :
    ∀ stage ∈ Stage.filter texts, Whole stage := by
  intro stage hs
  cases texts with
  | nil => simp [Stage.filter] at hs
  | cons first rest =>
    obtain rfl := List.mem_singleton.1 hs
    have hlead : Whole "filter(fn: (r) => " := by decide
    have hopen : Whole "(" := by decide
    refine (hlead.append (whole_intercalate (by decide) fun part hp => ?_)).append (by decide)
    obtain ⟨text, ht, rfl⟩ := List.mem_map.1 hp
    exact (hopen.append (h text ht)).append (by decide)

theorem Stage.whole_sort (bound : Nat) : Whole (Stage.sort bound) := by
  have hlead : Whole "sort(columns: [" := by decide
  have hcolumn := (readsColumns_parameterName (bound + 1)).whole
  have hdirection := (readsColumns_parameterName (bound + 2)).whole
  exact (((hlead.append hcolumn).append (by decide)).append hdirection).append (by decide)

theorem Stage.whole_limit {n offset : Option String} (hn : ∀ text ∈ n, Whole text)
    (ho : ∀ text ∈ offset, Whole text) : ∀ stage ∈ Stage.limit n offset, Whole stage := by
  have hlead : Whole "limit(n: " := by decide
  intro stage hs
  rcases n with _ | n
  · simp [Stage.limit] at hs
  · have hfirst := hlead.append (hn n rfl)
    rcases offset with _ | offset
    · obtain rfl := List.mem_singleton.1 hs
      exact hfirst.append (by decide)
    · obtain rfl := List.mem_singleton.1 hs
      exact ((hfirst.append (by decide)).append (ho offset rfl)).append (by decide)

theorem Expr.whole_fragment {bound : Nat} {e : Expr}
    (hplain : ∀ column ∈ e.columns entity, IsPlain column)
    (h : (e.compile entity bound).result = .ok (e.fragment entity bound)) :
    Whole (e.fragment entity bound) :=
  (Expr.readsColumns_of_plain h hplain).whole

theorem Query.Lowered.whole_filterTexts (h : query.Lowered settings registry request entity)
    (hplain : registry.IsPlain) : ∀ text ∈ query.filterTexts settings entity, Whole text := by
  intro text ht
  obtain ⟨⟨bound, clause⟩, hc, ht⟩ := List.mem_flatMap.1 ht
  cases clause with
  | filter predicate =>
    obtain rfl := List.mem_singleton.1 ht
    exact Expr.whole_fragment (hplain.columns h.found predicate) (h.filters hc)
  | order keys => simp [Clause.filterTexts] at ht

theorem Query.Lowered.whole_limits (h : query.Lowered settings registry request entity)
    (hplain : registry.IsPlain) : ∀ text ∈ query.limits settings entity, Whole text := by
  intro text ht
  rw [Query.limits_eq] at ht
  obtain ⟨⟨bound, n⟩, hn, rfl⟩ := List.mem_map.1 ht
  exact Expr.whole_fragment (hplain.columns h.found n) (h.takes hn)

theorem Query.Lowered.whole_skips (h : query.Lowered settings registry request entity)
    (hplain : registry.IsPlain) : ∀ text ∈ query.skips settings entity, Whole text := by
  intro text ht
  rw [Query.skips_eq] at ht
  obtain ⟨⟨bound, n⟩, hn, rfl⟩ := List.mem_map.1 ht
  exact Expr.whole_fragment (hplain.columns h.found n) (h.skips hn)

theorem Query.Lowered.whole_stages (h : query.Lowered settings registry request entity)
    (hplain : registry.IsPlain) : ∀ stage ∈ query.stages settings entity, Whole stage := by
  have hrange : ∀ stop, Whole (Stage.range stop) := by decide
  have hcount : ∀ stage ∈ Stage.count, Whole stage := by decide +kernel
  intro stage hs
  simp only [Query.stages, List.mem_append, List.mem_cons, List.not_mem_nil, or_false] at hs
  rcases hs with ((((((hs | hs) | hs) | hs) | hs) | hs) | hs) | hs
  · rw [hs]
    decide
  · rw [hs]
    exact hrange _
  · exact Stage.whole_drop stage hs
  · rw [hs]
    decide +kernel
  · exact Stage.whole_filter (h.whole_filterTexts hplain) stage hs
  · obtain ⟨bound, -, rfl⟩ := List.mem_map.1 hs
    exact Stage.whole_sort bound
  · refine Stage.whole_limit (fun text ht => ?_) (fun text ht => ?_) stage hs
    · exact h.whole_limits hplain text (List.mem_of_getLast? ht)
    · exact h.whole_skips hplain text (List.mem_of_getLast? ht)
  · split at hs
    · exact hcount stage hs
    · simp at hs

theorem Query.Lowered.cut_query (h : query.Lowered settings registry request entity)
    (hplain : registry.IsPlain) : cutText request.query = query.stages settings entity := by
  rw [h.text]
  exact cutText_intercalate (by simp [Query.stages]) (h.whole_stages hplain)

end Lowered

/-! ## Names of stages -/

def Stage.name (stage : String) : String := String.ofList (stage.toList.takeWhile (· ≠ '('))

def Clause.isFilter : Clause → Bool
  | .filter _ => true
  | .order _ => false

def Clause.keys : Clause → List SortKey
  | .filter _ => []
  | .order keys => keys

def ResultOperator.isTake : ResultOperator → Bool
  | .take _ => true
  | _ => false

/-- The names of the stages that a query calls for, in order. -/
def Query.stageNames (settings : Settings) (query : Query) : List String :=
  ["from", "range"] ++ (if settings.dropColumns = [] then [] else ["drop"]) ++ ["pivot"]
    ++ (if query.body.any (·.isFilter) then ["filter"] else [])
    ++ List.replicate (query.body.flatMap Clause.keys).length "sort"
    ++ (if query.operators.any (·.isTake) then ["limit"] else [])
    ++ (if query.operators.any (·.counts) then ["stateCount", "last", "keep"] else [])

section Names

variable {settings : Settings} {entity : Entity} {query : Query}

theorem Stage.name_append {a : String} (h : '(' ∈ a.toList) (b : String) :
    Stage.name (a ++ b) = Stage.name a := by
  have hne : (a.toList.takeWhile (· ≠ '(')).length ≠ a.toList.length := by
    intro heq
    have hall := List.takeWhile_eq_self_iff.1 ((List.takeWhile_prefix _).eq_of_length heq)
    simpa using hall _ h
  rw [Stage.name, String.toList_append, List.takeWhile_append, if_neg hne]
  rfl

theorem Stage.name_drop (columns : List String) :
    (Stage.drop columns).map Stage.name = if columns = [] then [] else ["drop"] := by
  unfold Stage.drop
  split
  · rfl
  · rw [List.map_singleton, String.append_assoc, Stage.name_append (by decide)]
    decide

theorem Stage.name_filter (texts : List String) :
    (Stage.filter texts).map Stage.name = if texts ≠ [] then ["filter"] else [] := by
  cases texts with
  | nil => rfl
  | cons text texts =>
    rw [Stage.filter, List.map_singleton, String.append_assoc, Stage.name_append (by decide),
      if_pos (by simp)]
    · decide
    · simp

theorem Stage.name_sort (bound : Nat) : Stage.name (Stage.sort bound) = "sort" := by
  unfold Stage.sort
  simp only [String.append_assoc]
  rw [Stage.name_append (by decide)]
  decide

theorem Stage.name_limit (n offset : Option String) :
    (Stage.limit n offset).map Stage.name = if n.isSome then ["limit"] else [] := by
  have hname : ∀ text, Stage.name ("limit(n: " ++ text) = "limit" := by
    intro text
    rw [Stage.name_append (by decide)]
    decide
  rcases n with _ | n
  · rfl
  · rcases offset with _ | offset
    · simp [Stage.limit, String.append_assoc, hname]
    · simp [Stage.limit, String.append_assoc, hname]

end Names

section Counts

variable {α β γ : Type} {weight : α → Nat} {start : Nat} {f : Nat × α → List β} {items : List α}

theorem flatMap_offsets_ne_nil_iff {present : α → Bool}
    (h : ∀ offset item, f (offset, item) ≠ [] ↔ present item) :
    (offsets weight start items).flatMap f ≠ [] ↔ items.any present := by
  induction items generalizing start with
  | nil => simp
  | cons item items ih =>
    simp only [offsets_cons, List.flatMap_cons, ne_eq, List.append_eq_nil_iff, not_and_or,
      List.any_cons, Bool.or_eq_true]
    exact or_congr (h _ _) ih

theorem length_flatMap_offsets {g : α → List γ}
    (h : ∀ offset item, (f (offset, item)).length = (g item).length) :
    ((offsets weight start items).flatMap f).length = (items.flatMap g).length := by
  induction items generalizing start with
  | nil => rfl
  | cons item items ih => simp [h, ih]

end Counts

section Names

variable {settings : Settings} {registry : Registry} {bucket : String} {query : Query}
  {request : Request} {entity : Entity}

theorem Query.filterTexts_ne_nil_iff :
    query.filterTexts settings entity ≠ [] ↔ query.body.any (·.isFilter) := by
  refine flatMap_offsets_ne_nil_iff fun bound clause => ?_
  cases clause <;> simp [Clause.filterTexts, Clause.isFilter]

theorem Query.limits_ne_nil_iff :
    query.limits settings entity ≠ [] ↔ query.operators.any (·.isTake) := by
  refine flatMap_offsets_ne_nil_iff fun bound operator => ?_
  cases operator <;> simp [ResultOperator.limits, ResultOperator.isTake]

theorem Query.length_sortBounds :
    (query.sortBounds settings).length = (query.body.flatMap Clause.keys).length := by
  refine length_flatMap_offsets fun bound clause => ?_
  cases clause <;> simp [Clause.sortBounds, Clause.keys, offsets]

theorem Query.map_name_stages :
    (query.stages settings entity).map Stage.name = query.stageNames settings := by
  have hsort : Stage.name ∘ Stage.sort = fun _ => "sort" := funext Stage.name_sort
  have hfrom : Stage.name "from(bucket: p1)" = "from" := by decide
  have hrange : ∀ stop, Stage.name (Stage.range stop) = "range" := by decide
  have hpivot : Stage.name Stage.pivot = "pivot" := by decide +kernel
  have hcount : Stage.count.map Stage.name = ["stateCount", "last", "keep"] := by decide +kernel
  unfold Query.stages Query.stageNames
  simp only [List.map_append, List.map_cons, List.map_nil, List.map_map, hfrom, hrange, hpivot,
    hsort, List.map_const', Query.length_sortBounds, Stage.name_drop, Stage.name_filter,
    Query.filterTexts_ne_nil_iff, Stage.name_limit, List.getLast?_isSome, Query.limits_ne_nil_iff,
    apply_ite (List.map Stage.name), hcount]

theorem Query.length_stageNames (settings : Settings) (query : Query) :
    (query.stageNames settings).length
      = 3 + (decide (settings.dropColumns ≠ [])).toNat + (query.body.any (·.isFilter)).toNat
        + (query.body.flatMap Clause.keys).length + (query.operators.any (·.isTake)).toNat
        + 3 * (query.operators.any (·.counts)).toNat := by
  unfold Query.stageNames
  simp only [List.length_append, List.length_replicate, apply_ite List.length]
  cases query.body.any (·.isFilter) <;> cases query.operators.any (·.isTake) <;>
    cases query.operators.any (·.counts) <;> by_cases hd : settings.dropColumns = [] <;>
    simp [hd]

/-- Cut where a reader sees ` |> `, the text of a lowered query falls into its stages: those that it
calls for, in their fixed order, whatever its bucket, its dropped columns and its literals hold. -/
theorem Query.cut_gives_stages (hplain : registry.IsPlain)
    (h : (query.lower settings registry bucket).2 = .ok request) :
    ∃ entity, registry.find? query.entity = some entity
      ∧ cutText request.query = query.stages settings entity
      ∧ (cutText request.query).map Stage.name = query.stageNames settings
      ∧ (cutText request.query).length
        = 3 + (decide (settings.dropColumns ≠ [])).toNat + (query.body.any (·.isFilter)).toNat
          + (query.body.flatMap Clause.keys).length + (query.operators.any (·.isTake)).toNat
          + 3 * (query.operators.any (·.counts)).toNat := by
  obtain ⟨entity, hl⟩ := Query.lowered_of_lower h
  have hcut := hl.cut_query hplain
  have hnames : (query.stages settings entity).map Stage.name = query.stageNames settings :=
    Query.map_name_stages
  refine ⟨entity, hl.found, hcut, ?_, ?_⟩
  · rw [hcut, hnames]
  · rw [hcut, ← Query.length_stageNames, ← hnames, List.length_map]

end Names

theorem Query.cut_gives_stages_sample :
    Registry.IsPlain [("Sensor",
        { name := "Sensor", members := [("Id", .tag "a |> b"), ("Value", .field "data")] })]
      ∧ ∃ request, (sampleQuery.lower
          { sampleSettings with dropColumns := ["a\" |> b(", "\\", "\n |> "] }
          [("Sensor",
            { name := "Sensor", members := [("Id", .tag "a |> b"), ("Value", .field "data")] })]
          "\" |> ").2 = .ok request
        ∧ (cutText request.query).map Stage.name = ["from", "range", "drop", "pivot", "filter",
          "sort", "sort", "limit", "stateCount", "last", "keep"]
        ∧ (cutText request.query).length = 11 := by
  have hplain : Registry.IsPlain [("Sensor",
      { name := "Sensor", members := [("Id", .tag "a |> b"), ("Value", .field "data")] })] := by
    decide
  obtain ⟨request, hr⟩ : ∃ request, (sampleQuery.lower
      { sampleSettings with dropColumns := ["a\" |> b(", "\\", "\n |> "] }
      [("Sensor",
        { name := "Sensor", members := [("Id", .tag "a |> b"), ("Value", .field "data")] })]
      "\" |> ").2 = .ok request := Query.lower_of_offences rfl _
  obtain ⟨entity, -, -, hnames, hlength⟩ := Query.cut_gives_stages hplain hr
  exact ⟨hplain, request, hr, hnames, hlength⟩

end EntityFlux
