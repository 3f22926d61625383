import EntityFlux.Proofs.Mentions

/-!
# The scope of the record

The record `r` has a meaning only inside of a function that binds it. A filter has such a function,
a limit has none, and yet the count of a take or a skip is compiled like a predicate: the record is
in scope throughout a text exactly if the counts that limit it have no members. In all other stages
it always is (`Query.scoped_stages_iff`).
-/

namespace EntityFlux

open Flux

/-- A stage with a function of the record. -/
def BindsRecord (stage : String) : Prop := "(r) =>".toList.map .code <:+: lex stage

instance (stage : String) : Decidable (BindsRecord stage) :=
  inferInstanceAs (Decidable (_ <:+: _))

/-- The stages whose arguments are values. -/
def valueStages : List String := ["from", "range", "sort", "limit"]

/-- A stage that mentions the record binds it, and is none of those whose arguments are values. -/
structure RecordScoped (stage : String) : Prop where
  bound : mentions isRecord stage ≠ [] → BindsRecord stage
  values : Stage.name stage ∈ valueStages → mentions isRecord stage = []

instance (stage : String) : Decidable (RecordScoped stage) :=
  decidable_of_iff ((mentions isRecord stage ≠ [] → BindsRecord stage)
      ∧ (Stage.name stage ∈ valueStages → mentions isRecord stage = []))
    ⟨fun h => ⟨h.1, h.2⟩, fun h => ⟨h.bound, h.values⟩⟩

section Stages

variable {stage : String} {settings : Settings} {registry : Registry} {bucket : String}
  {query : Query} {request : Request} {entity : Entity}

theorem RecordScoped.of_unmentioned (h : mentions isRecord stage = []) : RecordScoped stage :=
  ⟨fun hne => absurd h hne, fun _ => h⟩

theorem Stage.scoped_drop (columns : List String) :
    ∀ stage ∈ Stage.drop columns, RecordScoped stage := by
  have hdrop : (Stage.drop columns).flatMap (mentions isRecord) = [] :=
    Stage.mentions_drop (by decide) columns
  intro stage hs
  exact .of_unmentioned (List.flatMap_eq_nil_iff.1 hdrop stage hs)

theorem Stage.scoped_filter (texts : List String) :
    ∀ stage ∈ Stage.filter texts, RecordScoped stage := by
  intro stage hs
  have hname : Stage.name stage = "filter" := by
    have hmem := List.mem_map_of_mem (f := Stage.name) hs
    rw [Stage.name_filter] at hmem
    split at hmem
    · exact List.mem_singleton.1 hmem
    · simp at hmem
  have hbinds : BindsRecord stage := by
    cases texts with
    | nil => simp [Stage.filter] at hs
    | cons text texts =>
      obtain rfl := List.mem_singleton.1 hs
      have hlead : BindsRecord "filter(fn: (r) => " := by decide
      unfold BindsRecord at hlead ⊢
      rw [String.append_assoc, lex_append (by decide)]
      exact hlead.trans (List.prefix_append _ _).isInfix
  refine ⟨fun _ => hbinds, fun hvalues => ?_⟩
  rw [hname] at hvalues
  exact absurd hvalues (by decide)

theorem Stage.scoped_sort (bound : Nat) : RecordScoped (Stage.sort bound) := by
  refine .of_unmentioned ?_
  rw [Stage.mentions_sort (by decide)]
  simp [isRecord_parameterName]

/-- A limit is scoped only if it does not mention the record. -/
theorem Stage.scoped_limit_iff {n offset : Option String} :
    (∀ stage ∈ Stage.limit n offset, RecordScoped stage)
      ↔ (Stage.limit n offset).flatMap (mentions isRecord) = [] := by
  rw [List.flatMap_eq_nil_iff]
  -- a limit is among the stages whose arguments are values, so only silence keeps it in scope
  refine forall₂_congr fun stage hs => ⟨fun h => h.values ?_, .of_unmentioned⟩
  have hmem := List.mem_map_of_mem (f := Stage.name) hs
  rw [Stage.name_limit] at hmem
  split at hmem
  · rw [List.mem_singleton.1 hmem]
    decide
  · simp at hmem

theorem Query.Lowered.scoped_limit_iff (h : query.Lowered settings registry request entity)
    (hplain : registry.IsPlain) :
    (∀ stage ∈ Stage.limit (query.limits settings entity).getLast?
        (query.skips settings entity).getLast?, RecordScoped stage)
      ↔ ∀ count ∈ query.applied settings, count.2.members = [] := by
  rw [Stage.scoped_limit_iff, h.mentions_limit hplain (by decide), List.flatMap_eq_nil_iff]
  refine forall₂_congr ?_
  rintro ⟨bound, n⟩ hn
  have hrecord := Expr.mentions_record (h.compile_of_mem_applied hn) (hplain.columns h.found n)
  exact (Eq.congr_left hrecord).trans List.map_eq_nil_iff

theorem Query.scoped_stages_iff :
    (∀ stage ∈ query.stages settings entity, RecordScoped stage)
      ↔ ∀ stage ∈ Stage.limit (query.limits settings entity).getLast?
        (query.skips settings entity).getLast?, RecordScoped stage := by
  have hsource : RecordScoped "from(bucket: p1)" := by decide
  have hrange : ∀ stop, RecordScoped (Stage.range stop) := by decide
  have hpivot : RecordScoped Stage.pivot := by decide +kernel
  have hcount : ∀ stage ∈ Stage.count, RecordScoped stage := by decide +kernel
  have hresult : ∀ stage ∈ if query.operators.any (·.counts) then Stage.count else [],
      RecordScoped stage := by
    intro stage hs
    split at hs
    · exact hcount stage hs
    · simp at hs
  have hsorts : ∀ stage ∈ (query.sortBounds settings).map Stage.sort, RecordScoped stage := by
    intro stage hs
    obtain ⟨bound, -, rfl⟩ := List.mem_map.1 hs
    exact Stage.scoped_sort bound
  simp only [Query.stages, List.forall_mem_append, List.forall_mem_cons, List.not_mem_nil,
    false_implies, implies_true, and_true, hsource, hrange, hpivot, true_and]
  exact ⟨fun h => h.1.2, fun h =>
    ⟨⟨⟨⟨Stage.scoped_drop _, Stage.scoped_filter _⟩, hsorts⟩, h⟩, hresult⟩⟩

/-- In the text of a lowered query the record is in scope wherever it is mentioned, and no value
mentions it, exactly if there is no member in the count of the last take and, where something is
taken, of the last skip. -/
theorem Query.record_scoped_iff (hplain : registry.IsPlain)
    (h : (query.lower settings registry bucket).2 = .ok request) :
    (∀ stage ∈ cutText request.query, RecordScoped stage)
      ↔ ∀ count ∈ query.applied settings, count.2.members = [] := by
  obtain ⟨entity, hl⟩ := Query.lowered_of_lower h
  rw [hl.cut_query hplain, Query.scoped_stages_iff, hl.scoped_limit_iff hplain]

end Stages

theorem Query.record_scoped_iff_sample :
    sampleRegistry.IsPlain
      ∧ ∃ request, (sampleQuery.lower sampleSettings sampleRegistry "b").2 = .ok request
        ∧ ∀ stage ∈ cutText request.query, RecordScoped stage := by
  have hplain : sampleRegistry.IsPlain := by decide
  obtain ⟨request, hr⟩ := sampleQuery_lower
  refine ⟨hplain, request, hr, (Query.record_scoped_iff hplain hr).2 ?_⟩
  decide

/-- As many records as a member says: the limit mentions the record and does not bind it. -/
theorem Query.limit_mentions_record :
    ∃ request, (Query.lower {} [("S", { name := "S", members := [("M", .field "m")] })] "b"
        { entity := "S", operators := [.take (.member "M")] }).2 = .ok request
      ∧ Registry.IsPlain [("S", { name := "S", members := [("M", .field "m")] })]
      ∧ "limit(n: r[\"m\"])" ∈ cutText request.query
      ∧ Stage.name "limit(n: r[\"m\"])" = "limit"
      ∧ mentions isRecord "limit(n: r[\"m\"])" = ["r"]
      ∧ ¬ BindsRecord "limit(n: r[\"m\"])" := by
  have hplain : Registry.IsPlain [("S", { name := "S", members := [("M", .field "m")] })] := by
    decide
  obtain ⟨request, hr⟩ : ∃ request, (Query.lower {}
      [("S", { name := "S", members := [("M", .field "m")] })] "b"
      { entity := "S", operators := [.take (.member "M")] }).2 = .ok request :=
    Query.lower_of_offences rfl "b"
  obtain ⟨entity, hl⟩ := Query.lowered_of_lower hr
  obtain rfl := Option.some.inj hl.found
  refine ⟨request, hr, hplain, ?_⟩
  rw [hl.cut_query hplain]
  decide +kernel

end EntityFlux
