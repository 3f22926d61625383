import EntityFlux.Proofs.Attempt
import EntityFlux.Proofs.Nodes

/-!
# Offences

Everything in a query that has no Flux form, in the order in which the lowering comes upon it. The
list is flat and says nothing of the lowering itself; a query is lowered exactly if its list is
empty, and refused for the first entry otherwise.
-/

namespace EntityFlux

open Flux

/-- A sort key has to be a member, and mapped. -/
def SortKey.offences (entity : Entity) (key : SortKey) : List Refusal :=
  match key.expr with
  | .member name => ((Expr.member name).offence? entity).toList
  | e => [.unsupportedExpression e.kind]

def Clause.offences (entity : Entity) : Clause → List Refusal
  | .filter predicate => predicate.offences entity
  | .order keys => keys.flatMap (SortKey.offences entity)

def Projection.offences (entity : Entity) : Projection → List Refusal
  | .entity => []
  | .members names => names.flatMap fun name => ((Expr.member name).offence? entity).toList

/-- An operator is refused by its name unless it limits, skips, or counts where counting is on. -/
def ResultOperator.offences (settings : Settings) (entity : Entity) :
    ResultOperator → List Refusal
  | .take n => n.offences entity
  | .skip n => n.offences entity
  | .count =>
    if settings.countResult then [] else [.unsupportedOperator (ResultOperator.name .count)]
  | operator => [.unsupportedOperator operator.name]

/-- Nothing can be said about the members of an entity that is not known. -/
def Query.offences (settings : Settings) (registry : Registry) (query : Query) : List Refusal :=
  match registry.find? query.entity with
  | none => [.unknownEntity query.entity]
  | some entity =>
    query.body.flatMap (Clause.offences entity) ++ (query.projection.offences entity
      ++ query.operators.flatMap (ResultOperator.offences settings entity))

namespace Attempt

variable {α β : Type} {a : Attempt α} {f : α → Attempt β} {first second : List Refusal}

/-- From wherever the attempt starts, these are its offences. -/
def Offends (a : Attempt α) (offences : List Refusal) : Prop := ∀ p, Reports offences (a p).2

theorem Offends.bind (h : a.Offends first) (k : ∀ x, (f x).Offends second) :
    (a >>= f).Offends (first ++ second) := by
  intro p
  refine (h p).append (fun x hx => ?_) (fun refusal hr => ?_)
  · have hp : a p = ((a p).1, .ok x) := Prod.ext rfl hx
    rw [bind_apply, hp]
    exact k x _
  · have hp : a p = ((a p).1, .error refusal) := Prod.ext rfl hr
    rw [bind_apply, hp]

/-- What cannot be refused may stand ahead. -/
theorem Offends.ahead (h : a.Offends []) (k : ∀ x, (f x).Offends second) :
    (a >>= f).Offends second :=
  h.bind k

/-- What cannot be refused may follow. -/
theorem Offends.followed (h : a.Offends first) (k : ∀ x, (f x).Offends []) :
    (a >>= f).Offends first := by
  have hk := h.bind k
  rwa [List.append_nil] at hk

theorem offends_pure (x : α) : (pure x : Attempt α).Offends [] := fun _ => ⟨x, rfl⟩

theorem offends_update (g : Progress → Progress) : (update g).Offends [] := fun _ => ⟨(), rfl⟩

theorem offends_register (value : Literal) : (register value).Offends [] := fun _ => ⟨_, rfl⟩

theorem offends_refuse (refusal : Refusal) : (refuse refusal : Attempt α).Offends [refusal] :=
  fun _ => rfl

theorem offends_resolve (entity : Entity) (name : String) :
    (ofExcept (entity.resolve name)).Offends ((Expr.member name).offence? entity).toList :=
  fun _ => Expr.reports_resolve entity name

theorem offends_compile (entity : Entity) (e : Expr) :
    (compile entity e).Offends (e.offences entity) :=
  fun p => Expr.compile_reports entity e p.parameters.length

/-- A list of steps has the offences of each step, in order. -/
theorem offends_forM {ι : Type} {step : ι → Attempt Unit} {offences : ι → List Refusal}
    (h : ∀ i, (step i).Offends (offences i)) :
    ∀ items : List ι, (items.forM step).Offends (items.flatMap offences)
  | [] => offends_pure ()
  | i :: items => (h i).bind fun _ => offends_forM h items

end Attempt

open Attempt

section Steps

variable (settings : Settings) (entity : Entity)

theorem offends_lowerSource (bucket : String) : (lowerSource settings bucket).Offends [] := by
  refine (offends_register _).ahead fun _ => (offends_register _).ahead fun _ =>
    (offends_update _).ahead fun _ => ?_
  rcases settings.rangeStop with _ | stop
  · exact (offends_pure ()).ahead fun _ => offends_update _
  · exact (offends_register _).ahead fun _ => (offends_update _).ahead fun _ => offends_update _

theorem SortKey.offends_lower (key : SortKey) :
    (key.lower entity).Offends (key.offences entity) := by
  obtain ⟨e, direction⟩ := key
  cases e with
  | member name =>
    exact (offends_resolve entity name).followed fun _ => (offends_register _).ahead fun _ =>
      (offends_register _).ahead fun _ => offends_update _
  | _ => exact offends_refuse _

theorem Clause.offends_lower (clause : Clause) :
    (clause.lower entity).Offends (clause.offences entity) := by
  cases clause with
  | filter predicate =>
    exact (offends_compile entity predicate).followed fun _ =>
      (offends_update _).ahead fun _ => offends_update _
  | order keys => exact offends_forM (SortKey.offends_lower entity) keys

theorem Projection.offends_lower (projection : Projection) :
    (projection.lower entity).Offends (projection.offences entity) := by
  cases projection with
  | entity => exact offends_pure ()
  | members names =>
    exact offends_forM (fun name => (offends_resolve entity name).followed fun _ =>
      offends_pure ()) names

theorem ResultOperator.offends_lower (operator : ResultOperator) :
    (operator.lower settings entity).Offends (operator.offences settings entity) := by
  cases operator with
  | take n => exact (offends_compile entity n).followed fun _ => offends_update _
  | skip n => exact (offends_compile entity n).followed fun _ => offends_update _
  | count =>
    simp only [ResultOperator.lower, ResultOperator.offences]
    split
    · exact offends_update _
    · exact offends_refuse _
  | _ => exact offends_refuse _

end Steps

theorem Query.offends_attempt (settings : Settings) (registry : Registry) (bucket : String)
    (query : Query) :
    (query.attempt settings registry bucket).Offends (query.offences settings registry) := by
  refine (offends_lowerSource settings bucket).ahead fun _ => ?_
  unfold findEntity Query.offences
  rcases registry.find? query.entity with _ | entity
  · simp only [refuse_bind]
    exact offends_refuse _
  · simp only [pure_bind]
    exact (offends_forM (Clause.offends_lower entity) query.body).bind fun _ =>
      (Projection.offends_lower entity query.projection).bind fun _ =>
        (offends_forM (ResultOperator.offends_lower settings entity) query.operators).followed
          fun _ _ => ⟨_, rfl⟩

/-- No clause and no operator offends. -/
structure Query.Clean (settings : Settings) (entity : Entity) (query : Query) : Prop where
  clauses : ∀ clause ∈ query.body, clause.offences entity = []
  operators : ∀ operator ∈ query.operators, operator.offences settings entity = []

section Lowering

variable {settings : Settings} {registry : Registry} {bucket : String} {query : Query}
  {request : Request} {entity : Entity}

theorem Query.lower_of_offences (h : query.offences settings registry = []) (bucket : String) :
    ∃ request, (query.lower settings registry bucket).2 = .ok request :=
  (query.offends_attempt settings registry bucket {}).ok_iff.2 h

theorem Query.Clean.of_lower (he : registry.find? query.entity = some entity)
    (h : (query.lower settings registry bucket).2 = .ok request) : query.Clean settings entity := by
  have hoffences := (query.offends_attempt settings registry bucket {}).ok_iff.1 ⟨request, h⟩
  simp only [Query.offences, he, List.append_eq_nil_iff, List.flatMap_eq_nil_iff] at hoffences
  exact ⟨hoffences.1, hoffences.2.2⟩

end Lowering

/-- A query is refused for the first of its offences, and lowered if it has none. -/
theorem Query.lower_decided_by_offences (settings : Settings) (registry : Registry)
    (bucket : String) (query : Query) :
    (∀ refusal, (query.lower settings registry bucket).2 = .error refusal
        ↔ (query.offences settings registry).head? = some refusal)
      ∧ ((∃ request, (query.lower settings registry bucket).2 = .ok request)
        ↔ query.offences settings registry = []) := by
  have h := query.offends_attempt settings registry bucket {}
  exact ⟨h.error_iff, h.ok_iff⟩

example :
    Query.offences {} [("Sensor", { name := "Sensor", members := [("Id", .tag "id")] })]
      { entity := "Sensor"
        body :=
          [.filter (.binary .andAlso (.not (.member "Value"))
            (.binary .add (.member "Id") (.constant (.integer 1))))]
        operators := [.take (.negate (.constant (.integer 1))), .first] }
      = [.unsupportedExpression "Not", .unmappedMember "Sensor" "Value",
        .unsupportedExpression "Add", .unsupportedExpression "Negate",
        .unsupportedOperator "FirstResultOperator"] := by decide

end EntityFlux
