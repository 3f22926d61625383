import EntityFlux.Proofs.Bindings

/-!
# The shape of a query

The shape of a query is the query with all its data taken out: constants, directions, and the value
at which the range ends. The text of a request, the names it binds and the reason to refuse depend
on the shape alone. Two lowerings of one shape go through states that differ in the bound values
only, never in their number or in the pipeline (`Progress.Alike`), and no step looks at the values.
-/

namespace EntityFlux

open Flux

mutual

/-- An expression with one and the same constant in place of all of its constants. -/
def Expr.shape : Expr → Expr
  | .member name => .member name
  | .constant _ => .constant (.boolean false)
  | .binary op left right => .binary op left.shape right.shape
  | .not operand => .not operand.shape
  | .negate operand => .negate operand.shape
  | .call method args => .call method (Expr.shapes args)
  | .conditional test ifTrue ifFalse => .conditional test.shape ifTrue.shape ifFalse.shape

def Expr.shapes : List Expr → List Expr
  | [] => []
  | e :: rest => e.shape :: Expr.shapes rest

end

def SortKey.shape (key : SortKey) : SortKey where
  expr := key.expr.shape
  direction := .ascending

def Clause.shape : Clause → Clause
  | .filter predicate => .filter predicate.shape
  | .order keys => .order (keys.map SortKey.shape)

def ResultOperator.shape : ResultOperator → ResultOperator
  | .take n => .take n.shape
  | .skip n => .skip n.shape
  | .all predicate => .all predicate.shape
  | operator => operator

def Query.shape (query : Query) : Query :=
  { query with
    body := query.body.map Clause.shape
    operators := query.operators.map ResultOperator.shape }

/-- Whether the range has an end counts, and not which. -/
def Settings.shape (settings : Settings) : Settings :=
  { settings with rangeStop := settings.rangeStop.map fun _ => 0 }

/-- What can be seen of a request without looking at a value. -/
def Flux.Request.outline (request : Request) : String × List String :=
  (request.query, request.bindings.body.map (·.name))

/-- The same number of parameters, and the same pipeline. -/
structure Progress.Alike (p q : Progress) : Prop where
  bound : p.parameters.length = q.parameters.length
  pipeline : p.pipeline = q.pipeline

namespace Progress.Alike

variable {p q : Progress}

theorem refl (p : Progress) : p.Alike p := ⟨rfl, rfl⟩

theorem bindAll {values values' : List Literal} (h : p.Alike q)
    (hv : values.length = values'.length) : (p.bindAll values).Alike (q.bindAll values') := by
  refine ⟨?_, h.pipeline⟩
  simp [h.bound, hv]

theorem edit (f : Pipeline → Pipeline) (h : p.Alike q) : (p.edit f).Alike (q.edit f) :=
  ⟨h.bound, congrArg f h.pipeline⟩

theorem note (event : Event) (h : p.Alike q) : (p.note event).Alike (q.note event) :=
  ⟨h.bound, h.pipeline⟩

end Progress.Alike

namespace Attempt

variable {α β γ : Type}

/-- From states that are alike the two attempts come to states that are alike, and to results that
look the same through `view`. -/
def Alike (view : α → γ) (a b : Attempt α) : Prop :=
  ∀ p q, p.Alike q → (a p).1.Alike (b q).1 ∧ (a p).2.map view = (b q).2.map view

theorem Alike.bind {a b : Attempt α} {f g : α → Attempt β} {view : β → γ} (h : Alike id a b)
    (k : ∀ x, Alike view (f x) (g x)) : Alike view (a >>= f) (b >>= g) := by
  intro p q hpq
  obtain ⟨hs, hr⟩ := h p q hpq
  rw [bind_apply, bind_apply]
  rcases ha : a p with ⟨p', r⟩
  rcases hb : b q with ⟨q', r'⟩
  rw [ha, hb] at hs hr
  simp only [Except.map_id, id] at hr
  -- the results agree, so both go on with the same value or both stop here
  subst hr
  cases r with
  | error refusal => exact ⟨hs, rfl⟩
  | ok x => exact k x p' q' hs

theorem alike_pure (x : α) : Alike id (pure x) (pure x) := fun _ _ h => ⟨h, rfl⟩

theorem alike_refuse (refusal : Refusal) :
    Alike id (refuse refusal : Attempt α) (refuse refusal) := fun _ _ h => ⟨h, rfl⟩

theorem alike_ofExcept (result : Except Refusal α) : Alike id (ofExcept result) (ofExcept result) :=
  fun _ _ h => ⟨h, rfl⟩

theorem alike_edit (f : Pipeline → Pipeline) :
    Alike id (update (·.edit f)) (update (·.edit f)) := fun _ _ h => ⟨h.edit f, rfl⟩

theorem alike_note (event : Event) :
    Alike id (update (·.note event)) (update (·.note event)) := fun _ _ h => ⟨h.note event, rfl⟩

/-- The name of a parameter tells nothing of its value. -/
theorem alike_register (value value' : Literal) : Alike id (register value) (register value') := by
  intro p q h
  refine ⟨h.bindAll rfl, ?_⟩
  simp only [register, h.bound]

theorem alike_forM {ι κ : Type} {step : ι → Attempt Unit} {step' : κ → Attempt Unit} {g : ι → κ}
    (h : ∀ i, Alike id (step i) (step' (g i))) :
    ∀ items : List ι, Alike id (items.forM step) ((items.map g).forM step')
  | [] => alike_pure ()
  | i :: items => (h i).bind fun _ => alike_forM h items

end Attempt

/-- An expression and its shape compile to the same fragment, and bind equally many constants. -/
theorem Expr.compile_shape (entity : Entity) :
    ∀ (e : Expr) (bound : Nat),
      (e.shape.compile entity bound).result = (e.compile entity bound).result
      ∧ (e.shape.compile entity bound).literals.length = (e.compile entity bound).literals.length
  | .member _, _ => ⟨rfl, rfl⟩
  | .constant _, _ => ⟨rfl, rfl⟩
  | .binary op left right, bound => by
    obtain ⟨hl, hll⟩ := compile_shape entity left bound
    rcases hs : op.symbol? with _ | symbol
    · simp only [shape, compile_binary_of_none hs, and_self]
    · rcases hr : (left.compile entity bound).result with refusal | text
      · rw [hr] at hl
        simp only [shape, compile_binary_of_error hs hl, compile_binary_of_error hs hr, hll,
          and_self]
      · rw [hr] at hl
        obtain ⟨hr', hlr⟩ :=
          compile_shape entity right (bound + (left.compile entity bound).literals.length)
        simp only [shape, compile_binary_of_ok hs hl, compile_binary_of_ok hs hr, hll, hr', hlr,
          List.length_append, and_self]
  | .not _, _ => ⟨rfl, rfl⟩
  | .negate _, _ => ⟨rfl, rfl⟩
  | .call _ _, _ => ⟨rfl, rfl⟩
  | .conditional _ _ _, _ => ⟨rfl, rfl⟩

open Attempt

section Steps

variable (settings : Settings) (entity : Entity)

theorem alike_compile (e : Expr) : Alike id (compile entity e) (compile entity e.shape) := by
  intro p q h
  obtain ⟨hr, hl⟩ := Expr.compile_shape entity e q.parameters.length
  unfold compile
  rw [h.bound]
  exact ⟨h.bindAll hl.symm, congrArg (Except.map id) hr.symm⟩

theorem alike_lowerSource (bucket bucket' : String) :
    Alike id (lowerSource settings bucket) (lowerSource settings.shape bucket') := by
  refine (alike_register _ _).bind fun _ => (alike_register _ _).bind fun _ =>
    (alike_edit _).bind fun _ => ?_
  simp only [Settings.shape]
  rcases settings.rangeStop with _ | stop
  · exact (alike_pure ()).bind fun _ => alike_edit _
  · exact (alike_register _ _).bind fun _ => (alike_edit _).bind fun _ => alike_edit _

theorem SortKey.alike_lower (key : SortKey) :
    Alike id (key.lower entity) (key.shape.lower entity) := by
  obtain ⟨e, direction⟩ := key
  cases e with
  | member name =>
    exact (alike_ofExcept _).bind fun _ => (alike_register _ _).bind fun _ =>
      (alike_register _ _).bind fun _ => alike_edit _
  | _ => exact alike_refuse _

theorem Clause.alike_lower (clause : Clause) :
    Alike id (clause.lower entity) (clause.shape.lower entity) := by
  cases clause with
  | filter predicate =>
    exact (alike_compile entity predicate).bind fun _ => (alike_note _).bind fun _ => alike_edit _
  | order keys => exact alike_forM (SortKey.alike_lower entity) keys

theorem Projection.alike_lower (projection : Projection) :
    Alike id (projection.lower entity) (projection.lower entity) := by
  cases projection with
  | entity => exact alike_pure ()
  | members names =>
    induction names with
    | nil => exact alike_pure ()
    | cons name names ih =>
      exact ((alike_ofExcept _).bind fun _ => alike_pure ()).bind fun _ => ih

theorem ResultOperator.alike_lower (operator : ResultOperator) :
    Alike id (operator.lower settings entity) (operator.shape.lower settings.shape entity) := by
  cases operator with
  | take n => exact (alike_compile entity n).bind fun _ => alike_edit _
  | skip n => exact (alike_compile entity n).bind fun _ => alike_edit _
  | count =>
    obtain ⟨dropColumns, countResult, rangeStop⟩ := settings
    cases countResult with
    | false => exact alike_refuse _
    | true => exact alike_edit _
  | _ => exact alike_refuse _

theorem alike_findEntity (registry : Registry) (name : String) :
    Alike id (findEntity registry name) (findEntity registry name) := by
  unfold findEntity
  split
  · exact alike_pure _
  · exact alike_refuse _

theorem alike_finish : Alike Request.outline finish finish := by
  intro p q h
  refine ⟨⟨h.bound, h.pipeline⟩, ?_⟩
  simp only [finish, Except.map, Request.outline, Progress.document, Progress.names_bindingsFrom,
    h.bound, h.pipeline]

end Steps

theorem Query.alike_attempt (settings : Settings) (registry : Registry) (bucket bucket' : String)
    (query : Query) :
    Alike Request.outline (query.attempt settings registry bucket)
      (query.shape.attempt settings.shape registry bucket') :=
  (alike_lowerSource settings bucket bucket').bind fun _ =>
    (alike_findEntity registry query.entity).bind fun entity =>
      (alike_forM (Clause.alike_lower entity) query.body).bind fun _ =>
        (Projection.alike_lower entity query.projection).bind fun _ =>
          (alike_forM (ResultOperator.alike_lower settings entity) query.operators).bind fun _ =>
            alike_finish

/-- A query looks like its shape, from any bucket. -/
theorem Query.outline_lower (settings : Settings) (registry : Registry) (bucket bucket' : String)
    (query : Query) :
    (query.lower settings registry bucket).2.map Request.outline
      = (query.shape.lower settings.shape registry bucket').2.map Request.outline :=
  (query.alike_attempt settings registry bucket bucket' {} {} (.refl _)).2

/-- Two queries that differ in their data only are refused for the same reason, or lowered to the
same text with the same names. -/
theorem Query.text_independent_of_data {settings settings' : Settings} {query query' : Query}
    (sameSettings : settings.shape = settings'.shape) (sameQuery : query.shape = query'.shape)
    (registry : Registry) (bucket bucket' : String) :
    (∃ request request', (query.lower settings registry bucket).2 = .ok request
        ∧ (query'.lower settings' registry bucket').2 = .ok request'
        ∧ request.query = request'.query
        ∧ request.bindings.body.length = request'.bindings.body.length
        ∧ request.bindings.body.map (·.name) = request'.bindings.body.map (·.name))
      ∨ ∃ refusal, (query.lower settings registry bucket).2 = .error refusal
        ∧ (query'.lower settings' registry bucket').2 = .error refusal := by
  have h : (query.lower settings registry bucket).2.map Request.outline
      = (query'.lower settings' registry bucket').2.map Request.outline := by
    rw [Query.outline_lower settings registry bucket bucket', sameSettings, sameQuery,
      ← Query.outline_lower settings' registry bucket' bucket']
  rcases hr : (query.lower settings registry bucket).2 with refusal | request
  · rcases hr' : (query'.lower settings' registry bucket').2 with refusal' | request'
    · rw [hr, hr'] at h
      simp only [Except.map, Except.error.injEq] at h
      exact .inr ⟨refusal, rfl, by rw [h]⟩
    · simp [hr, hr', Except.map] at h
  · rcases hr' : (query'.lower settings' registry bucket').2 with refusal' | request'
    · simp [hr, hr', Except.map] at h
    · rw [hr, hr'] at h
      simp only [Except.map, Request.outline, Except.ok.injEq, Prod.mk.injEq] at h
      obtain ⟨hq, hn⟩ := h
      refine .inl ⟨request, request', rfl, rfl, hq, ?_, hn⟩
      simpa using congrArg List.length hn

/-- The sample query with other data everywhere. -/
def otherSampleQuery : Query where
  entity := "Sensor"
  body :=
    [.filter (.binary .orElse (.binary .equal (.member "Id") (.constant (.integer 7)))
      (.binary .lessThan (.constant (.string "|> drop(columns: [])")) (.member "Value"))),
     .order [{ expr := .member "Value" }, { expr := .member "Id", direction := .descending }],
     .filter (.binary .notEqual (.member "Id") (.constant (.boolean true)))]
  projection := .members ["Value"]
  operators := [.take (.constant (.integer 0)), .skip (.constant (.string "b")), .count,
    .take (.constant (.integer 6))]

theorem Query.text_independent_of_data_sample :
    sampleQuery.shape = otherSampleQuery.shape
      ∧ ∃ request request', (sampleQuery.lower sampleSettings sampleRegistry "b").2 = .ok request
        ∧ (otherSampleQuery.lower { sampleSettings with rangeStop := some 1 } sampleRegistry
          "other").2 = .ok request'
        ∧ request.query = request'.query
        ∧ request.bindings.body.length = request'.bindings.body.length
        ∧ request.bindings.body.map (·.name) = request'.bindings.body.map (·.name) := by
  have hs : sampleSettings.shape = Settings.shape { sampleSettings with rangeStop := some 1 } := rfl
  have hq : sampleQuery.shape = otherSampleQuery.shape := rfl
  refine ⟨hq, ?_⟩
  rcases Query.text_independent_of_data hs hq sampleRegistry "b" "other" with h | ⟨refusal, h, -⟩
  · exact h
  · obtain ⟨request, hr⟩ := sampleQuery_lower
    rw [hr] at h
    cases h

end EntityFlux
