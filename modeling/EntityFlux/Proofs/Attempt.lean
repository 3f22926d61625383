import EntityFlux.Lowering.Basic

/-!
# Running attempts

An attempt that succeeds has run each of its steps to success, every step from where the one before
it stopped (`bind_ok`). So what a lowering leaves behind is read off its steps one by one: what a
sort key, a clause, an operator and the source leave is said here once, exactly, and everything
about whole runs is derived from it.
-/

namespace EntityFlux

open Flux

namespace Progress

variable (p : Progress) (values : List Literal) (event : Event) (f : Pipeline → Pipeline)

@[simp] theorem note_parameters : (p.note event).parameters = p.parameters := rfl

@[simp] theorem note_pipeline : (p.note event).pipeline = p.pipeline := rfl

@[simp] theorem bindAll_parameters : (p.bindAll values).parameters = p.parameters ++ values := rfl

@[simp] theorem bindAll_pipeline : (p.bindAll values).pipeline = p.pipeline := rfl

@[simp] theorem edit_parameters : (p.edit f).parameters = p.parameters := rfl

@[simp] theorem edit_pipeline : (p.edit f).pipeline = f p.pipeline := rfl

end Progress

theorem Event.registrations_append (bound : Nat) (xs ys : List Literal) :
    registrations bound (xs ++ ys)
      = registrations bound xs ++ registrations (bound + xs.length) ys := by
  induction xs generalizing bound with
  | nil => rfl
  | cons x xs ih =>
    simp only [List.cons_append, registrations, ih, List.length_cons]
    rw [Nat.add_right_comm bound 1 xs.length, Nat.add_assoc]

/-- Binding in two goes is binding in one. -/
theorem Progress.bindAll_bindAll (p : Progress) (xs ys : List Literal) :
    (p.bindAll xs).bindAll ys = p.bindAll (xs ++ ys) := by
  simp only [bindAll, List.append_assoc, Event.registrations_append, List.length_append]

theorem Entity.resolve_eq_ok {entity : Entity} {member column : String} :
    entity.resolve member = .ok column
      ↔ ∃ role, entity.role? member = some role ∧ role.column = column := by
  unfold Entity.resolve
  split
  · rename_i role hr
    simp [hr]
  · rename_i hr
    simp [hr]

namespace Attempt

variable {α β : Type} {p p' : Progress}

theorem bind_apply (a : Attempt α) (f : α → Attempt β) (p : Progress) :
    (a >>= f) p = match a p with
      | (q, .ok x) => f x q
      | (q, .error refusal) => (q, .error refusal) := rfl

@[simp] theorem pure_bind (x : α) (f : α → Attempt β) : (pure x >>= f : Attempt β) = f x := rfl

@[simp] theorem refuse_bind (refusal : Refusal) (f : α → Attempt β) :
    refuse refusal >>= f = refuse refusal := rfl

theorem bind_assoc {γ : Type} (a : Attempt α) (f : α → Attempt β) (g : β → Attempt γ) :
    a >>= f >>= g = a >>= fun x => f x >>= g := by
  funext p
  simp only [bind_apply]
  rcases a p with ⟨q, refusal | x⟩
  · rfl
  · rfl

theorem bind_ok {a : Attempt α} {f : α → Attempt β} {y : β} (h : (a >>= f) p = (p', .ok y)) :
    ∃ q x, a p = (q, .ok x) ∧ f x q = (p', .ok y) := by
  rw [bind_apply] at h
  rcases ha : a p with ⟨q, refusal | x⟩
  · rw [ha] at h
    simp at h
  · rw [ha] at h
    exact ⟨q, x, rfl, h⟩

/-- What holds of no step at all, and of a step with what follows it, holds of a list of steps that
succeeds. -/
theorem forM_run {ι : Type} {step : ι → Attempt Unit}
    {motive : List ι → Progress → Progress → Prop} (nil : ∀ p, motive [] p p)
    (cons : ∀ i items p q p', step i p = (q, .ok ()) → motive items q p' →
      motive (i :: items) p p') :
    ∀ (items : List ι) {p p' : Progress}, items.forM step p = (p', .ok ()) → motive items p p'
  | [], p, p', h => by
    simp only [List.forM, pure, Prod.mk.injEq] at h
    rw [← h.1]
    exact nil p
  | i :: items, p, p', h => by
    obtain ⟨q, _, h₁, h₂⟩ := bind_ok h
    exact cons i items p q p' h₁ (forM_run nil cons items h₂)

theorem update_ok {f : Progress → Progress} {x : Unit} (h : update f p = (p', .ok x)) :
    p' = f p := by
  simp only [update, Prod.mk.injEq] at h
  exact h.1.symm

theorem register_ok {value : Literal} {name : String} (h : register value p = (p', .ok name)) :
    p' = p.bindAll [value] ∧ name = parameterName (p.parameters.length + 1) := by
  simp only [register, Prod.mk.injEq, Except.ok.injEq] at h
  exact ⟨h.1.symm, h.2.symm⟩

theorem ofExcept_ok {result : Except Refusal α} {x : α} (h : ofExcept result p = (p', .ok x)) :
    p' = p ∧ result = .ok x := by
  simp only [ofExcept, Prod.mk.injEq] at h
  exact ⟨h.1.symm, h.2⟩

theorem compile_ok {entity : Entity} {e : Expr} {fragment : String}
    (h : compile entity e p = (p', .ok fragment)) :
    p' = p.bindAll (e.compile entity p.parameters.length).literals
      ∧ (e.compile entity p.parameters.length).result = .ok fragment := by
  simp only [compile, Prod.mk.injEq] at h
  exact ⟨h.1.symm, h.2⟩

end Attempt

open Attempt

section Steps

variable {settings : Settings} {entity : Entity} {p p' : Progress}

/-- A sort key that is lowered is a mapped member; its column and its direction are bound next. -/
theorem SortKey.lower_ok {key : SortKey} (h : key.lower entity p = (p', .ok ())) :
    ∃ name role, key.expr = .member name ∧ entity.role? name = some role
      ∧ p' = (p.bindAll [.string role.column, .boolean key.direction.isDescending]).edit
        (·.addSort (parameterName (p.parameters.length + 1))
          (parameterName (p.parameters.length + 2))) := by
  obtain ⟨e, direction⟩ := key
  cases e with
  | member name =>
    obtain ⟨q₁, column, h₁, h⟩ := bind_ok h
    obtain ⟨rfl, hc⟩ := ofExcept_ok h₁
    obtain ⟨role, hr, rfl⟩ := Entity.resolve_eq_ok.1 hc
    obtain ⟨q₂, columnName, h₂, h⟩ := bind_ok h
    obtain ⟨rfl, rfl⟩ := register_ok h₂
    obtain ⟨q₃, directionName, h₃, h⟩ := bind_ok h
    obtain ⟨rfl, rfl⟩ := register_ok h₃
    refine ⟨name, role, rfl, hr, ?_⟩
    rw [update_ok h, Progress.bindAll_bindAll]
    simp
  | _ => simp [SortKey.lower, refuse] at h

theorem Clause.lower_filter_ok {predicate : Expr}
    (h : (Clause.filter predicate).lower entity p = (p', .ok ())) :
    ∃ fragment, (predicate.compile entity p.parameters.length).result = .ok fragment
      ∧ p' = ((p.bindAll (predicate.compile entity p.parameters.length).literals).note
        (.compiledFilter fragment)).edit (·.addFilter fragment) := by
  obtain ⟨q₁, fragment, h₁, h⟩ := bind_ok h
  obtain ⟨rfl, hf⟩ := compile_ok h₁
  obtain ⟨q₂, _, h₂, h⟩ := bind_ok h
  refine ⟨fragment, hf, ?_⟩
  rw [update_ok h, update_ok h₂]

/-- The members of a projection are looked up, and nothing is done. -/
theorem Projection.lower_ok {projection : Projection}
    (h : projection.lower entity p = (p', .ok ())) : p' = p := by
  cases projection with
  | entity =>
    simp only [Projection.lower, pure, Prod.mk.injEq] at h
    exact h.1.symm
  | members names =>
    refine forM_run (motive := fun _ p p' => p' = p) (fun _ => rfl) ?_ names h
    intro name _ p q p' h₁ hp
    obtain ⟨q', _, h₂, h₃⟩ := bind_ok h₁
    simp only [pure, Prod.mk.injEq] at h₃
    rw [hp, ← h₃.1, (ofExcept_ok h₂).1]

/-- An operator that is lowered sets the limit, the offset or the result function. -/
theorem ResultOperator.lower_ok {operator : ResultOperator}
    (h : operator.lower settings entity p = (p', .ok ())) :
    (∃ n limit, operator = .take n ∧ (n.compile entity p.parameters.length).result = .ok limit
      ∧ p' = (p.bindAll (n.compile entity p.parameters.length).literals).edit
        ({ · with limitCount := some limit }))
    ∨ (∃ n offset, operator = .skip n ∧ (n.compile entity p.parameters.length).result = .ok offset
      ∧ p' = (p.bindAll (n.compile entity p.parameters.length).literals).edit
        ({ · with limitOffset := some offset }))
    ∨ (operator = .count ∧ settings.countResult
      ∧ p' = p.edit ({ · with resultFunction := .count })) := by
  unfold ResultOperator.lower at h
  split at h
  · rename_i n
    obtain ⟨q, limit, h₁, h⟩ := bind_ok h
    obtain ⟨rfl, hl⟩ := compile_ok h₁
    exact .inl ⟨n, limit, rfl, hl, update_ok h⟩
  · rename_i n
    obtain ⟨q, offset, h₁, h⟩ := bind_ok h
    obtain ⟨rfl, ho⟩ := compile_ok h₁
    exact .inr (.inl ⟨n, offset, rfl, ho, update_ok h⟩)
  · by_cases hc : settings.countResult
    · rw [if_pos hc] at h
      exact .inr (.inr ⟨rfl, hc, update_ok h⟩)
    · rw [if_neg hc] at h
      simp [refuse] at h
  · simp [refuse] at h

/-- The parameters of the source: the bucket, the start of the range, and its end if it has one. -/
def sourceLiterals (settings : Settings) (bucket : String) : List Literal :=
  [.string bucket, .integer 0] ++ settings.rangeStop.toList.map .integer

def sourcePipeline (settings : Settings) : Pipeline where
  bucket := some (parameterName 1)
  rangeStart := some (parameterName 2)
  rangeStop := settings.rangeStop.map fun _ => parameterName 3
  dropColumns := settings.dropColumns

theorem lowerSource_ok {bucket : String} (h : lowerSource settings bucket {} = (p', .ok ())) :
    p'.parameters = sourceLiterals settings bucket ∧ p'.pipeline = sourcePipeline settings := by
  have hp : p' = (lowerSource settings bucket {}).1 := (congrArg Prod.fst h).symm
  unfold sourceLiterals sourcePipeline
  rcases hs : settings.rangeStop with _ | stop
  · rw [hp]
    simp only [lowerSource, hs]
    exact ⟨rfl, rfl⟩
  · rw [hp]
    simp only [lowerSource, hs]
    exact ⟨rfl, rfl⟩

end Steps

theorem findEntity_ok {registry : Registry} {name : String} {p p' : Progress} {entity : Entity}
    (h : findEntity registry name p = (p', .ok entity)) :
    p' = p ∧ registry.find? name = some entity := by
  unfold findEntity at h
  rcases hf : registry.find? name with _ | found
  · simp [hf, refuse] at h
  · simp only [hf, pure, Prod.mk.injEq, Except.ok.injEq] at h
    exact ⟨h.1.symm, by rw [h.2]⟩

theorem finish_ok {p p' : Progress} {request : Request} (h : finish p = (p', .ok request)) :
    request = { query := p.pipeline.text, bindings := p.document } := by
  simp only [finish, Prod.mk.injEq, Except.ok.injEq] at h
  exact h.2.symm

section Lowered

variable {settings : Settings} {registry : Registry} {bucket : String} {query : Query}

/-- The lowering up to its last step, which is to write what has been collected. -/
def Query.visit (settings : Settings) (registry : Registry) (bucket : String) (query : Query) :
    Attempt Unit := do
  lowerSource settings bucket
  let entity ← findEntity registry query.entity
  query.body.forM (·.lower entity)
  query.projection.lower entity
  query.operators.forM (·.lower settings entity)

theorem Query.attempt_eq : query.attempt settings registry bucket
    = query.visit settings registry bucket >>= fun _ => finish := by
  simp only [Query.attempt, Query.visit, bind_assoc]

/-- A query that can be gone through knows its entity, and the way leads from the source through
the body to the operators. -/
theorem Query.visit_ok {p : Progress} (h : query.visit settings registry bucket {} = (p, .ok ())) :
    ∃ entity p₀ p₁, registry.find? query.entity = some entity
      ∧ p₀.parameters = sourceLiterals settings bucket ∧ p₀.pipeline = sourcePipeline settings
      ∧ query.body.forM (·.lower entity) p₀ = (p₁, .ok ())
      ∧ query.operators.forM (·.lower settings entity) p₁ = (p, .ok ()) := by
  obtain ⟨p₀, _, h₀, h⟩ := bind_ok h
  obtain ⟨q, entity, he, h⟩ := bind_ok h
  obtain ⟨p₁, _, h₁, h⟩ := bind_ok h
  obtain ⟨q', _, hp, h₂⟩ := bind_ok h
  obtain ⟨hs, hs'⟩ := lowerSource_ok h₀
  obtain ⟨hq, hf⟩ := findEntity_ok he
  rw [hq] at h₁
  rw [Projection.lower_ok hp] at h₂
  exact ⟨entity, p₀, p₁, hf, hs, hs', h₁, h₂⟩

variable {request : Request}

theorem Query.visit_of_lower (h : (query.lower settings registry bucket).2 = .ok request) :
    ∃ p, query.visit settings registry bucket {} = (p, .ok ())
      ∧ request = { query := p.pipeline.text, bindings := p.document } := by
  obtain ⟨last, ha⟩ : ∃ last, query.attempt settings registry bucket {} = (last, .ok request) :=
    ⟨_, Prod.ext rfl h⟩
  rw [Query.attempt_eq] at ha
  obtain ⟨p, _, hp, hl⟩ := bind_ok ha
  exact ⟨p, hp, finish_ok hl⟩

/-- The request of a lowered query is what is written at the end of the way. -/
theorem Query.lower_ok (h : (query.lower settings registry bucket).2 = .ok request) :
    ∃ entity p₀ p₁ p₂, registry.find? query.entity = some entity
      ∧ p₀.parameters = sourceLiterals settings bucket ∧ p₀.pipeline = sourcePipeline settings
      ∧ query.body.forM (·.lower entity) p₀ = (p₁, .ok ())
      ∧ query.operators.forM (·.lower settings entity) p₁ = (p₂, .ok ())
      ∧ request = { query := p₂.pipeline.text, bindings := p₂.document } := by
  obtain ⟨p₂, hp, hr⟩ := Query.visit_of_lower h
  obtain ⟨entity, p₀, p₁, he, hs, hs', h₁, h₂⟩ := Query.visit_ok hp
  exact ⟨entity, p₀, p₁, p₂, he, hs, hs', h₁, h₂, hr⟩

end Lowered

end EntityFlux
