import EntityFlux.Proofs.RecordAccess

/-!
# What a lowering reads of the schemas

A lowering looks up one entity, the last that was registered under its name, and asks it for the
columns of the members that the query names. So two registries whose entities resolve those members
alike (`ResolveAlike`) lower the query alike, step by step and to the last event.
-/

namespace EntityFlux

open Flux

/-! ## The members that a query names -/

/-- The members in the sort keys of a clause, or in its predicate. -/
def Clause.memberNames : Clause → List String
  | .filter predicate => predicate.members
  | .order keys => keys.flatMap (·.expr.members)

def Projection.memberNames : Projection → List String
  | .entity => []
  | .members names => names

/-- The members in the count of an operator. -/
def ResultOperator.memberNames : ResultOperator → List String
  | .take n => n.members
  | .skip n => n.members
  | _ => []

def Query.memberNames (query : Query) : List String :=
  query.body.flatMap Clause.memberNames
    ++ (query.projection.memberNames ++ query.operators.flatMap ResultOperator.memberNames)

/-! ## The last entity of a name -/

def lastNamed (name : String) (entities : List Entity) : Option Entity :=
  (entities.filter (·.name = name)).getLast?

section Registered

variable {name : String} {entities : List Entity} {entity : Entity}

theorem lastNamed_cons (entity : Entity) (entities : List Entity) :
    lastNamed name (entity :: entities)
      = (lastNamed name entities).or (if entity.name = name then some entity else none) := by
  unfold lastNamed
  by_cases h : entity.name = name
  · simp [h, List.getLast?_cons, Option.or_some]
  · simp [h]

theorem name_of_lastNamed (h : lastNamed name entities = some entity) : entity.name = name := by
  have hmem := List.mem_of_getLast? h
  simpa using (List.mem_filter.1 hmem).2

theorem Registry.find?_register (registry : Registry) (entity : Entity) (name : String) :
    (registry.register entity).find? name
      = if entity.name = name then some entity else registry.find? name := by
  unfold Registry.find? Registry.register
  split
  · rename_i h
    rw [h, Dictionary.get?_set_self]
  · rename_i h
    exact Dictionary.get?_set_of_ne _ _ (Ne.symm h)

/-- Of all entities of one name a registry knows the last. -/
theorem Registry.find?_ofEntities (entities : List Entity) (name : String) :
    (Registry.ofEntities entities).find? name = lastNamed name entities := by
  have hfold : ∀ (entities : List Entity) (registry : Registry),
      Registry.find? (entities.foldl Registry.register registry) name
        = (lastNamed name entities).or (registry.find? name) := by
    intro entities
    induction entities with
    | nil => intro registry; rfl
    | cons entity entities ih =>
      intro registry
      rw [List.foldl_cons, ih, Registry.find?_register, lastNamed_cons, Option.or_assoc]
      split <;> rfl
  rw [Registry.ofEntities, hfold]
  exact Option.or_none

end Registered

/-! ## Lowering with two entities -/

/-- Both entities give these members the same columns, or refuse them alike. -/
def ResolveAlike (a b : Entity) (members : List String) : Prop :=
  ∀ member ∈ members, a.resolve member = b.resolve member

theorem Entity.resolve_congr {a b : Entity} {member : String} (hname : a.name = b.name)
    (hcolumn : (a.role? member).map Role.column = (b.role? member).map Role.column) :
    a.resolve member = b.resolve member := by
  unfold Entity.resolve
  rcases ha : a.role? member with _ | role <;> rcases hb : b.role? member with _ | role' <;>
    rw [ha, hb] at hcolumn
  · rw [hname]
  · cases hcolumn
  · cases hcolumn
  · exact congrArg Except.ok (Option.some.inj hcolumn)

section Lowering

variable {a b : Entity} {settings : Settings}

theorem ResolveAlike.of_append {xs ys : List String} (h : ResolveAlike a b (xs ++ ys)) :
    ResolveAlike a b xs ∧ ResolveAlike a b ys :=
  List.forall_mem_append.1 h

theorem ResolveAlike.of_flatMap {ι : Type} {items : List ι} {f : ι → List String}
    (h : ResolveAlike a b (items.flatMap f)) : ∀ i ∈ items, ResolveAlike a b (f i) :=
  fun i hi member hm => h member (List.mem_flatMap.2 ⟨i, hi, hm⟩)

theorem Expr.compile_congr : ∀ (e : Expr) (bound : Nat), ResolveAlike a b e.members →
    e.compile a bound = e.compile b bound
  | .member name, bound, h => by
    simp only [compile, h name (by simp)]
  | .constant _, _, _ => rfl
  | .binary op left right, bound, h => by
    rw [members_binary] at h
    have hl := compile_congr left bound h.of_append.1
    have hr := fun bound => compile_congr right bound h.of_append.2
    simp only [compile, hl, hr]
  | .not _, _, _ => rfl
  | .negate _, _, _ => rfl
  | .call _ _, _, _ => rfl
  | .conditional _ _ _, _, _ => rfl

theorem Attempt.compile_congr {e : Expr} (h : ResolveAlike a b e.members) :
    Attempt.compile a e = Attempt.compile b e := by
  funext p
  simp only [Attempt.compile, e.compile_congr _ h]

theorem Attempt.forM_congr {ι : Type} {step step' : ι → Attempt Unit} :
    ∀ items : List ι, (∀ i ∈ items, step i = step' i) → items.forM step = items.forM step'
  | [], _ => rfl
  | i :: items, h => by
    simp only [List.forM, h i List.mem_cons_self,
      forM_congr items fun j hj => h j (List.mem_cons_of_mem i hj)]

theorem SortKey.lower_congr {key : SortKey} (h : ResolveAlike a b key.expr.members) :
    key.lower a = key.lower b := by
  obtain ⟨e, direction⟩ := key
  cases e with
  | member name => simp only [SortKey.lower, h name (by simp)]
  | _ => rfl

theorem Clause.lower_congr {clause : Clause} (h : ResolveAlike a b clause.memberNames) :
    clause.lower a = clause.lower b := by
  cases clause with
  | filter predicate => simp only [Clause.lower, Attempt.compile_congr h]
  | order keys =>
    exact Attempt.forM_congr keys fun key hk => SortKey.lower_congr (h.of_flatMap key hk)

theorem Projection.lower_congr {projection : Projection}
    (h : ResolveAlike a b projection.memberNames) : projection.lower a = projection.lower b := by
  cases projection with
  | entity => rfl
  | members names =>
    refine Attempt.forM_congr names fun name hn => ?_
    rw [h name hn]

theorem ResultOperator.lower_congr {operator : ResultOperator}
    (h : ResolveAlike a b operator.memberNames) :
    operator.lower settings a = operator.lower settings b := by
  cases operator with
  | take n => simp only [ResultOperator.lower, Attempt.compile_congr (e := n) h]
  | skip n => simp only [ResultOperator.lower, Attempt.compile_congr (e := n) h]
  | _ => rfl

end Lowering

/-- Two registries that find entities which resolve the members of a query alike, or that both find
none, lower the query alike. -/
theorem Query.attempt_congr {query : Query} {registry registry' : Registry}
    (h : Option.Rel (fun a b => ResolveAlike a b query.memberNames) (registry.find? query.entity)
      (registry'.find? query.entity)) (settings : Settings) (bucket : String) :
    query.attempt settings registry bucket = query.attempt settings registry' bucket := by
  unfold Query.attempt findEntity
  generalize registry.find? query.entity = found, registry'.find? query.entity = found' at h
  cases h with
  | none => rfl
  | @some a b h =>
    have hbody : query.body.forM (·.lower a) = query.body.forM (·.lower b) :=
      Attempt.forM_congr _ fun clause hc => Clause.lower_congr (h.of_append.1.of_flatMap clause hc)
    have hprojection : query.projection.lower a = query.projection.lower b :=
      Projection.lower_congr h.of_append.2.of_append.1
    have hoperators :
        query.operators.forM (·.lower settings a) = query.operators.forM (·.lower settings b) :=
      Attempt.forM_congr _ fun operator ho =>
        ResultOperator.lower_congr (h.of_append.2.of_append.2.of_flatMap operator ho)
    simp only [Attempt.pure_bind, hbody, hprojection, hoperators]

/-- A lowering depends on nothing but the columns that the last entity of its name gives to the
members that the query names. -/
theorem Query.lower_eq_of_same_columns {query : Query} {entities entities' : List Entity}
    (h : Option.Rel
      (fun a b => ∀ member ∈ query.memberNames,
        (a.role? member).map Role.column = (b.role? member).map Role.column)
      (lastNamed query.entity entities) (lastNamed query.entity entities'))
    (settings : Settings) (bucket : String) :
    query.lower settings (Registry.ofEntities entities) bucket
      = query.lower settings (Registry.ofEntities entities') bucket := by
  have hrel : Option.Rel (fun a b => ResolveAlike a b query.memberNames)
      ((Registry.ofEntities entities).find? query.entity)
      ((Registry.ofEntities entities').find? query.entity) := by
    rw [Registry.find?_ofEntities, Registry.find?_ofEntities]
    have hname : ∀ a ∈ lastNamed query.entity entities,
        ∀ b ∈ lastNamed query.entity entities', a.name = b.name :=
      fun a ha b hb => (name_of_lastNamed ha).trans (name_of_lastNamed hb).symm
    generalize lastNamed query.entity entities = last,
      lastNamed query.entity entities' = last' at h hname
    cases h with
    | none => exact .none
    | @some a b h =>
      -- a refusal names the entity, and both have the name that the query asks for
      exact .some fun member hm => Entity.resolve_congr (hname a rfl b rfl) (h member hm)
  unfold Query.lower
  rw [Query.attempt_congr hrel]

/-- Other entities, an earlier schema of the same name, members that are not named, and columns
under other roles. -/
theorem Query.lower_eq_of_same_columns_sample :
    sampleQuery.lower sampleSettings (Registry.ofEntities
        [{ name := "Sensor", members := [("Id", .tag "id"), ("Value", .field "data")] }]) "b"
      = sampleQuery.lower sampleSettings (Registry.ofEntities
        [{ name := "Sensor", members := [("Id", .field "other")] },
         { name := "Sensor", members :=
            [("At", .timestamp), ("Id", .field "id"), ("Value", .tag "data")] },
         { name := "Device" }]) "b"
      ∧ ∃ request, (sampleQuery.lower sampleSettings (Registry.ofEntities
        [{ name := "Sensor", members := [("Id", .tag "id"), ("Value", .field "data")] }]) "b").2
          = .ok request :=
  ⟨Query.lower_eq_of_same_columns (.some (by decide)) _ _, ⟨_, rfl⟩⟩

end EntityFlux
