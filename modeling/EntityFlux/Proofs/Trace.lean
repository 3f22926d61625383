import EntityFlux.Proofs.Arguments
import EntityFlux.Proofs.SharedParameters

/-!
# The trace of a lowering

What is done about a query, one thing after another, is written down without a lowering: a literal
is bound, a filter is compiled, something is refused (`Query.deeds`). A lowering does these things
up to the first refusal and notes each as it is done (`Does`); only one that refuses nothing goes on
to the events at the end.
-/

namespace EntityFlux

open Flux

/-- One thing that is done about a query. -/
inductive Deed where
  | bind (value : Literal)
  | filter (fragment : String)
  | refuse (refusal : Refusal)

namespace Deed

def literal? : Deed → Option Literal
  | .bind value => some value
  | _ => none

def fragment? : Deed → Option String
  | .filter fragment => some fragment
  | _ => none

def refusal? : Deed → Option Refusal
  | .refuse refusal => some refusal
  | _ => none

/-- What is done before the first refusal. -/
def ahead (deeds : List Deed) : List Deed := deeds.takeWhile (·.refusal?.isNone)

/-- How deeds are noted behind `bound` parameters. -/
def events (bound : Nat) : List Deed → List Event
  | [] => []
  | .bind value :: rest => .registered (bound + 1) value :: events (bound + 1) rest
  | .filter fragment :: rest => .compiledFilter fragment :: events bound rest
  | .refuse _ :: rest => events bound rest

end Deed

/-- A node binds its constant or is refused or neither. -/
def Expr.deed? (entity : Entity) (node : Expr) : Option Deed :=
  match node.offence? entity with
  | some refusal => some (.refuse refusal)
  | none => node.constant?.map .bind

def Expr.deeds (entity : Entity) (e : Expr) : List Deed := e.nodes.filterMap (deed? entity)

def SortKey.deeds (entity : Entity) (key : SortKey) : List Deed :=
  (key.offences entity).map .refuse ++ (key.literals entity).map .bind

/-- A filter is compiled behind `bound` parameters once all of it has been gone through. -/
def Clause.deeds (entity : Entity) (bound : Nat) : Clause → List Deed
  | .filter predicate => predicate.deeds entity ++ [.filter (predicate.fragment entity bound)]
  | .order keys => keys.flatMap (SortKey.deeds entity)

def Projection.deeds (entity : Entity) (projection : Projection) : List Deed :=
  (projection.offences entity).map .refuse

def ResultOperator.deeds (settings : Settings) (entity : Entity) : ResultOperator → List Deed
  | .take n => n.deeds entity
  | .skip n => n.deeds entity
  | operator => (operator.offences settings entity).map .refuse

def Query.deeds (settings : Settings) (registry : Registry) (bucket : String) (query : Query) :
    List Deed :=
  (sourceLiterals settings bucket).map .bind ++
    match registry.find? query.entity with
    | none => [.refuse (.unknownEntity query.entity)]
    | some entity =>
      (query.clausesAt settings).flatMap (fun (bound, clause) => clause.deeds entity bound)
        ++ (query.projection.deeds entity
          ++ query.operators.flatMap (ResultOperator.deeds settings entity))

namespace Deed

section Lists

variable {first second : List Deed} {bound : Nat}

theorem events_append : events bound (first ++ second)
    = events bound first ++ events (bound + (first.filterMap literal?).length) second := by
  induction first generalizing bound with
  | nil => rfl
  | cons deed first ih =>
    cases deed with
    | bind value =>
      simp only [List.cons_append, events, ih, List.filterMap_cons, literal?, List.length_cons]
      rw [Nat.add_right_comm bound 1, Nat.add_assoc]
    | filter fragment => simp [events, ih, literal?, List.filterMap_cons]
    | refuse refusal => simp [events, ih, literal?, List.filterMap_cons]

theorem events_bind (values : List Literal) :
    events bound (values.map .bind) = Event.registrations bound values := by
  induction values generalizing bound with
  | nil => rfl
  | cons value values ih => simp [events, Event.registrations, ih]

theorem filterMap_literal?_bind (values : List Literal) :
    (values.map Deed.bind).filterMap literal? = values := by
  simp [List.filterMap_map, literal?, Function.comp_def]

theorem filterMap_literal?_refuse (refusals : List Refusal) :
    (refusals.map Deed.refuse).filterMap literal? = [] := by
  simp [List.filterMap_map, literal?, Function.comp_def]

theorem filterMap_refusal?_bind (values : List Literal) :
    (values.map Deed.bind).filterMap refusal? = [] := by
  simp [List.filterMap_map, refusal?, Function.comp_def]

theorem filterMap_refusal?_refuse (refusals : List Refusal) :
    (refusals.map Deed.refuse).filterMap refusal? = refusals := by
  simp [List.filterMap_map, refusal?, Function.comp_def]

theorem filterMap_fragment?_bind (values : List Literal) :
    (values.map Deed.bind).filterMap fragment? = [] := by
  simp [List.filterMap_map, fragment?, Function.comp_def]

theorem filterMap_fragment?_refuse (refusals : List Refusal) :
    (refusals.map Deed.refuse).filterMap fragment? = [] := by
  simp [List.filterMap_map, fragment?, Function.comp_def]

theorem ahead_of_clean (h : first.filterMap refusal? = []) : ahead first = first := by
  refine List.takeWhile_eq_self_iff.2 fun deed hdeed => ?_
  rw [Option.isNone_iff_eq_none]
  exact List.filterMap_eq_nil_iff.1 h deed hdeed

theorem ahead_append (h : first.filterMap refusal? = []) :
    ahead (first ++ second) = first ++ ahead second :=
  List.takeWhile_append_of_pos (List.takeWhile_eq_self_iff.1 (ahead_of_clean h))

/-- Behind a refusal nothing more is done. -/
theorem ahead_append_of_refusal (h : first.filterMap refusal? ≠ []) :
    ahead (first ++ second) = ahead first := by
  unfold ahead
  rw [List.takeWhile_append, if_neg]
  intro hlength
  have hall := (List.takeWhile_prefix _).eq_of_length hlength
  refine h (List.filterMap_eq_nil_iff.2 fun deed hdeed => ?_)
  rw [← Option.isNone_iff_eq_none]
  exact List.takeWhile_eq_self_iff.1 hall deed hdeed

end Lists

end Deed

theorem Expr.refusals_deeds (entity : Entity) (e : Expr) :
    (e.deeds entity).filterMap Deed.refusal? = e.offences entity := by
  unfold deeds offences
  rw [List.filterMap_filterMap]
  refine List.filterMap_congr fun node _ => ?_
  unfold deed?
  cases node.offence? entity with
  | some refusal => rfl
  | none => cases node.constant? <;> rfl

theorem Expr.ahead_deeds (entity : Entity) (e : Expr) :
    Deed.ahead (e.deeds entity) = (e.constantsAhead entity).map .bind := by
  unfold deeds constantsAhead ahead
  induction e.nodes with
  | nil => rfl
  | cons node nodes ih =>
    cases hoffence : node.offence? entity with
    | some refusal => simp [deed?, hoffence, Deed.ahead, Deed.refusal?]
    | none =>
      cases hconstant : node.constant? with
      | none => simpa [deed?, hoffence, hconstant] using ih
      | some value => simpa [deed?, hoffence, hconstant, Deed.ahead, Deed.refusal?] using ih

namespace Attempt

open Deed

variable {α β : Type} {p : Progress} {first second : List Deed}

/-- Behind `p` these things were done up to the first refusal, which is the result. -/
structure Does (deeds : List Deed) (p : Progress) (out : Progress × Except Refusal α) : Prop where
  parameters : out.1.parameters = p.parameters ++ (ahead deeds).filterMap literal?
  events : out.1.events = p.events ++ Deed.events p.parameters.length (ahead deeds)
  result : Reports (deeds.filterMap refusal?) out.2

theorem Does.bind {a : Attempt α} {f : α → Attempt β} (h : Does first p (a p))
    (k : ∀ q x, a p = (q, .ok x) → Does second q (f x q)) :
    Does (first ++ second) p ((a >>= f) p) := by
  obtain ⟨hparameters, hevents, hresult⟩ := h
  rw [bind_apply]
  rcases ha : a p with ⟨q, refusal | x⟩
  · -- what would follow is not reached, and its deeds are cut off
    rw [ha] at hparameters hevents hresult
    have hrefused : first.filterMap refusal? ≠ [] := by
      rw [ne_eq, ← hresult.ok_iff]
      simp
    refine ⟨?_, ?_, ?_⟩
    · rw [ahead_append_of_refusal hrefused]
      exact hparameters
    · rw [ahead_append_of_refusal hrefused]
      exact hevents
    · rw [List.filterMap_append]
      exact hresult.append (fun x hx => by cases hx) (fun other hother => by cases hother; rfl)
  · rw [ha] at hparameters hevents hresult
    have hclean : first.filterMap refusal? = [] := hresult.ok_iff.1 ⟨x, rfl⟩
    rw [ahead_of_clean hclean] at hparameters hevents
    obtain ⟨hparameters', hevents', hresult'⟩ := k q x ha
    refine ⟨?_, ?_, ?_⟩
    · rw [ahead_append hclean, hparameters', hparameters, List.filterMap_append,
        List.append_assoc]
    · rw [ahead_append hclean, hevents', hevents, hparameters, events_append, List.append_assoc,
        List.length_append]
    · rwa [List.filterMap_append, hclean, List.nil_append]

theorem does_pure (x : α) : Does [] p ((pure x : Attempt α) p) :=
  ⟨(List.append_nil _).symm, (List.append_nil _).symm, x, rfl⟩

/-- An edit of the pipeline is noted nowhere. -/
theorem does_edit (f : Pipeline → Pipeline) : Does [] p (update (·.edit f) p) :=
  ⟨(List.append_nil _).symm, (List.append_nil _).symm, (), rfl⟩

theorem does_note (fragment : String) :
    Does [.filter fragment] p (update (·.note (.compiledFilter fragment)) p) :=
  ⟨(List.append_nil _).symm, rfl, (), rfl⟩

theorem does_register (value : Literal) : Does [.bind value] p (register value p) :=
  ⟨rfl, rfl, _, rfl⟩

theorem does_refuse (refusal : Refusal) :
    Does [.refuse refusal] p ((refuse refusal : Attempt α) p) :=
  ⟨(List.append_nil _).symm, (List.append_nil _).symm, rfl⟩

theorem does_resolve (entity : Entity) (name : String) :
    Does (((Expr.member name).offence? entity).toList.map .refuse) p
      (ofExcept (entity.resolve name) p) := by
  refine ⟨?_, ?_, ?_⟩
  · cases (Expr.member name).offence? entity <;> simp [ofExcept, ahead, refusal?]
  · cases (Expr.member name).offence? entity <;> simp [ofExcept, ahead, refusal?, Deed.events]
  · rw [filterMap_refusal?_refuse]
    exact Expr.reports_resolve entity name

theorem does_compile (entity : Entity) (e : Expr) :
    Does (e.deeds entity) p (compile entity e p) := by
  have hprogress := compile_progress entity e p
  refine ⟨?_, ?_, ?_⟩
  · rw [hprogress, Expr.ahead_deeds, filterMap_literal?_bind, Progress.bindAll_parameters]
  · rw [hprogress, Expr.ahead_deeds, events_bind]
    rfl
  · rw [Expr.refusals_deeds]
    exact Expr.compile_reports entity e p.parameters.length

/-- A list of steps does what each step does, in order. -/
theorem does_forM {ι : Type} {step : ι → Attempt Unit} {deeds : ι → List Deed}
    (h : ∀ i p, Does (deeds i) p (step i p)) :
    ∀ (items : List ι) (p : Progress), Does (items.flatMap deeds) p (items.forM step p)
  | [], _ => does_pure ()
  | i :: items, p => (h i p).bind fun q _ _ => does_forM h items q

end Attempt

open Attempt

section Steps

variable (settings : Settings) (entity : Entity)

theorem does_lowerSource (bucket : String) (p : Progress) :
    Does ((sourceLiterals settings bucket).map .bind) p (lowerSource settings bucket p) := by
  unfold sourceLiterals
  refine (does_register _).bind fun _ _ _ => (does_register _).bind fun _ _ _ =>
    (does_edit _).bind fun _ _ _ => ?_
  rcases settings.rangeStop with _ | stop
  · exact (does_pure ()).bind fun _ _ _ => does_edit _
  · exact (does_register _).bind fun _ _ _ => (does_edit _).bind fun _ _ _ => does_edit _

theorem SortKey.does_lower (key : SortKey) (p : Progress) :
    Does (key.deeds entity) p (key.lower entity p) := by
  obtain ⟨e, direction⟩ := key
  cases e with
  | member name =>
    refine (does_resolve entity name).bind fun q column hresolve => ?_
    obtain ⟨rfl, hcolumn⟩ := ofExcept_ok hresolve
    obtain ⟨role, hrole, rfl⟩ := Entity.resolve_eq_ok.1 hcolumn
    have hliterals : SortKey.literals entity ⟨.member name, direction⟩
        = [.string role.column, .boolean direction.isDescending] := by
      simp [SortKey.literals, hrole]
    rw [hliterals]
    exact (does_register _).bind fun _ _ _ => (does_register _).bind fun _ _ _ => does_edit _
  | _ => exact does_refuse _

theorem Clause.does_lower (clause : Clause) (p : Progress) :
    Does (clause.deeds entity p.parameters.length) p (clause.lower entity p) := by
  cases clause with
  | filter predicate =>
    refine (does_compile entity predicate).bind fun q fragment hcompile => ?_
    rw [Expr.fragment_of_ok (compile_ok hcompile).2]
    exact (does_note fragment).bind fun _ _ _ => does_edit _
  | order keys => exact does_forM (SortKey.does_lower entity) keys p

/-- Every clause is gone through behind as many parameters as the clauses ahead of it take. -/
theorem Clause.does_lowerAll : ∀ (clauses : List Clause) (p : Progress),
    Does ((offsets Clause.width p.parameters.length clauses).flatMap
      fun (bound, clause) => clause.deeds entity bound) p (clauses.forM (·.lower entity) p)
  | [], _ => does_pure ()
  | clause :: clauses, p => by
    rw [offsets_cons, List.flatMap_cons]
    refine (Clause.does_lower entity clause p).bind fun q _ hclause => ?_
    -- only behind a clause that was gone through do the others stand where they are counted to
    have hbound : q.parameters.length = p.parameters.length + clause.width := by
      simpa using (Clause.run_of_lower hclause).bound
    rw [← hbound]
    exact Clause.does_lowerAll clauses q

theorem Projection.does_lower (projection : Projection) (p : Progress) :
    Does (projection.deeds entity) p (projection.lower entity p) := by
  cases projection with
  | entity => exact does_pure ()
  | members names =>
    have hnames : Projection.deeds entity (.members names) = names.flatMap fun name =>
        ((Expr.member name).offence? entity).toList.map .refuse ++ [] := by
      simp [Projection.deeds, Projection.offences, List.map_flatMap]
    rw [hnames]
    refine does_forM (fun name p => ?_) names p
    exact (does_resolve entity name).bind fun _ _ _ => does_pure ()

theorem ResultOperator.does_lower (operator : ResultOperator) (p : Progress) :
    Does (operator.deeds settings entity) p (operator.lower settings entity p) := by
  have hedit : ∀ (n : Expr) (f : String → Pipeline → Pipeline),
      Does (n.deeds entity) p ((compile entity n >>= fun x => update (·.edit (f x))) p) := by
    intro n f
    have hdoes := (does_compile entity n (p := p)).bind fun q x _ => does_edit (p := q) (f x)
    rwa [List.append_nil] at hdoes
  cases operator with
  | take n => exact hedit n _
  | skip n => exact hedit n _
  | count =>
    simp only [ResultOperator.lower, ResultOperator.deeds, ResultOperator.offences]
    split
    · exact does_edit _
    · exact does_refuse _
  | _ => exact does_refuse _

end Steps

theorem Query.does_visit (settings : Settings) (registry : Registry) (bucket : String)
    (query : Query) :
    Does (query.deeds settings registry bucket) {} (query.visit settings registry bucket {}) := by
  refine (does_lowerSource settings bucket {}).bind fun q _ hsource => ?_
  have hbound : q.parameters.length = settings.sourceWidth := by
    rw [(lowerSource_ok hsource).1, length_sourceLiterals]
  unfold findEntity
  rcases registry.find? query.entity with _ | entity
  · exact does_refuse _
  · simp only [pure_bind]
    rw [Query.clausesAt, ← hbound]
    exact (Clause.does_lowerAll entity query.body q).bind fun _ _ _ =>
      (Projection.does_lower entity query.projection _).bind fun _ _ _ =>
        does_forM (ResultOperator.does_lower settings entity) query.operators _

/-! ## What the trace shows -/

namespace Event

def isRegistration : Event → Bool
  | .registered _ _ => true
  | _ => false

def fragment? : Event → Option String
  | .compiledFilter fragment => some fragment
  | _ => none

theorem text_registrations (bound : Nat) (values : List Literal) :
    (registrations bound values).map text
      = values.mapIdx fun i value => (registered (bound + i + 1) value).text := by
  induction values generalizing bound with
  | nil => rfl
  | cons value values ih =>
    simp [registrations, List.mapIdx_cons, ih, Nat.add_assoc, Nat.add_comm 1]

theorem length_registrations (bound : Nat) (values : List Literal) :
    (registrations bound values).length = values.length := by
  simpa using congrArg List.length (text_registrations bound values)

end Event

namespace Deed

variable (bound : Nat) (deeds : List Deed)

theorem registrations_events :
    (events bound deeds).filter Event.isRegistration
      = Event.registrations bound (deeds.filterMap literal?) := by
  induction deeds generalizing bound with
  | nil => rfl
  | cons deed deeds ih =>
    cases deed with
    | bind value =>
      rw [events, List.filter_cons_of_pos rfl, ih]
      rfl
    | filter fragment =>
      rw [events, List.filter_cons_of_neg (by simp [Event.isRegistration]), ih]
      rfl
    | refuse refusal => exact ih bound

theorem fragments_events :
    (events bound deeds).filterMap Event.fragment? = deeds.filterMap fragment? := by
  induction deeds generalizing bound with
  | nil => rfl
  | cons deed deeds ih =>
    cases deed with
    | bind value => exact ih (bound + 1)
    | filter fragment => exact congrArg (fragment :: ·) (ih bound)
    | refuse refusal => exact ih bound

theorem fragments_ahead {deeds : List Deed} (h : deeds.filterMap fragment? = []) :
    (ahead deeds).filterMap fragment? = [] := by
  rw [List.filterMap_eq_nil_iff] at h ⊢
  exact fun deed hdeed => h deed ((List.takeWhile_prefix _).subset hdeed)

/-- Nothing else is noted of what is done. -/
theorem mem_events {event : Event} (h : event ∈ events bound deeds) :
    event.isRegistration ∨ event.fragment?.isSome := by
  induction deeds generalizing bound with
  | nil => cases h
  | cons deed deeds ih =>
    cases deed with
    | bind value =>
      rcases List.mem_cons.1 h with rfl | h
      · exact .inl rfl
      · exact ih _ h
    | filter fragment =>
      rcases List.mem_cons.1 h with rfl | h
      · exact .inr rfl
      · exact ih _ h
    | refuse refusal => exact ih _ h

end Deed

section Clauses

variable {entity : Entity}

theorem Clause.refusals_deeds (bound : Nat) (clause : Clause) :
    (clause.deeds entity bound).filterMap Deed.refusal? = clause.offences entity := by
  cases clause with
  | filter predicate =>
    rw [Clause.deeds, List.filterMap_append, Expr.refusals_deeds]
    exact List.append_nil _
  | order keys =>
    simp only [Clause.deeds, Clause.offences, SortKey.deeds, List.filterMap_flatMap,
      List.filterMap_append, Deed.filterMap_refusal?_refuse, Deed.filterMap_refusal?_bind,
      List.append_nil]

theorem Expr.deeds_of_clean {e : Expr} (h : e.offences entity = []) :
    e.deeds entity = e.constants.map .bind := by
  have hahead := e.ahead_deeds entity
  rwa [constantsAhead_of_clean h, Deed.ahead_of_clean (by rw [refusals_deeds, h])] at hahead

theorem Expr.literals_deeds (e : Expr) :
    (e.deeds entity).filterMap Deed.literal? = e.constants := by
  rw [deeds, List.filterMap_filterMap, constants]
  refine List.filterMap_congr fun node _ => ?_
  unfold deed?
  cases node with
  | member name => cases offence? entity (.member name) <;> rfl
  | binary op left right => cases offence? entity (.binary op left right) <;> rfl
  | _ => rfl

theorem Clause.literals_deeds (bound : Nat) (clause : Clause) :
    (clause.deeds entity bound).filterMap Deed.literal? = clause.literals entity := by
  cases clause with
  | filter predicate =>
    rw [Clause.deeds, List.filterMap_append, Expr.literals_deeds]
    exact List.append_nil _
  | order keys =>
    simp only [Clause.deeds, Clause.literals, SortKey.deeds, List.filterMap_flatMap,
      List.filterMap_append, Deed.filterMap_literal?_refuse, Deed.filterMap_literal?_bind,
      List.nil_append]

theorem Expr.fragments_deeds (e : Expr) : (e.deeds entity).filterMap Deed.fragment? = [] := by
  rw [deeds, List.filterMap_filterMap, List.filterMap_eq_nil_iff]
  intro node _
  unfold deed?
  cases node.offence? entity with
  | some refusal => rfl
  | none => cases node.constant? <;> rfl

section Lists

variable (start : Nat) (clauses : List Clause)

theorem Clause.refusals_deedsAll :
    ((offsets Clause.width start clauses).flatMap
      fun (bound, clause) => clause.deeds entity bound).filterMap Deed.refusal?
      = clauses.flatMap (Clause.offences entity) := by
  simp only [List.filterMap_flatMap, Clause.refusals_deeds]
  rw [← List.flatMap_map, map_snd_offsets]

theorem Clause.literals_deedsAll :
    ((offsets Clause.width start clauses).flatMap
      fun (bound, clause) => clause.deeds entity bound).filterMap Deed.literal?
      = clauses.flatMap (Clause.literals entity) := by
  simp only [List.filterMap_flatMap, Clause.literals_deeds]
  rw [← List.flatMap_map, map_snd_offsets]

end Lists

theorem SortKey.fragments_deeds (key : SortKey) :
    (key.deeds entity).filterMap Deed.fragment? = [] := by
  rw [SortKey.deeds, List.filterMap_append, Deed.filterMap_fragment?_refuse,
    Deed.filterMap_fragment?_bind, List.append_nil]

theorem Clause.fragments_deeds (clause : Clause) (bound : Nat) :
    (clause.deeds entity bound).filterMap Deed.fragment? = clause.filterTexts entity bound := by
  cases clause with
  | filter predicate =>
    rw [Clause.deeds, List.filterMap_append, Expr.fragments_deeds]
    rfl
  | order keys =>
    rw [Clause.deeds, List.filterMap_flatMap]
    exact List.flatMap_eq_nil_iff.2 fun key _ => key.fragments_deeds

/-- A clause that is refused is not compiled. -/
theorem Clause.fragments_ahead {clause : Clause} (h : clause.offences entity ≠ []) (bound : Nat) :
    (Deed.ahead (clause.deeds entity bound)).filterMap Deed.fragment? = [] := by
  cases clause with
  | filter predicate =>
    have hrefused : (predicate.deeds entity).filterMap Deed.refusal? ≠ [] := by
      rwa [Expr.refusals_deeds]
    rw [Clause.deeds, Deed.ahead_append_of_refusal hrefused]
    exact Deed.fragments_ahead predicate.fragments_deeds
  | order keys => exact Deed.fragments_ahead (Clause.fragments_deeds (.order keys) bound)

theorem ResultOperator.fragments_deeds (settings : Settings) (operator : ResultOperator) :
    (operator.deeds settings entity).filterMap Deed.fragment? = [] := by
  cases operator with
  | take n => exact n.fragments_deeds
  | skip n => exact n.fragments_deeds
  | _ => exact Deed.filterMap_fragment?_refuse _

/-- The filters that are compiled are those of the clauses ahead of the first with an offence. -/
theorem Clause.fragments_aheadAll {rest : List Deed} (hrest : rest.filterMap Deed.fragment? = [])
    (clauses : List (Nat × Clause)) :
    (Deed.ahead (clauses.flatMap (fun (bound, clause) => clause.deeds entity bound)
        ++ rest)).filterMap Deed.fragment?
      = (clauses.takeWhile fun (_, clause) => clause.offences entity = []).flatMap
        fun (bound, clause) => clause.filterTexts entity bound := by
  induction clauses with
  | nil => exact Deed.fragments_ahead hrest
  | cons first clauses ih =>
    obtain ⟨bound, clause⟩ := first
    have hrefusals : (clause.deeds entity bound).filterMap Deed.refusal? = clause.offences entity :=
      clause.refusals_deeds bound
    rw [List.flatMap_cons, List.append_assoc]
    by_cases hclean : clause.offences entity = []
    · rw [Deed.ahead_append (hrefusals.trans hclean), List.filterMap_append, ih,
        clause.fragments_deeds, List.takeWhile_cons_of_pos (by simpa using hclean),
        List.flatMap_cons]
    · have hrefused : (clause.deeds entity bound).filterMap Deed.refusal? ≠ [] := by
        rwa [hrefusals]
      rw [Deed.ahead_append_of_refusal hrefused, Clause.fragments_ahead hclean,
        List.takeWhile_cons_of_neg (by simpa using hclean), List.flatMap_nil]

end Clauses

section Queries

variable {settings : Settings} {registry : Registry} {bucket : String} {query : Query}
  {entity : Entity}

theorem Query.fragments_deeds (he : registry.find? query.entity = some entity) :
    (Deed.ahead (query.deeds settings registry bucket)).filterMap Deed.fragment?
      = ((query.clausesAt settings).takeWhile fun (_, clause) =>
          clause.offences entity = []).flatMap
        fun (bound, clause) => clause.filterTexts entity bound := by
  have hprojection : (query.projection.deeds entity).filterMap Deed.fragment? = [] :=
    Deed.filterMap_fragment?_refuse _
  have hrest : (query.projection.deeds entity
      ++ query.operators.flatMap (ResultOperator.deeds settings entity)).filterMap Deed.fragment?
      = [] := by
    rw [List.filterMap_append, hprojection, List.nil_append, List.filterMap_flatMap,
      List.flatMap_eq_nil_iff]
    exact fun operator _ => operator.fragments_deeds settings
  simp only [Query.deeds, he]
  rw [Deed.ahead_append (Deed.filterMap_refusal?_bind _), List.filterMap_append,
    Deed.filterMap_fragment?_bind, List.nil_append, Clause.fragments_aheadAll hrest]

/-- A filter behind clauses without offences is noted right behind its constants, and these are
bound right behind the parameters of the source and of those clauses. -/
theorem Query.events_of_filter (he : registry.find? query.entity = some entity)
    {earlier later : List Clause} {predicate : Expr}
    (hbody : query.body = earlier ++ .filter predicate :: later)
    (hearlier : ∀ clause ∈ earlier, clause.offences entity = [])
    (hpredicate : predicate.offences entity = []) {bound : Nat}
    (hbound : bound = settings.sourceWidth + (earlier.map Clause.width).sum) :
    ∃ before after, Deed.events 0 (Deed.ahead (query.deeds settings registry bucket))
        = before ++ (Event.registrations bound predicate.constants
          ++ .compiledFilter (predicate.fragment entity bound) :: after)
      ∧ (before.filter Event.isRegistration).length = bound := by
  generalize hfront : (sourceLiterals settings bucket).map Deed.bind
    ++ (offsets Clause.width settings.sourceWidth earlier).flatMap
      (fun (bound, clause) => clause.deeds entity bound) = front
  have hclean : front.filterMap Deed.refusal? = [] := by
    rw [← hfront, List.filterMap_append, Deed.filterMap_refusal?_bind, List.nil_append,
      Clause.refusals_deedsAll, List.flatMap_eq_nil_iff]
    exact hearlier
  have hlength : (front.filterMap Deed.literal?).length = bound := by
    rw [← hfront, List.filterMap_append, Deed.filterMap_literal?_bind, List.length_append,
      length_sourceLiterals, Clause.literals_deedsAll, Clause.length_flatMap_literals hearlier,
      hbound]
  obtain ⟨others, hdeeds⟩ : ∃ others, query.deeds settings registry bucket
      = front ++ (predicate.constants.map .bind
        ++ (.filter (predicate.fragment entity bound) :: others)) := by
    simp only [Query.deeds, he, Query.clausesAt, hbody, offsets_append, offsets_cons,
      List.flatMap_append, List.flatMap_cons, Clause.deeds, Expr.deeds_of_clean hpredicate,
      ← hbound, ← hfront]
    exact ⟨_, by simp only [List.append_assoc, List.singleton_append]; rfl⟩
  refine ⟨Deed.events 0 front, Deed.events (bound + predicate.constants.length)
    (Deed.ahead others), ?_, ?_⟩
  · rw [hdeeds, Deed.ahead_append hclean, Deed.ahead_append (Deed.filterMap_refusal?_bind _),
      Deed.events_append, Deed.events_append, Deed.events_bind, hlength,
      Deed.filterMap_literal?_bind, Nat.zero_add]
    rfl
  · rw [Deed.registrations_events, Event.length_registrations, hlength]

/-- An offset is lost where there is no limit. -/
theorem Query.lostOffset_pipeline : (query.pipeline settings entity).lostOffset?
    = if query.operators.any (·.isTake) then none else (query.skips settings entity).getLast? := by
  have htake : query.limits settings entity ≠ [] ↔ query.operators.any (·.isTake) :=
    Query.limits_ne_nil_iff
  simp only [Pipeline.lostOffset?, Query.pipeline]
  cases hlimit : (query.limits settings entity).getLast? with
  | none => rw [if_neg (by rw [← htake, not_not]; exact List.getLast?_eq_none_iff.1 hlimit)]
  | some limit =>
    rw [if_pos (htake.1 fun hnil => by rw [hnil] at hlimit; cases hlimit)]

/-- The events at the end of a lowering that succeeds: the offset that is lost, if one is, the query
with the number of its stages, and the number of parameters. -/
def Query.closing (settings : Settings) (entity : Entity) (query : Query) (request : Request) :
    List Event :=
  (if query.operators.any (·.isTake) then []
    else (query.skips settings entity).getLast?.toList.map .offsetLost)
    ++ [.rendered (query.stages settings entity).length request.query,
      .finished request.bindings.body.length]

theorem Query.attempt_of_refused {p : Progress} {refusal : Refusal}
    (h : query.visit settings registry bucket {} = (p, .error refusal)) :
    query.attempt settings registry bucket {} = (p, .error refusal) := by
  rw [Query.attempt_eq, bind_apply, h]

theorem Query.attempt_of_visit {p : Progress}
    (h : query.visit settings registry bucket {} = (p, .ok ())) :
    ∃ entity request, registry.find? query.entity = some entity
      ∧ request.query = " |> ".intercalate (query.stages settings entity)
      ∧ query.attempt settings registry bucket {}
        = ({ p with events := p.events ++ query.closing settings entity request },
          .ok request) := by
  have hattempt : query.attempt settings registry bucket {} = finish p := by
    rw [Query.attempt_eq, bind_apply, h]
  have hlower : (query.lower settings registry bucket).2
      = .ok { query := p.pipeline.text, bindings := p.document } :=
    congrArg Prod.snd hattempt
  obtain ⟨entity, he, hpipeline⟩ := Query.pipeline_of_visit h
  have hstages : p.pipeline.stages = query.stages settings entity := by
    rw [hpipeline, Query.stages_pipeline (Query.Clean.of_lower he hlower).filterTexts_ne_empty]
  have hlost : p.pipeline.lostOffset?.toList.map Event.offsetLost
      = if query.operators.any (·.isTake) then []
        else (query.skips settings entity).getLast?.toList.map .offsetLost := by
    rw [hpipeline, Query.lostOffset_pipeline]
    split <;> rfl
  have hlength : p.document.body.length = p.parameters.length :=
    Progress.length_bindingsFrom 0 p.parameters
  refine ⟨entity, { query := p.pipeline.text, bindings := p.document }, he, ?_, ?_⟩
  · rw [Pipeline.text, hstages]
  · rw [hattempt, Query.closing, hlength, ← hstages, ← hlost, ← List.append_assoc]
    rfl

/-- No closing event is a registration or a filter. -/
theorem Query.closing_apart (request : Request) :
    (query.closing settings entity request).filter Event.isRegistration = []
      ∧ (query.closing settings entity request).filterMap Event.fragment? = [] := by
  rw [List.filter_eq_nil_iff, List.filterMap_eq_nil_iff]
  have hevent : ∀ event ∈ query.closing settings entity request,
      event.isRegistration = false ∧ event.fragment? = none := by
    intro event hmem
    rcases List.mem_append.1 hmem with hlost | hlast
    · split at hlost
      · cases hlost
      · obtain ⟨offset, -, rfl⟩ := List.mem_map.1 hlost
        exact ⟨rfl, rfl⟩
    · simp only [List.mem_cons, List.not_mem_nil, or_false] at hlast
      rcases hlast with rfl | rfl
      · exact ⟨rfl, rfl⟩
      · exact ⟨rfl, rfl⟩
  exact ⟨fun event hmem => by simp [(hevent event hmem).1], fun event hmem => (hevent event hmem).2⟩

/-- A lowering notes what it does, and closes the trace if nothing is refused. -/
theorem Query.lower_eq (settings : Settings) (registry : Registry) (bucket : String)
    (query : Query) :
    let deeds := query.deeds settings registry bucket
    let done := Deed.ahead deeds
    (query.attempt settings registry bucket {}).1.parameters = done.filterMap Deed.literal?
      ∧ ((∃ refusal, deeds.findSome? Deed.refusal? = some refusal
          ∧ query.lower settings registry bucket = (Deed.events 0 done, .error refusal))
        ∨ (done = deeds ∧ ∃ entity request, registry.find? query.entity = some entity
          ∧ request.query = " |> ".intercalate (query.stages settings entity)
          ∧ query.lower settings registry bucket
            = (Deed.events 0 done ++ query.closing settings entity request, .ok request))) := by
  intro deeds done
  obtain ⟨hparameters, hevents, hresult⟩ := query.does_visit settings registry bucket
  unfold Query.lower
  rcases hvisit : query.visit settings registry bucket {} with ⟨p, refusal | _⟩
  · rw [hvisit] at hparameters hevents hresult
    rw [Query.attempt_of_refused hvisit]
    refine ⟨hparameters, .inl ⟨refusal, ?_, ?_⟩⟩
    · rw [← List.head?_filterMap]
      exact (hresult.error_iff refusal).1 rfl
    · exact congrArg (·, _) hevents
  · rw [hvisit] at hparameters hevents hresult
    obtain ⟨entity, request, he, hquery, hattempt⟩ := Query.attempt_of_visit hvisit
    rw [hattempt]
    refine ⟨hparameters, .inr ⟨?_, entity, request, he, hquery, ?_⟩⟩
    · exact Deed.ahead_of_clean (hresult.ok_iff.1 ⟨(), rfl⟩)
    · exact congrArg (· ++ _, _) hevents

section Outcomes

variable {request : Request} {refusal : Refusal}

theorem Query.trace_of_refused (h : (query.lower settings registry bucket).2 = .error refusal) :
    (query.deeds settings registry bucket).findSome? Deed.refusal? = some refusal
      ∧ (query.lower settings registry bucket).1
        = Deed.events 0 (Deed.ahead (query.deeds settings registry bucket)) := by
  obtain ⟨-, ⟨first, hfirst, hlower⟩ | ⟨-, entity, request, -, -, hlower⟩⟩ :=
    query.lower_eq settings registry bucket
  · rw [hlower] at h ⊢
    obtain rfl := Except.error.inj h
    exact ⟨hfirst, rfl⟩
  · rw [hlower] at h
    cases h

theorem Query.trace_of_lower (h : (query.lower settings registry bucket).2 = .ok request) :
    Deed.ahead (query.deeds settings registry bucket) = query.deeds settings registry bucket
      ∧ ∃ entity, registry.find? query.entity = some entity
        ∧ request.query = " |> ".intercalate (query.stages settings entity)
        ∧ (query.lower settings registry bucket).1
          = Deed.events 0 (Deed.ahead (query.deeds settings registry bucket))
            ++ query.closing settings entity request := by
  obtain ⟨-, ⟨refusal, -, hlower⟩ | ⟨hdone, entity, found, he, hquery, hlower⟩⟩ :=
    query.lower_eq settings registry bucket
  · rw [hlower] at h
    cases h
  · rw [hlower] at h ⊢
    obtain rfl := Except.ok.inj h
    exact ⟨hdone, entity, he, hquery, rfl⟩

end Outcomes

/-- However a lowering ends, its registrations and filters are those of what was done. -/
theorem Query.trace_split (settings : Settings) (registry : Registry) (bucket : String)
    (query : Query) :
    ∃ ending, (query.lower settings registry bucket).1
        = Deed.events 0 (Deed.ahead (query.deeds settings registry bucket)) ++ ending
      ∧ ending.filter Event.isRegistration = [] ∧ ending.filterMap Event.fragment? = [] := by
  rcases hresult : (query.lower settings registry bucket).2 with refusal | request
  · exact ⟨[], by rw [(Query.trace_of_refused hresult).2, List.append_nil], rfl, rfl⟩
  · obtain ⟨-, entity, -, -, htrace⟩ := Query.trace_of_lower hresult
    exact ⟨_, htrace, Query.closing_apart request⟩

/-- The trace of a lowering tells what was done. The registrations are those of the literals ahead
of the first refusal, numbered from 1. A filter is noted once if nothing up to its end is refused:
right behind the registrations of its constants, with the fragment that refers to them. A lowering
that is refused notes nothing more, and one that succeeds ends with the closing events. -/
theorem Query.trace_tells_lowering (settings : Settings) (registry : Registry) (bucket : String)
    (query : Query) :
    let events := (query.lower settings registry bucket).1
    let result := (query.lower settings registry bucket).2
    let done := Deed.ahead (query.deeds settings registry bucket)
    let values := done.filterMap Deed.literal?
    (query.attempt settings registry bucket {}).1.parameters = values
      ∧ (events.filter Event.isRegistration).map Event.text = values.mapIdx (fun i value =>
        "DEBUG Registered query parameter name=" ++ ("p" ++ Text.Numeral.ofNat (i + 1))
          ++ " kind=" ++ value.kind ++ " value=" ++ value.inline)
      ∧ (∀ entity, registry.find? query.entity = some entity →
        events.filterMap Event.fragment?
            = ((query.clausesAt settings).takeWhile fun (_, clause) =>
                clause.offences entity = []).flatMap
              (fun (bound, clause) => clause.filterTexts entity bound)
          ∧ ∀ earlier predicate later, query.body = earlier ++ .filter predicate :: later →
            (∀ clause ∈ earlier, clause.offences entity = []) → predicate.offences entity = [] →
            let bound := settings.sourceWidth + (earlier.map Clause.width).sum
            ∃ before after, events = before ++ (Event.registrations bound predicate.constants
                ++ .compiledFilter (predicate.fragment entity bound) :: after)
              ∧ (before.filter Event.isRegistration).length = bound)
      ∧ (∀ refusal, result = .error refusal →
        (query.deeds settings registry bucket).findSome? Deed.refusal? = some refusal
          ∧ events = Deed.events 0 done
          ∧ ∀ event ∈ events, event.isRegistration ∨ event.fragment?.isSome)
      ∧ ∀ request, result = .ok request →
        done = query.deeds settings registry bucket
          ∧ ∃ entity, registry.find? query.entity = some entity
            ∧ request.query = " |> ".intercalate (query.stages settings entity)
            ∧ events = Deed.events 0 done ++ query.closing settings entity request := by
  intro events result done values
  obtain ⟨ending, (hevents : events = Deed.events 0 done ++ ending), hregistered, hfiltered⟩ :=
    query.trace_split settings registry bucket
  refine ⟨(query.lower_eq settings registry bucket).1, ?_, ?_, ?_, fun _ => Query.trace_of_lower⟩
  · rw [hevents, List.filter_append, hregistered, List.append_nil, Deed.registrations_events,
      Event.text_registrations]
    simp only [Nat.zero_add]
    rfl
  · intro entity he
    refine ⟨?_, ?_⟩
    · rw [hevents, List.filterMap_append, hfiltered, List.append_nil, Deed.fragments_events,
        Query.fragments_deeds he]
    · intro earlier predicate later hbody hearlier hpredicate
      obtain ⟨before, after, htrace, hlength⟩ :=
        Query.events_of_filter he hbody hearlier hpredicate rfl
      refine ⟨before, after ++ ending, ?_, hlength⟩
      rw [hevents, htrace, List.append_assoc, List.append_assoc, List.cons_append]
  · intro refusal hresult
    obtain ⟨hfirst, (htrace : events = Deed.events 0 done)⟩ := Query.trace_of_refused hresult
    refine ⟨hfirst, htrace, fun event hevent => ?_⟩
    rw [htrace] at hevent
    exact Deed.mem_events 0 done hevent

/-- A skip without a take, and the same behind a refusal. -/
example :
    let query : Query :=
      { entity := "Sensor"
        body := [.filter (.binary .equal (.member "Id") (.constant (.string "a")))]
        operators := [.skip (.constant (.integer 2))] }
    let steps :=
      ["DEBUG Registered query parameter name=p1 kind=string value=b",
       "DEBUG Registered query parameter name=p2 kind=integer value=0",
       "DEBUG Registered query parameter name=p3 kind=string value=a",
       "DEBUG Compiled where clause filter=r[\"id\"] == p3",
       "DEBUG Registered query parameter name=p4 kind=integer value=2"]
    (query.lower {} sampleRegistry "b").1.map Event.text
        = steps ++ ["WARN Skip without Take: offset is dropped from the pipeline offset=p4",
          "DEBUG Rendered Flux pipeline stages=4 query=from(bucket: p1) |> range(start: p2) |> "
            ++ "pivot(rowKey:[\"_time\"], columnKey: [\"_field\"], valueColumn: \"_value\") |> "
            ++ "filter(fn: (r) => (r[\"id\"] == p3))",
          "DEBUG Translated query parameters=4"]
      ∧ ((query.apply .first).lower {} sampleRegistry "b").1.map Event.text = steps := by
  decide +kernel

end Queries

end EntityFlux
