import EntityFlux.Proofs.Commuting

/-!
# Regrouping clauses

Keys that are given to several orderings one after the other are lowered as if one ordering had
them all, whatever comes of it. A filter by a conjunction can be split into two filters: the same
parameters are bound and the same is refused, and the text loses one pair of parentheses, that
around the conjunction.
-/

namespace EntityFlux

open Flux Attempt

/-! ## Orderings -/

instance : LawfulMonad Attempt :=
  LawfulMonad.mk' Attempt
    (fun a => funext fun p => by
      change (match a p with
        | (q, .ok x) => (q, .ok x)
        | (q, .error refusal) => (q, .error refusal)) = a p
      rcases a p with ⟨q, refusal | x⟩ <;> rfl)
    (fun _ _ => rfl)
    (fun a f g => funext fun p => by
      simp only [bind_apply]
      rcases a p with ⟨q, refusal | x⟩ <;> rfl)

theorem Clause.forM_lower_append (entity : Entity) (clauses more : List Clause) :
    (clauses ++ more).forM (·.lower entity)
      = clauses.forM (·.lower entity) >>= fun _ => more.forM (·.lower entity) :=
  List.forM_append

/-- Orderings one after the other are one ordering by all their keys. -/
theorem Clause.forM_lower_orders (entity : Entity) (groups : List (List SortKey)) :
    (groups.map Clause.order).forM (·.lower entity)
      = (Clause.order groups.flatten).lower entity := by
  induction groups with
  | nil => rfl
  | cons group groups ih =>
    have happend : (Clause.order (group ++ groups.flatten)).lower entity
        = (Clause.order group).lower entity
          >>= fun _ => (Clause.order groups.flatten).lower entity := List.forM_append
    rw [List.flatten_cons, happend, ← ih]
    rfl

theorem Query.lower_orders (settings : Settings) (registry : Registry) (bucket : String)
    (query : Query) (before after : List Clause) (groups : List (List SortKey)) :
    ({ query with body := before ++ (groups.map .order ++ after) } : Query).lower settings registry
        bucket
      = ({ query with body := before ++ .order groups.flatten :: after } : Query).lower settings
        registry bucket := by
  have hcons : ∀ entity, (Clause.order groups.flatten :: after).forM (·.lower entity)
      = (Clause.order groups.flatten).lower entity >>= fun _ => after.forM (·.lower entity) :=
    fun _ => rfl
  simp only [Query.lower, Query.attempt, Clause.forM_lower_append, Clause.forM_lower_orders, hcons]

/-! ## Conjunctions -/

theorem intercalate_append_cons (sep : String) (front : List String) (text : String)
    (rear : List String) :
    sep.intercalate (front ++ text :: rear)
      = String.join (front.map (· ++ sep)) ++ (text ++ String.join (rear.map (sep ++ ·))) := by
  induction front generalizing text with
  | nil =>
    induction rear generalizing text with
    | nil => simp
    | cons next rear ih =>
      have hnext := ih next
      simp only [List.nil_append, List.map_nil, String.join_nil, String.empty_append] at hnext ⊢
      rw [String.intercalate_cons_cons, hnext, List.map_cons, String.join_cons]
      simp only [String.append_assoc]
  | cons first front ih =>
    obtain ⟨next, more, hmore⟩ : ∃ next more, front ++ text :: rear = next :: more :=
      List.exists_cons_of_ne_nil (by simp)
    rw [List.cons_append, hmore, String.intercalate_cons_cons, ← hmore, ih, List.map_cons,
      String.join_cons]
    simp only [String.append_assoc]

namespace Stage

def filterBy (body : String) : String := "filter(fn: (r) => " ++ body ++ ")"

/-- Predicates with more to come. -/
def conjunctsAhead (texts : List String) : String :=
  String.join (texts.map fun text => "(" ++ text ++ ") and ")

/-- Predicates with others ahead of them. -/
def conjunctsBehind (texts : List String) : String :=
  String.join (texts.map fun text => " and (" ++ text ++ ")")

theorem filter_eq_filterBy {texts : List String} (h : texts ≠ []) :
    filter texts = [filterBy (" and ".intercalate (texts.map fun text => "(" ++ text ++ ")"))] := by
  cases texts with
  | nil => exact absurd rfl h
  | cons text texts => rfl

theorem intercalate_conjuncts (front : List String) (text : String) (rear : List String) :
    " and ".intercalate ((front ++ text :: rear).map fun text => "(" ++ text ++ ")")
      = conjunctsAhead front ++ ("(" ++ text ++ ")" ++ conjunctsBehind rear) := by
  have hahead : ∀ text, "(" ++ text ++ ")" ++ " and " = "(" ++ text ++ ") and " := by
    simp [← String.toList_inj]
  have hbehind : ∀ text, " and " ++ ("(" ++ text ++ ")") = " and (" ++ text ++ ")" := by
    simp [← String.toList_inj]
  rw [List.map_append, List.map_cons, intercalate_append_cons]
  simp only [conjunctsAhead, conjunctsBehind, List.map_map, Function.comp_def, hahead, hbehind]

/-- A conjunction in the filter stage has one pair of parentheses more than its two parts. -/
theorem filter_split (front rear : List String) (left right : String) :
    filter (front ++ ("(" ++ left ++ ") and (" ++ right ++ ")") :: rear)
        = [filterBy (conjunctsAhead front
          ++ ("((" ++ left ++ ") and (" ++ right ++ "))" ++ conjunctsBehind rear))]
      ∧ filter (front ++ left :: right :: rear)
        = [filterBy (conjunctsAhead front
          ++ ("(" ++ left ++ ") and (" ++ right ++ ")" ++ conjunctsBehind rear))] := by
  have hjoined : "(" ++ ("(" ++ left ++ ") and (" ++ right ++ ")") ++ ")"
      = "((" ++ left ++ ") and (" ++ right ++ "))" := by
    simp [← String.toList_inj]
  have hsplit : ∀ rest, "(" ++ left ++ ")" ++ (" and (" ++ right ++ ")" ++ rest)
      = "(" ++ left ++ ") and (" ++ right ++ ")" ++ rest := by
    simp [← String.toList_inj]
  have hbehind : conjunctsBehind (right :: rear)
      = " and (" ++ right ++ ")" ++ conjunctsBehind rear := String.join_cons
  constructor
  · rw [filter_eq_filterBy (by simp), intercalate_conjuncts, hjoined]
  · rw [filter_eq_filterBy (by simp), intercalate_conjuncts, hbehind, hsplit]

end Stage

section Splitting

variable {settings : Settings} {registry : Registry} {entity : Entity} {query query' : Query}
  {a b : Expr}

theorem Query.offences_split (settings : Settings) (registry : Registry) (query : Query)
    (before after : List Clause) (a b : Expr) :
    ({ query with body := before ++ .filter a :: .filter b :: after } : Query).offences settings
        registry
      = ({ query with body := before ++ .filter (.binary .andAlso a b) :: after } : Query).offences
        settings registry := by
  have hboth : ∀ entity, (Expr.binary .andAlso a b).offences entity
      = a.offences entity ++ b.offences entity := fun _ => Expr.offences_binary rfl
  unfold Query.offences
  simp only [List.flatMap_append, List.flatMap_cons, Clause.offences, hboth, List.append_assoc]

theorem Symbol.join_and (left right : String) :
    (Symbol.connective "and").join left right = "(" ++ left ++ ") and (" ++ right ++ ")" := by
  have hbetween : (Symbol.connective "and").between = ") and (" := by decide
  rw [Symbol.join_eq, hbetween]
  simp only [Symbol.before, Symbol.after, String.append_assoc]

theorem Expr.fragment_andAlso (ha : a.offences entity = []) (hb : b.offences entity = [])
    (bound : Nat) :
    (Expr.binary .andAlso a b).fragment entity bound
      = "(" ++ a.fragment entity bound ++ ") and ("
        ++ b.fragment entity (bound + a.constants.length) ++ ")" := by
  have hok := compile_eq_fragment ha bound
  have hcompile : (Expr.binary .andAlso a b).compile entity bound = _ :=
    compile_binary_of_ok rfl hok
  refine fragment_of_ok ?_
  rw [hcompile, literals_of_ok hok, compile_eq_fragment hb, ← Symbol.join_and]
  rfl

/-- How many parameters stand ahead of what follows these clauses. -/
def Settings.widthAhead (settings : Settings) (clauses : List Clause) : Nat :=
  settings.sourceWidth + (clauses.map Clause.width).sum

/-- The texts of the filters among clauses behind `start` parameters. -/
def Clause.filterTextsFrom (entity : Entity) (start : Nat) (clauses : List Clause) : List String :=
  (offsets Clause.width start clauses).flatMap fun (bound, clause) =>
    clause.filterTexts entity bound

theorem Clause.filterTextsFrom_filter (predicate : Expr) (start : Nat) (clauses : List Clause) :
    filterTextsFrom entity start (.filter predicate :: clauses)
      = predicate.fragment entity start
        :: filterTextsFrom entity (start + predicate.constants.length) clauses := by
  rw [filterTextsFrom, offsets_cons, List.flatMap_cons]
  rfl

theorem Query.filterTexts_append (before more : List Clause) :
    ({ query with body := before ++ more } : Query).filterTexts settings entity
      = Clause.filterTextsFrom entity settings.sourceWidth before
        ++ Clause.filterTextsFrom entity (settings.widthAhead before) more := by
  rw [Query.filterTexts, Query.clausesAt, offsets_append, List.flatMap_append]
  rfl

/-- Queries that order alike, and whose operators are the same behind as many parameters, differ in
the filter stage alone. -/
theorem Query.stages_around (entity : Entity)
    (hsorts : query.sortBounds settings = query'.sortBounds settings)
    (hoperators : query.operatorsAt settings = query'.operatorsAt settings)
    (hcounts : query.operators = query'.operators) :
    ∃ ahead behind,
      query.stages settings entity
        = ahead ++ (Stage.filter (query.filterTexts settings entity) ++ behind)
      ∧ query'.stages settings entity
        = ahead ++ (Stage.filter (query'.filterTexts settings entity) ++ behind) := by
  refine ⟨["from(bucket: p1)", Stage.range settings.rangeStop.isSome]
      ++ Stage.drop settings.dropColumns ++ [Stage.pivot],
    (query.sortBounds settings).map Stage.sort
      ++ (Stage.limit (query.limits settings entity).getLast? (query.skips settings entity).getLast?
        ++ if query.operators.any (·.counts) then Stage.count else []), ?_, ?_⟩
  · simp only [Query.stages, List.append_assoc]
  · simp only [Query.stages, Query.limits, Query.skips, hsorts, hoperators, hcounts,
      List.append_assoc]

/-- The stages of a conjunction and those of its two parts, up to one pair of parentheses. -/
theorem Query.stages_split (ha : a.offences entity = []) (hb : b.offences entity = [])
    (settings : Settings) (query : Query) (before after : List Clause) :
    ∃ ahead rear behind,
      let front := Stage.conjunctsAhead
        (Clause.filterTextsFrom entity settings.sourceWidth before)
      let left := a.fragment entity (settings.widthAhead before)
      let right := b.fragment entity (settings.widthAhead before + a.constants.length)
      ({ query with body := before ++ .filter (.binary .andAlso a b) :: after } : Query).stages
          settings entity
        = ahead ++ Stage.filterBy (front ++ ("((" ++ left ++ ") and (" ++ right ++ "))" ++ rear))
          :: behind
      ∧ ({ query with body := before ++ .filter a :: .filter b :: after } : Query).stages
          settings entity
        = ahead ++ Stage.filterBy (front ++ ("(" ++ left ++ ") and (" ++ right ++ ")" ++ rear))
          :: behind := by
  have hsorts : ({ query with
        body := before ++ .filter (.binary .andAlso a b) :: after } : Query).sortBounds settings
      = ({ query with body := before ++ .filter a :: .filter b :: after } : Query).sortBounds
        settings := by
    simp [Query.sortBounds, Query.clausesAt, offsets_append, Clause.sortBounds, Clause.width,
      Expr.constants_binary, Nat.add_assoc]
  have hoperators : ({ query with
        body := before ++ .filter (.binary .andAlso a b) :: after } : Query).operatorsAt settings
      = ({ query with body := before ++ .filter a :: .filter b :: after } : Query).operatorsAt
        settings := by
    simp [Query.operatorsAt, Clause.width, Expr.constants_binary, Nat.add_assoc]
  obtain ⟨ahead, behind, hjoined, hsplit⟩ := Query.stages_around entity hsorts hoperators rfl
  obtain ⟨hfilter, hfilters⟩ := Stage.filter_split
    (Clause.filterTextsFrom entity settings.sourceWidth before)
    (Clause.filterTextsFrom entity
      (settings.widthAhead before + a.constants.length + b.constants.length) after)
    (a.fragment entity (settings.widthAhead before))
    (b.fragment entity (settings.widthAhead before + a.constants.length))
  refine ⟨ahead, Stage.conjunctsBehind (Clause.filterTextsFrom entity
    (settings.widthAhead before + a.constants.length + b.constants.length) after), behind, ?_, ?_⟩
  · rw [hjoined, Query.filterTexts_append, Clause.filterTextsFrom_filter,
      Expr.fragment_andAlso ha hb, Expr.constants_binary, List.length_append, ← Nat.add_assoc,
      hfilter, List.singleton_append]
  · rw [hsplit, Query.filterTexts_append, Clause.filterTextsFrom_filter,
      Clause.filterTextsFrom_filter, hfilters, List.singleton_append]

/-- Requests for the same literals of the same entity differ in their text alone. -/
theorem Query.request_eq_of_literals {bucket : String} {request request' : Request}
    (he : registry.find? query.entity = some entity)
    (he' : registry.find? query'.entity = some entity)
    (h : (query.lower settings registry bucket).2 = .ok request)
    (h' : (query'.lower settings registry bucket).2 = .ok request')
    (hliterals : query.literals settings entity bucket = query'.literals settings entity bucket) :
    { request with query := request'.query } = request' := by
  have hbindings : request.bindings = request'.bindings := by
    rw [Query.bindings_of_entity he h, Query.bindings_of_entity he' h', hliterals]
  have hdialect : request.dialect = request'.dialect := by
    rw [Query.dialect_of_lower h, Query.dialect_of_lower h']
  rw [hbindings, hdialect]

end Splitting

/-- Regrouping clauses changes nothing that matters. Orderings one after the other are lowered as
the one ordering that has all their keys, and a conjunction is lowered as its two parts, up to the
parentheses around it in the filter. -/
theorem Query.regrouping_keeps_request (settings : Settings) (registry : Registry)
    (bucket : String) (query : Query) (before after : List Clause) :
    (∀ groups : List (List SortKey),
      ({ query with body := before ++ (groups.map .order ++ after) } : Query).lower settings
          registry bucket
        = ({ query with body := before ++ .order groups.flatten :: after } : Query).lower settings
          registry bucket)
    ∧ ∀ a b : Expr,
      let joined : Query := { query with body := before ++ .filter (.binary .andAlso a b) :: after }
      let split : Query := { query with body := before ++ .filter a :: .filter b :: after }
      (∃ refusal, (joined.lower settings registry bucket).2 = .error refusal
        ∧ (split.lower settings registry bucket).2 = .error refusal)
      ∨ ∃ request text entity left right ahead rear behind,
        (joined.lower settings registry bucket).2 = .ok request
        ∧ (split.lower settings registry bucket).2 = .ok { request with query := text }
        ∧ registry.find? query.entity = some entity
        ∧ (a.compile entity (settings.widthAhead before)).result = .ok left
        ∧ (b.compile entity (settings.widthAhead before + a.constants.length)).result = .ok right
        ∧ let front := Stage.conjunctsAhead
            (Clause.filterTextsFrom entity settings.sourceWidth before)
          request.query = " |> ".intercalate (ahead ++ Stage.filterBy
            (front ++ ("((" ++ left ++ ") and (" ++ right ++ "))" ++ rear)) :: behind)
          ∧ text = " |> ".intercalate (ahead ++ Stage.filterBy
            (front ++ ("(" ++ left ++ ") and (" ++ right ++ ")" ++ rear)) :: behind) := by
  refine ⟨fun groups => ?_, fun a b => ?_⟩
  · exact Query.lower_orders settings registry bucket query before after groups
  · intro joined split
    have hoffences : split.offences settings registry = joined.offences settings registry :=
      Query.offences_split settings registry query before after a b
    rcases hall : joined.offences settings registry with _ | ⟨refusal, rest⟩
    · right
      obtain ⟨request, hrequest⟩ := Query.lower_of_offences hall bucket
      obtain ⟨request', hrequest'⟩ := Query.lower_of_offences (hoffences.trans hall) bucket
      obtain ⟨entity, hlowered⟩ := Query.lowered_of_lower hrequest
      obtain ⟨entity', hlowered'⟩ := Query.lowered_of_lower hrequest'
      obtain rfl : entity = entity' := Option.some.inj (hlowered.found.symm.trans hlowered'.found)
      have hclean := Query.Clean.of_lower hlowered'.found hrequest'
      have ha := hclean.clauses (.filter a) (by simp [split])
      have hb := hclean.clauses (.filter b) (by simp [split])
      obtain ⟨ahead, rear, behind, hstages, hstages'⟩ :=
        Query.stages_split ha hb settings query before after
      refine ⟨request, request'.query, entity, _, _, ahead, rear, behind, hrequest, ?_,
        hlowered.found, Expr.compile_eq_fragment ha _, Expr.compile_eq_fragment hb _, ?_, ?_⟩
      · have hliterals : joined.literals settings entity bucket
            = split.literals settings entity bucket := by
          simp [joined, split, Query.literals, Clause.literals, Expr.constants_binary]
        rw [hrequest', Query.request_eq_of_literals hlowered.found hlowered'.found hrequest
          hrequest' hliterals]
      · rw [hlowered.text, hstages]
      · rw [hlowered'.text, hstages']
    · have hjoined := joined.offends_attempt settings registry bucket {}
      have hsplit := split.offends_attempt settings registry bucket {}
      rw [hall] at hjoined
      rw [hoffences, hall] at hsplit
      exact .inl ⟨refusal, hjoined, hsplit⟩

end EntityFlux
