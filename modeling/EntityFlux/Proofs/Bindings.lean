import EntityFlux.Proofs.Attempt
import EntityFlux.Proofs.Nodes
import Mathlib.Data.List.Nodup

/-!
# Bindings

The document of a lowered query binds the literals of the query and nothing else: one statement for
each, in reading order, under the names `p1`, `p2` and so on. The names differ, so a name leads
back to its position (`find?_of_nodup`).
-/

namespace EntityFlux

open Flux

theorem parameterName_injective : Function.Injective parameterName := by
  intro m n h
  have hd : Nat.toDigits 10 m = Nat.toDigits 10 n := by
    have hl := congrArg String.toList h
    simpa [parameterName, Text.Numeral.ofNat] using hl
  rw [← Nat.ofDigitChars_ten_toDigits (n := m), hd, Nat.ofDigitChars_ten_toDigits]

/-- What a literal is written as in a document, kind by kind: whole numbers and date-times as their
text, durations part by part, and all others as they are. -/
inductive Flux.Node.Holds : Node → Literal → Prop
  | string (s : String) : Holds (.string s) (.string s)
  | integer (i : Int64) : Holds (.integer (toString i.toInt)) (.integer i)
  | float (x : Binary64) : Holds (.float x) (.float x)
  | duration (span : Span) : Holds (.duration span.parts) (.duration span)
  | boolean (b : Bool) : Holds (.boolean b) (.boolean b)
  | dateTime (t : Instant) : Holds (.dateTime t.text) (.dateTime t)

theorem Text.Numeral.ofInt_eq_toString (i : Int) : ofInt i = toString i := by
  cases i with
  | ofNat n => rfl
  | negSucc n => rfl

theorem Flux.Node.holds_ofLiteral (value : Literal) : (ofLiteral value).Holds value := by
  cases value with
  | string s => exact .string s
  | integer i =>
    rw [ofLiteral, Text.Numeral.ofInt_eq_toString]
    exact .integer i
  | float x => exact .float x
  | duration span => exact .duration span
  | boolean b => exact .boolean b
  | dateTime t => exact .dateTime t

section Document

theorem Progress.holds_bindingsFrom (bound : Nat) (values : List Literal) :
    List.Forall₂ (fun binding value => binding.value.Holds value) (bindingsFrom bound values)
      values := by
  induction values generalizing bound with
  | nil => exact .nil
  | cons value rest ih => exact .cons (Node.holds_ofLiteral value) (ih (bound + 1))

theorem Progress.bindingsFrom_eq (bound : Nat) (values : List Literal) :
    bindingsFrom bound values = values.mapIdx fun i value =>
      ⟨parameterName (bound + i + 1), Node.ofLiteral value⟩ := by
  induction values generalizing bound with
  | nil => rfl
  | cons value rest ih =>
    rw [bindingsFrom, ih, List.mapIdx_cons]
    simp only [Nat.add_zero, Nat.add_assoc, Nat.add_comm 1]

theorem Progress.names_bindingsFrom (bound : Nat) (values : List Literal) :
    (bindingsFrom bound values).map (·.name)
      = (List.range' (bound + 1) values.length).map parameterName := by
  induction values generalizing bound with
  | nil => rfl
  | cons value rest ih => simp [bindingsFrom, ih, List.range'_succ]

theorem Progress.bindingsFrom_append (bound : Nat) (values rest : List Literal) :
    bindingsFrom bound (values ++ rest)
      = bindingsFrom bound values ++ bindingsFrom (bound + values.length) rest := by
  induction values generalizing bound with
  | nil => rfl
  | cons value values ih => simp [bindingsFrom, ih, Nat.add_comm, Nat.add_left_comm]

variable {document : Document}

/-- Where no name is bound twice, the value found under a name is the one at its position. -/
theorem Document.find?_of_nodup (h : (document.body.map (·.name)).Nodup) {i : Nat}
    {binding : Binding} (hi : document.body[i]? = some binding) :
    document.find? binding.name = document.at? i := by
  obtain ⟨package, imports, body⟩ := document
  simp only [Document.find?, Document.at?] at h hi ⊢
  rw [hi]
  induction body generalizing i with
  | nil => simp at hi
  | cons first rest ih =>
    simp only [List.map_cons, List.nodup_cons] at h
    cases i with
    | zero =>
      simp only [List.getElem?_cons_zero, Option.some.injEq] at hi
      simp [hi]
    | succ i =>
      simp only [List.getElem?_cons_succ] at hi
      have hne : first.name ≠ binding.name := by
        intro heq
        apply h.1
        rw [heq]
        exact List.mem_map_of_mem (List.mem_of_getElem? hi)
      rw [List.find?_cons_of_neg (by simp [hne])]
      exact ih h.2 hi

theorem Document.find?_eq_none {name : String} (h : name ∉ document.body.map (·.name)) :
    document.find? name = none := by
  unfold Document.find?
  rw [Option.map_eq_none_iff, List.find?_eq_none]
  intro binding hb hn
  exact h (List.mem_map.2 ⟨binding, hb, of_decide_eq_true hn⟩)

/-- The name of a parameter leads to the value at its position, as long as there is one. -/
theorem Progress.find?_bindingsFrom (values : List Literal) (i : Nat) :
    Document.find? { body := bindingsFrom 0 values } (parameterName (i + 1))
      = values[i]?.map Node.ofLiteral := by
  rcases hi : values[i]? with _ | value
  · refine Document.find?_eq_none fun hmem => ?_
    rw [names_bindingsFrom, List.mem_map_of_injective parameterName_injective,
      List.mem_range'_1] at hmem
    have hlength := List.getElem?_eq_none_iff.1 hi
    omega
  · have hnodup : ((bindingsFrom 0 values).map (·.name)).Nodup := by
      rw [names_bindingsFrom]
      exact List.Nodup.map parameterName_injective (List.nodup_range' 1)
    have hbinding : (bindingsFrom 0 values)[i]?
        = some ⟨parameterName (i + 1), Node.ofLiteral value⟩ := by
      rw [bindingsFrom_eq, List.getElem?_mapIdx, hi, Option.map_some, Nat.zero_add]
    have hfind := @Document.find?_of_nodup { body := bindingsFrom 0 values } hnodup i _ hbinding
    rw [hfind, Document.at?, hbinding]
    rfl

end Document

/-- The column that a sort key stands for, and its direction. -/
def SortKey.literals (entity : Entity) (key : SortKey) : List Literal :=
  match key.expr with
  | .member name => (entity.role? name).toList.flatMap fun role =>
      [.string role.column, .boolean key.direction.isDescending]
  | _ => []

def Clause.literals (entity : Entity) : Clause → List Literal
  | .filter predicate => predicate.constants
  | .order keys => keys.flatMap (SortKey.literals entity)

def ResultOperator.literals : ResultOperator → List Literal
  | .take n => n.constants
  | .skip n => n.constants
  | _ => []

/-- The literals of a query in reading order; its projection has none. -/
def Query.literals (settings : Settings) (entity : Entity) (bucket : String) (query : Query) :
    List Literal :=
  sourceLiterals settings bucket ++ (query.body.flatMap (Clause.literals entity)
    ++ query.operators.flatMap ResultOperator.literals)

namespace Attempt

/-- Whenever the attempt succeeds, it has bound these values behind those that were bound. -/
def Binds {α : Type} (a : Attempt α) (values : List Literal) : Prop :=
  ∀ {p p' : Progress} {x : α}, a p = (p', .ok x) → p'.parameters = p.parameters ++ values

theorem binds_forM {ι : Type} {step : ι → Attempt Unit} {values : ι → List Literal}
    (h : ∀ i, (step i).Binds (values i)) (items : List ι) :
    (items.forM step).Binds (items.flatMap values) := by
  refine forM_run (motive := fun items p p' => p'.parameters = p.parameters ++ items.flatMap values)
    (fun p => by simp) ?_ items
  intro i items p q p' h₁ ih
  rw [ih, h i h₁, List.flatMap_cons, List.append_assoc]

end Attempt

section Steps

variable (settings : Settings) (entity : Entity)

theorem SortKey.binds_lower (key : SortKey) :
    (key.lower entity).Binds (key.literals entity) := by
  intro p p' _ h
  obtain ⟨name, role, he, hr, rfl⟩ := SortKey.lower_ok h
  simp [SortKey.literals, he, hr]

theorem Clause.binds_lower (clause : Clause) :
    (clause.lower entity).Binds (clause.literals entity) := by
  cases clause with
  | filter predicate =>
    intro p p' _ h
    obtain ⟨fragment, hf, rfl⟩ := Clause.lower_filter_ok h
    simp [Clause.literals, Expr.literals_of_ok hf]
  | order keys => exact Attempt.binds_forM (SortKey.binds_lower entity) keys

theorem ResultOperator.binds_lower (operator : ResultOperator) :
    (operator.lower settings entity).Binds operator.literals := by
  intro p p' _ h
  obtain ⟨n, limit, rfl, hl, rfl⟩ | ⟨n, offset, rfl, ho, rfl⟩ | ⟨rfl, -, rfl⟩ :=
    ResultOperator.lower_ok h
  · simp [ResultOperator.literals, Expr.literals_of_ok hl]
  · simp [ResultOperator.literals, Expr.literals_of_ok ho]
  · simp [ResultOperator.literals]

end Steps

theorem Query.bindings_of_lower {settings : Settings} {registry : Registry} {bucket : String}
    {query : Query} {request : Request}
    (h : (query.lower settings registry bucket).2 = .ok request) :
    ∃ entity, registry.find? query.entity = some entity
      ∧ request.bindings =
        { body := Progress.bindingsFrom 0 (query.literals settings entity bucket) } := by
  obtain ⟨entity, p₀, p₁, p₂, he, hs, -, h₁, h₂, rfl⟩ := Query.lower_ok h
  refine ⟨entity, he, ?_⟩
  have hb := Attempt.binds_forM (Clause.binds_lower entity) query.body h₁
  have ho := Attempt.binds_forM (ResultOperator.binds_lower settings entity) query.operators h₂
  rw [hb, hs, List.append_assoc] at ho
  rw [Progress.document, ho, Query.literals]

theorem Query.dialect_of_lower {settings : Settings} {registry : Registry} {bucket : String}
    {query : Query} {request : Request}
    (h : (query.lower settings registry bucket).2 = .ok request) : request.dialect = {} := by
  obtain ⟨entity, p₀, p₁, p₂, -, -, -, -, -, rfl⟩ := Query.lower_ok h
  rfl

/-- The document binds the literals of the query in reading order, the i-th under `p` and the
number i, and each statement holds its literal in the form of its kind. No two names are the same,
so each leads to the value at its position, and no other name leads anywhere. -/
theorem Query.document_binds_literals {settings : Settings} {registry : Registry}
    {bucket : String} {query : Query} {request : Request}
    (h : (query.lower settings registry bucket).2 = .ok request) :
    ∃ entity, registry.find? query.entity = some entity
      ∧ request.bindings =
        { body := (query.literals settings entity bucket).mapIdx fun i value =>
            ⟨"p" ++ Text.Numeral.ofNat (i + 1), Node.ofLiteral value⟩ }
      ∧ List.Forall₂ (fun binding value => binding.value.Holds value) request.bindings.body
        (query.literals settings entity bucket)
      ∧ (request.bindings.body.map (·.name)).Nodup
      ∧ (∀ i binding, request.bindings.body[i]? = some binding →
        request.bindings.find? binding.name = request.bindings.at? i)
      ∧ ∀ name ∉ request.bindings.body.map (·.name), request.bindings.find? name = none := by
  obtain ⟨entity, he, hb⟩ := Query.bindings_of_lower h
  have hnodup : (request.bindings.body.map (·.name)).Nodup := by
    rw [hb, Progress.names_bindingsFrom]
    exact List.Nodup.map parameterName_injective (List.nodup_range' 1)
  refine ⟨entity, he, ?_, ?_, hnodup, ?_, ?_⟩
  · rw [hb, Progress.bindingsFrom_eq]
    simp only [Nat.zero_add]
    rfl
  · rw [hb]
    exact Progress.holds_bindingsFrom 0 _
  · intro i binding hi
    exact Document.find?_of_nodup hnodup hi
  · intro name hn
    exact Document.find?_eq_none hn

/-! A query in which everything occurs that binds a parameter. -/

def sampleSettings : Settings where
  dropColumns := ["_start"]
  countResult := true
  rangeStop := some 86400

def sampleRegistry : Registry :=
  [("Sensor", { name := "Sensor", members := [("Id", .tag "id"), ("Value", .field "data")] })]

def sampleQuery : Query where
  entity := "Sensor"
  body :=
    [.filter (.binary .orElse (.binary .equal (.member "Id") (.constant (.string "a")))
      (.binary .lessThan (.constant (.integer 1)) (.member "Value"))),
     .order [{ expr := .member "Value", direction := .descending }, { expr := .member "Id" }],
     .filter (.binary .notEqual (.member "Id") (.constant (.string "a")))]
  projection := .members ["Value"]
  operators := [.take (.constant (.integer 5)), .skip (.constant (.integer 2)), .count,
    .take (.constant (.integer 5))]

theorem sampleQuery_lower :
    ∃ request, (sampleQuery.lower sampleSettings sampleRegistry "b").2 = .ok request := ⟨_, rfl⟩

theorem Query.document_binds_literals_sample :
    ∃ request, (sampleQuery.lower sampleSettings sampleRegistry "b").2 = .ok request
      ∧ (request.bindings.body.map (·.name)).Nodup
      ∧ request.bindings.find? "p3" = some (.integer "86400")
      ∧ request.bindings.find? "p6" = some (.string "data")
      ∧ request.bindings.find? "p7" = some (.boolean true)
      ∧ request.bindings.find? "p10" = some (.string "a")
      ∧ request.bindings.find? "p14" = none := by
  obtain ⟨request, hr⟩ := sampleQuery_lower
  obtain ⟨entity, he, hb, -, hd, hf, hn⟩ := Query.document_binds_literals hr
  obtain rfl := Option.some.inj he
  have hfind : ∀ (i : Nat) (binding : Binding), request.bindings.body[i]? = some binding →
      request.bindings.find? binding.name = some binding.value := by
    intro i binding hi
    rw [hf i binding hi, Document.at?, hi, Option.map_some]
  rw [congrArg Document.body hb] at hfind hn
  exact ⟨request, hr, hd, hfind 2 ⟨"p3", .integer "86400"⟩ (by decide),
    hfind 5 ⟨"p6", .string "data"⟩ (by decide), hfind 6 ⟨"p7", .boolean true⟩ (by decide),
    hfind 9 ⟨"p10", .string "a"⟩ (by decide), hn "p14" (by decide)⟩

end EntityFlux
