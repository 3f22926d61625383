import EntityFlux.Proofs.ExprJson
import EntityFlux.Proofs.JsonChanges
import Mathlib.Logic.Relation

/-!
# Queries under changes of their JSON

A query is read as the same query when, at any depth of its JSON, the fields of objects are put in
another order and records are given fields they do not ask for. So the tag of a clause, an
expression, a literal or an operator may follow its fields.

What a record asks for depends on where it stands and, in a choice, on the case that its tag
chooses. `Place` says what a value stands for and `Edit` is one change there. One level of reading
keeps what it reads as long as its parts keep theirs; an edit is taken up through the levels from
the place where it happens.
-/

namespace EntityFlux

open Json (Change Rules Same)
open Json.Decode

/-! ### Expressions without a limit of nesting -/

namespace Expr

/-- The expression of a kind that has these fields. -/
def ofFields? (operand? : Json → Option Expr) : String → List (Option Json) → Option Expr
  | "member", [name] => (required string? name).map .member
  | "constant", [value] => (required (Literal.ofJson? .inCase) value).map .constant
  | "binary", [op, left, right] => do
    let op ← required (BinaryOp.ofJson? .inCase) op
    let left ← required operand? left
    let right ← required operand? right
    some (.binary op left right)
  | "not", [operand] => (required operand? operand).map .not
  | "negate", [operand] => (required operand? operand).map .negate
  | "call", [method, args] => do
    let method ← required string? method
    let args ← required (list? operand?) args
    some (.call method args)
  | "conditional", [test, ifTrue, ifFalse] => do
    let test ← required operand? test
    let ifTrue ← required operand? ifTrue
    let ifFalse ← required operand? ifFalse
    some (.conditional test ifTrue ifFalse)
  | _, _ => none

theorem decode?_succ (fuel : Nat) (rules : Rules) (json : Json) :
    decode? (fuel + 1) rules json
      = (tagged rules "kind" cases json).bind fun chosen =>
          ofFields? (decode? fuel .inCase) chosen.1 chosen.2 := rfl

/-- Operands, also those in a list, lie deeper inside than the expression. -/
theorem ofFields?_congr {operand? other? : Json → Option Expr} {json : Json}
    {values : List (Option Json)} (hinside : Inside values json)
    (h : ∀ value : Json, value.depth < json.depth → operand? value = other? value)
    (kind : String) : ofFields? operand? kind values = ofFields? other? kind values := by
  have hlist : ∀ value : Json, value.depth < json.depth →
      list? operand? value = list? other? value := by
    intro value hvalue
    cases value with
    | arr items =>
      exact Json.mapM_congr fun item hitem => h item ((depth_lt_arr hitem).trans hvalue)
    | _ => rfl
  have hrequired : ∀ field ∈ values, required operand? field = required other? field ∧
      required (list? operand?) field = required (list? other?) field := by
    intro field hfield
    cases field with
    | none => exact ⟨rfl, rfl⟩
    | some value => exact ⟨h value (hinside value hfield), hlist value (hinside value hfield)⟩
  unfold ofFields?
  split <;> simp_all

/-- More fuel than the nesting needs makes no difference. -/
theorem decode?_eq_of_lt {fuel fuel' : Nat} (rules : Rules) {json : Json} (h : json.depth < fuel)
    (h' : json.depth < fuel') : decode? fuel rules json = decode? fuel' rules json := by
  induction fuel generalizing fuel' rules json with
  | zero => omega
  | succ fuel ih =>
    obtain ⟨fuel', rfl⟩ : ∃ n, fuel' = n + 1 := ⟨fuel' - 1, by omega⟩
    rw [decode?_succ, decode?_succ]
    refine Option.bind_congr fun chosen hchosen => ?_
    refine ofFields?_congr (inside_of_tagged hchosen) (fun value hvalue => ?_) chosen.1
    exact ih _ (by omega) (by omega)

theorem ofJson?_eq (rules : Rules) (json : Json) :
    ofJson? rules json
      = (tagged rules "kind" cases json).bind fun chosen =>
          ofFields? (ofJson? .inCase) chosen.1 chosen.2 := by
  rw [ofJson?, decode?_succ]
  refine Option.bind_congr fun chosen hchosen => ?_
  refine ofFields?_congr (inside_of_tagged hchosen) (fun value hvalue => ?_) chosen.1
  exact decode?_eq_of_lt .inCase hvalue (Nat.lt_succ_self _)

end Expr

/-! ### Places and edits -/

namespace Query

/-- What a value in the JSON of a query stands for. -/
inductive Place where
  | query
  | source
  | clause
  | key
  | projection
  | operator
  | expr
  | literal
  | list (item : Place)
  /-- A word, a number, or a value that nothing asks for. -/
  | other
deriving DecidableEq

namespace Place

/-- The cases of a choice, each with its fields and what stands under them. Neither a case nor a
field in a case is named twice, and no field is named as the tag. -/
structure Choice where
  tagName : String
  cases : List (String × List (String × Place))
  cases_nodup : (cases.map (·.1)).Nodup := by decide
  names_nodup : ∀ case ∈ cases, (tagName :: case.2.map (·.1)).Nodup := by decide

namespace Choice

def clause : Choice where
  tagName := "clause"
  cases := [("where", [("predicate", .expr)]), ("order_by", [("orderings", .list .key)])]

def projection : Choice where
  tagName := "projection"
  cases := [("entity", []), ("members", [("members", .list .other)])]

def operator : Choice where
  tagName := "operator"
  cases :=
    [("take", [("count", .expr)]), ("skip", [("count", .expr)]), ("count", []), ("long_count", []),
     ("first", []), ("last", []), ("single", []), ("min", []), ("max", []), ("sum", []),
     ("average", []), ("any", []), ("all", [("predicate", .expr)]), ("distinct", [])]

def expr : Choice where
  tagName := "kind"
  cases :=
    [("member", [("name", .other)]), ("constant", [("value", .literal)]),
     ("binary", [("op", .other), ("left", .expr), ("right", .expr)]), ("not", [("operand", .expr)]),
     ("negate", [("operand", .expr)]), ("call", [("method", .other), ("args", .list .expr)]),
     ("conditional", [("test", .expr), ("if_true", .expr), ("if_false", .expr)])]

/-- The case that a tag names, or gives the position of. -/
def chosen? (choice : Choice) : Json → Option (String × List (String × Place))
  | .str name => choice.cases.find? (·.1 = name)
  | .int position => if 0 ≤ position then choice.cases[position.toNat]? else none
  | _ => none

/-- The tag and the fields of the case that it chooses. -/
def parts? (choice : Choice) (json : Json) : Option (List (String × Place)) := do
  let tag ← tag? choice.tagName json
  let chosen ← choice.chosen? tag
  some ((choice.tagName, .other) :: chosen.2)

/-- The cases with the names of their fields. -/
def names (choice : Choice) : List (String × List String) :=
  choice.cases.map fun case => (case.1, case.2.map (·.1))

end Choice

/-- The names that a record asks for, with what stands under each. A choice is a record as soon as
its tag chooses a case. -/
def parts? : Place → Json → Option (List (String × Place))
  | .query, _ => some [("from", .source), ("body", .list .clause), ("select", .projection),
      ("result_operators", .list .operator)]
  | .source, _ => some [("entity", .other)]
  | .clause, json => Choice.clause.parts? json
  | .key, _ => some [("expr", .expr), ("direction", .other)]
  | .projection, json => Choice.projection.parts? json
  | .operator, json => Choice.operator.parts? json
  | .expr, json => Choice.expr.parts? json
  | .literal, _ => some [("type", .other), ("value", .other)]
  | .list _, _ | .other, _ => none

/-- What the value under a name stands for. -/
def ofField (place : Place) (json : Json) (name : String) : Place :=
  ((place.parts? json).bind (Dictionary.get? name)).getD .other

/-- What an item of an array stands for: an array is a list, or a record without its names. -/
def ofItem (place : Place) (json : Json) (position : Nat) : Place :=
  match place with
  | .list item => item
  | _ => ((place.parts? json).bind (·[position]?)).elim .other (·.2)

/-- What a value may become for it to be read as it was. -/
def Keeps : Place → Change
  | .query => Kept Query.ofJson?
  | .source => Kept Query.entityOfJson?
  | .clause => Kept Clause.ofJson?
  | .key => Kept SortKey.ofJson?
  | .projection => Kept Projection.ofJson?
  | .operator => Kept ResultOperator.ofJson?
  | .expr => Kept (Expr.ofJson? .inCase)
  | .literal => Kept (Literal.ofJson? .inCase)
  | .list item => Listed item.Keeps
  | .other => Same

theorem Keeps.refl (place : Place) (json : Json) : place.Keeps json json := by
  induction place generalizing json with
  | list item ih => exact fun items heq => ⟨items, heq, List.forall₂_same.2 fun item _ => ih item⟩
  | other => exact Same.refl json
  | _ => exact fun _ h => h

end Place

/-- One change at a place or anywhere inside it: the fields of any object are put in another order,
or a record is given a field that it does not ask for. -/
inductive Edit : Place → Json → Json → Prop
  | reorder (place : Place) {entries entries' : List (String × Json)} (h : entries.Perm entries') :
      Edit place (.obj entries) (.obj entries')
  | insert {place : Place} (before after : List (String × Json)) {name : String} {value : Json}
      {parts : List (String × Place)} (hparts : place.parts? (.obj (before ++ after)) = some parts)
      (hname : name ∉ parts.map (·.1)) (husable : value.isUsable) :
      Edit place (.obj (before ++ after)) (.obj (before ++ (name, value) :: after))
  | field {place : Place} (before after : List (String × Json)) {name : String}
      {value value' : Json}
      (h : Edit (place.ofField (.obj (before ++ (name, value) :: after)) name) value value') :
      Edit place (.obj (before ++ (name, value) :: after))
        (.obj (before ++ (name, value') :: after))
  | item {place : Place} (before after : List Json) {value value' : Json}
      (h : Edit (place.ofItem (.arr (before ++ value :: after)) before.length) value value') :
      Edit place (.arr (before ++ value :: after)) (.arr (before ++ value' :: after))

theorem Edit.isUsable {place : Place} {json json' : Json} (h : Edit place json json')
    (husable : json.isUsable) : json'.isUsable := by
  induction h with
  | reorder place h =>
    rw [Json.isUsable, Json.fieldsUsable_iff] at husable ⊢
    exact fun entry hentry => husable entry (h.mem_iff.2 hentry)
  | insert before after hparts hname hvalue =>
    rw [Json.isUsable, Json.fieldsUsable_iff, List.forall_mem_append] at husable ⊢
    exact ⟨husable.1, List.forall_mem_cons.2 ⟨hvalue, husable.2⟩⟩
  | field before after h ih =>
    rw [Json.isUsable, Json.fieldsUsable_iff, List.forall_mem_append, List.forall_mem_cons]
      at husable ⊢
    exact ⟨husable.1, ih husable.2.1, husable.2.2⟩
  | item before after h ih =>
    rw [Json.isUsable, Json.areUsable_iff, List.forall_mem_append, List.forall_mem_cons]
      at husable ⊢
    exact ⟨husable.1, ih husable.2.1, husable.2.2⟩

namespace Place

namespace Choice

variable {choice : Choice} {tag : Json}

theorem mem_of_chosen? {case : String × List (String × Place)}
    (h : choice.chosen? tag = some case) : case ∈ choice.cases := by
  unfold chosen? at h
  split at h
  · exact List.mem_of_find?_eq_some h
  · exact List.mem_of_getElem? (Option.ite_none_right_eq_some.1 h).2
  · cases h

theorem chosen?_of_case? {rules : Rules} {name : String} {names : List String}
    (h : case? rules choice.names tag = some (name, names)) :
    ∃ parts, choice.chosen? tag = some (name, parts) ∧ parts.map (·.1) = names := by
  obtain ⟨found, hnamed, hfound⟩ := Option.bind_eq_some_iff.1 h
  rw [Choice.names, List.find?_map, Option.map_eq_some_iff] at hfound
  obtain ⟨⟨name, parts⟩, hfound, heq⟩ := hfound
  obtain ⟨rfl, rfl⟩ := Prod.mk.inj heq
  have hmem := List.mem_of_find?_eq_some hfound
  have hname : name = found := by simpa using List.find?_some hfound
  refine ⟨parts, ?_, rfl⟩
  cases tag with
  | str s =>
    obtain ⟨-, heq⟩ := Option.ite_none_right_eq_some.1 hnamed
    obtain rfl := Option.some.inj heq
    exact hfound
  | int position =>
    obtain ⟨⟨-, hpos⟩, hat⟩ := Option.ite_none_right_eq_some.1 hnamed
    rw [Choice.names, List.map_map, List.getElem?_map, Option.map_eq_some_iff] at hat
    obtain ⟨case, hat, hcase⟩ := hat
    rw [chosen?, if_pos hpos, hat, Option.some.injEq]
    refine List.inj_on_of_nodup_map choice.cases_nodup (List.mem_of_getElem? hat) hmem ?_
    exact hcase.trans hname.symm
  | _ => cases hnamed

end Choice

/-- A name that is asked for is asked for once. -/
theorem nodup_of_parts? {place : Place} {json : Json} {parts : List (String × Place)}
    (h : place.parts? json = some parts) : (parts.map (·.1)).Nodup := by
  have hchoice : ∀ choice : Choice, choice.parts? json = some parts →
      (parts.map (·.1)).Nodup := by
    intro choice hchoice
    simp only [Choice.parts?, Option.bind_eq_bind, Option.bind_eq_some_iff] at hchoice
    obtain ⟨tag, -, chosen, hchosen, heq⟩ := hchoice
    obtain rfl := Option.some.inj heq
    exact choice.names_nodup chosen (Choice.mem_of_chosen? hchosen)
  cases place with
  | clause => exact hchoice _ h
  | projection => exact hchoice _ h
  | operator => exact hchoice _ h
  | expr => exact hchoice _ h
  | list item => cases h
  | other => cases h
  | _ =>
    obtain rfl := Option.some.inj h
    decide

theorem ofField_eq {place : Place} {json : Json} {parts : List (String × Place)}
    (h : place.parts? json = some parts) {name : String} {part : Place}
    (hmem : (name, part) ∈ parts) : place.ofField json name = part := by
  have hget := Dictionary.get?_of_mem (nodup_of_parts? h) hmem
  rw [ofField, h, Option.bind_some, hget, Option.getD_some]

theorem ofItem_eq {place : Place} {json : Json} {parts : List (String × Place)}
    (h : place.parts? json = some parts) {position : Nat} {part : String × Place}
    (hpart : parts[position]? = some part) : place.ofItem json position = part.2 := by
  cases place with
  | list item => cases h
  | _ => simp [ofItem, h, hpart]

/-- How the parts of a record may change. -/
def changes (parts : List (String × Place)) : List (String × Change) :=
  parts.map fun part => (part.1, part.2.Keeps)

theorem changes_refl {parts : List (String × Place)} {part : String × Change}
    (h : part ∈ changes parts) (value : Json) : part.2 value value := by
  obtain ⟨part, -, rfl⟩ := List.mem_map.1 h
  exact Keeps.refl part.2 value

theorem map_fst_changes (parts : List (String × Place)) :
    (changes parts).map (·.1) = parts.map (·.1) := by
  simp [changes]

theorem map_snd_changes (parts : List (String × Place)) :
    (changes parts).map (·.2) = parts.map (·.2.Keeps) := by
  rw [changes, List.map_map]
  rfl

/-- A choice is read as it was where its parts change no further than they may, if in every case
the same is made of them. -/
theorem Choice.kept {choice : Choice} {rules : Rules} {α : Type}
    {make? : String × List (Option Json) → Option α}
    (hsteady : ∀ case ∈ choice.cases,
      Steady (case.2.map (·.2.Keeps)) fun values => make? (case.1, values))
    {json json' : Json} (husable : json.isUsable → json'.isUsable)
    (halike : ∀ parts, choice.parts? json = some parts → Alike (changes parts) json json') :
    Kept (fun json => tagged rules choice.tagName choice.names json >>= make?) json json' := by
  intro x hread
  obtain ⟨⟨name, values⟩, htagged, hread⟩ := Option.bind_eq_some_iff.1 hread
  obtain ⟨-, tag, htag, names, hcase, -⟩ := tagged_eq_some_iff.1 htagged
  obtain ⟨parts, hchosen, rfl⟩ := chosen?_of_case? hcase
  have hmem := mem_of_chosen? hchosen
  have hparts : choice.parts? json = some ((choice.tagName, .other) :: parts) := by
    simp [Choice.parts?, htag, hchosen]
  have halike : Alike ((choice.tagName, Same) :: changes parts) json json' := halike _ hparts
  obtain ⟨htagName, -⟩ := List.nodup_cons.1 (choice.names_nodup _ hmem)
  rw [← map_fst_changes] at htagName hcase
  obtain ⟨values', htagged', hparallel⟩ := halike.tagged htagName husable htag hcase htagged
  rw [map_snd_changes] at hparallel
  exact Option.bind_eq_some_iff.2 ⟨(name, values'), htagged', hsteady _ hmem hparallel hread⟩

end Place

/-! ### What one level reads -/

section Readers

open Place

variable {json json' : Json}

theorem rigid_of_direction? {direction : Direction}
    (h : Direction.ofJson? .inCase json = some direction) : json.Rigid := by
  obtain ⟨word, hword, -⟩ := Option.bind_eq_some_iff.1 h
  exact rigid_of_word? hword

theorem rigid_of_binaryOp? {op : BinaryOp}
    (h : BinaryOp.ofJson? .inCase json = some op) : json.Rigid := by
  obtain ⟨word, hword, -⟩ := Option.bind_eq_some_iff.1 h
  exact rigid_of_word? hword

theorem kept_query
    (h : Alike (changes [("from", .source), ("body", .list .clause), ("select", .projection),
      ("result_operators", .list .operator)]) json json') : Kept ofJson? json json' := by
  refine h.kept fun values values' hparallel query hread => ?_
  obtain - | ⟨hsource, - | ⟨hbody, - | ⟨hprojection, - | ⟨hoperators, - | -⟩⟩⟩⟩ := hparallel
  simp only [Option.bind_eq_bind, Option.bind_eq_some_iff] at hread ⊢
  obtain ⟨entity, hentity, body, hclauses, projection, hselect, operators, hends, heq⟩ := hread
  exact ⟨entity, required_kept hsource (fun h => h) hentity,
    body, defaulted_kept hbody (fun h => h.kept fun h => h) hclauses,
    projection, defaulted_kept hprojection (fun h => h) hselect,
    operators, defaulted_kept hoperators (fun h => h.kept fun h => h) hends, heq⟩

theorem kept_source (h : Alike (changes [("entity", .other)]) json json') :
    Kept entityOfJson? json json' := by
  refine h.kept fun values values' hparallel entity hread => ?_
  obtain - | ⟨hname, - | -⟩ := hparallel
  exact required_kept hname (kept_of_same rigid_of_string?) hread

theorem kept_key (h : Alike (changes [("expr", .expr), ("direction", .other)]) json json') :
    Kept SortKey.ofJson? json json' := by
  refine h.kept fun values values' hparallel key hread => ?_
  obtain - | ⟨hexpr, - | ⟨hdirection, - | -⟩⟩ := hparallel
  simp only [Option.bind_eq_bind, Option.bind_eq_some_iff] at hread ⊢
  obtain ⟨expr, hread, direction, hword, heq⟩ := hread
  exact ⟨expr, required_kept hexpr (fun h => h) hread,
    direction, defaulted_kept hdirection (kept_of_same rigid_of_direction?) hword, heq⟩

section Choices

variable (husable : json.isUsable → json'.isUsable)
include husable

theorem kept_clause
    (h : ∀ parts, Choice.clause.parts? json = some parts → Alike (changes parts) json json') :
    Kept Clause.ofJson? json json' := by
  refine Choice.kept ?_ husable h
  simp only [Choice.clause, List.forall_mem_cons]
  refine ⟨?_, ?_, List.forall_mem_nil _⟩
  · rintro values values' (- | ⟨hpredicate, - | -⟩) clause hread
    exact map_required_kept hpredicate (fun h => h) hread
  · rintro values values' (- | ⟨hkeys, - | -⟩) clause hread
    exact map_required_kept hkeys (fun h => h.kept fun h => h) hread

theorem kept_projection
    (h : ∀ parts, Choice.projection.parts? json = some parts → Alike (changes parts) json json') :
    Kept Projection.ofJson? json json' := by
  refine Choice.kept ?_ husable h
  simp only [Choice.projection, List.forall_mem_cons]
  refine ⟨?_, ?_, List.forall_mem_nil _⟩
  · rintro values values' (- | -) projection hread
    exact hread
  · rintro values values' (- | ⟨hmembers, - | -⟩) projection hread
    exact map_required_kept hmembers (fun h => h.kept (kept_of_same rigid_of_string?)) hread

theorem kept_operator
    (h : ∀ parts, Choice.operator.parts? json = some parts → Alike (changes parts) json json') :
    Kept ResultOperator.ofJson? json json' := by
  refine Choice.kept ?_ husable h
  -- Most operators have nothing beside their tag.
  have hcases : ∀ case ∈ Choice.operator.cases, case.2 = [] ∨
      case ∈ [("take", [("count", .expr)]), ("skip", [("count", .expr)]),
        ("all", [("predicate", .expr)])] := by decide
  rintro ⟨name, parts⟩ hmem
  obtain hnone | hsome := hcases _ hmem
  · obtain rfl : parts = [] := hnone
    rintro values values' (- | -) operator hread
    exact hread
  · simp only [List.mem_cons, Prod.mk.injEq, List.not_mem_nil, or_false] at hsome
    obtain ⟨rfl, rfl⟩ | ⟨rfl, rfl⟩ | ⟨rfl, rfl⟩ := hsome
    all_goals
      rintro values values' (- | ⟨hexpr, - | -⟩) operator hread
      exact map_required_kept hexpr (fun h => h) hread

theorem kept_expr
    (h : ∀ parts, Choice.expr.parts? json = some parts → Alike (changes parts) json json') :
    Kept (Expr.ofJson? .inCase) json json' := by
  rw [funext (Expr.ofJson?_eq .inCase)]
  refine Choice.kept ?_ husable h
  simp only [Choice.expr, List.forall_mem_cons]
  refine ⟨?_, ?_, ?_, ?_, ?_, ?_, ?_, List.forall_mem_nil _⟩
  · rintro values values' (- | ⟨hname, - | -⟩) e hread
    exact map_required_kept hname (kept_of_same rigid_of_string?) hread
  · rintro values values' (- | ⟨hvalue, - | -⟩) e hread
    exact map_required_kept hvalue (fun h => h) hread
  · rintro values values' (- | ⟨hop, - | ⟨hleft, - | ⟨hright, - | -⟩⟩⟩) e hread
    simp only [Expr.ofFields?, Option.bind_eq_bind, Option.bind_eq_some_iff] at hread ⊢
    obtain ⟨op, hread, left, hreadLeft, right, hreadRight, heq⟩ := hread
    exact ⟨op, required_kept hop (kept_of_same rigid_of_binaryOp?) hread,
      left, required_kept hleft (fun h => h) hreadLeft,
      right, required_kept hright (fun h => h) hreadRight, heq⟩
  · rintro values values' (- | ⟨hoperand, - | -⟩) e hread
    exact map_required_kept hoperand (fun h => h) hread
  · rintro values values' (- | ⟨hoperand, - | -⟩) e hread
    exact map_required_kept hoperand (fun h => h) hread
  · rintro values values' (- | ⟨hmethod, - | ⟨hargs, - | -⟩⟩) e hread
    simp only [Expr.ofFields?, Option.bind_eq_bind, Option.bind_eq_some_iff] at hread ⊢
    obtain ⟨method, hread, args, hreadArgs, heq⟩ := hread
    exact ⟨method, required_kept hmethod (kept_of_same rigid_of_string?) hread,
      args, required_kept hargs (fun h => h.kept fun h => h) hreadArgs, heq⟩
  · rintro values values' (- | ⟨htest, - | ⟨htrue, - | ⟨hfalse, - | -⟩⟩⟩) e hread
    simp only [Expr.ofFields?, Option.bind_eq_bind, Option.bind_eq_some_iff] at hread ⊢
    obtain ⟨test, hreadTest, ifTrue, hreadTrue, ifFalse, hreadFalse, heq⟩ := hread
    exact ⟨test, required_kept htest (fun h => h) hreadTest,
      ifTrue, required_kept htrue (fun h => h) hreadTrue,
      ifFalse, required_kept hfalse (fun h => h) hreadFalse, heq⟩

end Choices

theorem kept_literal (h : Alike (changes [("type", .other), ("value", .other)]) json json') :
    Kept (Literal.ofJson? .inCase) json json' := by
  intro literal hread
  simp only [Literal.ofJson?, Option.bind_eq_bind, Option.bind_eq_some_iff] at hread ⊢
  obtain ⟨⟨word, content⟩, htyped, value, rfl, hread⟩ := hread
  obtain ⟨content', htyped', hcontent⟩ := h.tagAndContent htyped
  have hrigid : value.Rigid := by
    dsimp only at hread
    split at hread
    · obtain ⟨x, hx, -⟩ := Option.map_eq_some_iff.1 hread
      exact rigid_of_string? hx
    · obtain ⟨x, hx, -⟩ := Option.map_eq_some_iff.1 hread
      exact rigid_of_int64? hx
    · obtain ⟨x, hx, -⟩ := Option.map_eq_some_iff.1 hread
      exact rigid_of_float? hx
    · obtain ⟨x, hx, -⟩ := Option.map_eq_some_iff.1 hread
      exact rigid_of_int64? hx
    · obtain ⟨x, hx, -⟩ := Option.map_eq_some_iff.1 hread
      exact rigid_of_bool? hx
    · obtain ⟨x, hx, -⟩ := Option.bind_eq_some_iff.1 hread
      exact rigid_of_string? hx
    · cases hread
  obtain rfl := Json.eq_some_of_same hcontent hrigid
  exact ⟨(word, some value), htyped', value, rfl, hread⟩

/-- A value is read as it was where it is alike in its parts, item by item, or rigid. -/
theorem Place.keeps_of_alike {place : Place}
    (hrecord : ∀ parts, place.parts? json = some parts → Alike (changes parts) json json')
    (hlist : ∀ item, place = .list item → Listed item.Keeps json json')
    (hother : place = .other → Same json json')
    (husable : json.isUsable → json'.isUsable) : place.Keeps json json' := by
  cases place with
  | query => exact kept_query (hrecord _ rfl)
  | source => exact kept_source (hrecord _ rfl)
  | clause => exact kept_clause husable hrecord
  | key => exact kept_key (hrecord _ rfl)
  | projection => exact kept_projection husable hrecord
  | operator => exact kept_operator husable hrecord
  | expr => exact kept_expr husable hrecord
  | literal => exact kept_literal (hrecord _ rfl)
  | list item => exact hlist item rfl
  | other => exact hother rfl

end Readers

/-- An edit anywhere inside leaves what is read at every place above it. -/
theorem Edit.keeps {place : Place} {json json' : Json} (h : Edit place json json') :
    place.Keeps json json' := by
  -- A change further inside is, seen from here, one part that keeps what is read from it.
  have husable := h.isUsable
  induction h with
  | reorder place hperm =>
    refine Place.keeps_of_alike (fun parts _ => ?_) ?_ ?_ husable
    · exact alike_reorder (fun _ => Place.changes_refl) hperm
    · intro item _ items heq
      cases heq
    · intro _ hrigid
      rw [Json.eq_of_perm hperm hrigid.length_le_one]
  | insert before after hparts hname hvalue =>
    refine Place.keeps_of_alike (fun parts hparts' => ?_) ?_ ?_ husable
    · obtain rfl := Option.some.inj (hparts.symm.trans hparts')
      rw [← Place.map_fst_changes] at hname
      exact alike_insert (fun _ => Place.changes_refl) hname _ _ _
    · rintro item rfl
      cases hparts
    · rintro rfl
      cases hparts
  | @field place before after name value value' h ih =>
    have ih := ih h.isUsable
    refine Place.keeps_of_alike (fun parts hparts => ?_) ?_ ?_ husable
    · refine alike_field (fun _ => Place.changes_refl) (fun part hpart hname => ?_) _ _
      obtain ⟨⟨name, part⟩, hmem, rfl⟩ := List.mem_map.1 hpart
      obtain rfl : name = _ := hname
      rwa [Place.ofField_eq hparts hmem] at ih
    · intro item _ items heq
      cases heq
    · rintro rfl hrigid
      have hvalue : value.Rigid :=
        hrigid.of_mem (List.mem_append_right before (List.mem_cons_self (a := (name, value))))
      rw [show value' = value from ih hvalue]
  | item before after h ih =>
    have ih := ih h.isUsable
    refine Place.keeps_of_alike (fun parts hparts => ?_) ?_ ?_ husable
    · refine alike_item (fun _ => Place.changes_refl) _ _ fun part hpart => ?_
      rw [Place.changes, List.getElem?_map, Option.map_eq_some_iff] at hpart
      obtain ⟨part, hpart, rfl⟩ := hpart
      rwa [Place.ofItem_eq hparts hpart] at ih
    · rintro item rfl items heq
      obtain rfl := Json.arr.inj heq
      have hsame : ∀ values : List Json, List.Forall₂ item.Keeps values values :=
        fun values => List.forall₂_same.2 fun value _ => Place.Keeps.refl item value
      exact ⟨_, rfl, List.rel_append (hsame before) (.cons ih (hsame after))⟩
    · rintro rfl hrigid
      cases hrigid with
      | flat hdepth => cases hdepth

/-- Neither the order of fields nor a field that is not asked for has any effect, at any depth. -/
theorem read_after_edits {json json' : Json} {query : Query} (h : ofJson? json = some query)
    (hedits : Relation.ReflTransGen (Edit .query) json json') : ofJson? json' = some query := by
  induction hedits with
  | refl => exact h
  | tail _ hedit ih => exact hedit.keeps query ih

/-- The tag of a clause and of a literal inside it goes behind, and an operator without fields gets
one that another operator has. -/
theorem read_after_edits_sample :
    let source : Json := .obj [("entity", .str "Sensor")]
    let spelled : Json := .obj [("from", source),
      ("body", .arr [.obj [("clause", .str "where"), ("predicate", .obj [("kind", .str "constant"),
        ("value", .obj [("type", .str "boolean"), ("value", .bool true)])])]]),
      ("result_operators", .arr [.obj [("operator", .str "count")]])]
    let respelled : Json := .obj [("from", source),
      ("body", .arr [.obj [("predicate", .obj [("kind", .str "constant"),
        ("value", .obj [("value", .bool true), ("type", .str "boolean")])]),
        ("clause", .str "where")]]),
      ("result_operators", .arr [.obj [("operator", .str "count"), ("predicate", .null)]])]
    let query : Query :=
      ⟨"Sensor", [.filter (.constant (.boolean true))], .entity, [.count]⟩
    ofJson? spelled = some query ∧ Relation.ReflTransGen (Edit .query) spelled respelled ∧
      ofJson? respelled = some query := by
  intro source spelled respelled query
  have hread : ofJson? spelled = some query := by rfl
  have hedits : Relation.ReflTransGen (Edit .query) spelled respelled := by
    refine .head (.field [_] [_] (.item [] [] (.field [_] [] (.field [_] []
      (.reorder _ (List.Perm.swap _ _ _)))))) ?_
    refine .head (.field [_] [_] (.item [] [] (.reorder _ (List.Perm.swap _ _ _)))) ?_
    refine .single (.field [_, _] [] (.item [] [] (.insert [_] [] rfl (by decide) rfl)))
  exact ⟨hread, hedits, read_after_edits hread hedits⟩

end Query

end EntityFlux
