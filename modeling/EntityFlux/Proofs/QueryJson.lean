import EntityFlux.Proofs.ExprJson

/-!
# Queries in JSON

The JSON text of a query brings the query back. Clause by clause and operator by operator, what is
read can be written no deeper than it was spelled, and what is written is read as what it was; the
text in between is read as the value that was written, since it holds no fraction and stays within
the limit of nesting that the first text has passed.
-/

namespace EntityFlux

open Json.Decode

def SortKey.constants (key : SortKey) : List Literal := key.expr.constants

def Clause.constants : Clause → List Literal
  | .filter predicate => predicate.constants
  | .order keys => keys.flatMap SortKey.constants

def ResultOperator.constants : ResultOperator → List Literal
  | .take n => n.constants
  | .skip n => n.constants
  | .all predicate => predicate.constants
  | _ => []

/-- Every literal that is written anywhere in a query. -/
def Query.constants (query : Query) : List Literal :=
  query.body.flatMap Clause.constants ++ query.operators.flatMap ResultOperator.constants

namespace SortKey

theorem readsFitting : ReadsFitting ofJson? json constants := by
  intro spelled key h
  simp only [ofJson?, Option.bind_eq_bind, Option.bind_eq_some_iff] at h
  obtain ⟨values, hfields, h⟩ := h
  have hinside := inside_of_fields hfields
  have hpos := depth_pos_of_fields hfields
  split at h
  · simp only [Option.bind_eq_some_iff] at h
    obtain ⟨expr, hexpr, direction, -, h⟩ := h
    obtain rfl := Option.some.inj h
    have hexpr := (Expr.readsFitting .inCase).part hinside (by simp) hexpr
    exact ⟨depth_obj_le hpos (by simp [depth_str, hpos, hexpr.1]), hexpr.2⟩
  · cases h

theorem ofJson?_json {key : SortKey} (h : ∀ value ∈ key.constants, value.Portable) :
    ofJson? key.json = some key := by
  have hread : fields .inCase ["expr", "direction"] key.json
      = some [some key.expr.json, some (.str key.direction.word)] :=
    fields_zip ["expr", "direction"] [key.expr.json, .str key.direction.word] rfl .inCase
      (by decide)
  have hexpr := Expr.ofJson?_json h
  have hdirection : Direction.ofJson? .inCase (.str key.direction.word) = some key.direction := by
    cases key.direction <;> rfl
  rw [ofJson?, hread]
  simp [required, defaulted, hexpr, hdirection]

theorem exact_json {key : SortKey} (h : ∀ value ∈ key.constants, value.Portable) :
    key.json.Exact :=
  .obj (by simp [Json.Exact.str, key.expr.exact_json h])

end SortKey

namespace Clause

theorem readsFitting : ReadsFitting ofJson? json constants := by
  intro spelled clause h
  simp only [ofJson?, Option.bind_eq_bind, Option.bind_eq_some_iff] at h
  obtain ⟨⟨name, values⟩, htagged, h⟩ := h
  have hinside := inside_of_tagged htagged
  have hpos := depth_pos_of_tagged htagged
  split at h
  · rename_i heq
    obtain ⟨rfl, rfl⟩ := Prod.mk.inj heq
    obtain ⟨predicate, hread, rfl⟩ := Option.map_eq_some_iff.1 h
    have hpredicate := (Expr.readsFitting .inCase).part hinside (by simp) hread
    exact ⟨depth_obj_le hpos (by simp [depth_str, hpos, hpredicate.1]), hpredicate.2⟩
  · rename_i heq
    obtain ⟨rfl, rfl⟩ := Prod.mk.inj heq
    obtain ⟨keys, hread, rfl⟩ := Option.map_eq_some_iff.1 h
    have hkeys := SortKey.readsFitting.list.part hinside (by simp) hread
    exact ⟨depth_obj_le hpos (by simp [depth_str, hpos, hkeys.1]), hkeys.2⟩
  · cases h

theorem exact_json {clause : Clause} (h : ∀ value ∈ clause.constants, value.Portable) :
    clause.json.Exact := by
  cases clause with
  | filter predicate => exact .obj (by simp [Json.Exact.str, Expr.exact_json predicate h])
  | order keys =>
    have hkeys : Json.Exact (.arr (keys.map SortKey.json)) :=
      exact_map h fun _ => SortKey.exact_json
    exact .obj (by simp [Json.Exact.str, hkeys])

theorem ofJson?_json {clause : Clause} (h : ∀ value ∈ clause.constants, value.Portable) :
    ofJson? clause.json = some clause := by
  have husable := (exact_json h).isUsable
  cases clause with
  | filter predicate =>
    have hread : tagged .document "clause" cases (filter predicate).json
        = some ("where", [some predicate.json]) :=
      tagged_zip ["predicate"] [predicate.json] rfl rfl (by decide) fun _ => husable
    rw [ofJson?, hread]
    simp [required, Expr.ofJson?_json h]
  | order keys =>
    have hread : tagged .document "clause" cases (order keys).json
        = some ("order_by", [some (.arr (keys.map SortKey.json))]) :=
      tagged_zip ["orderings"] [.arr (keys.map SortKey.json)] rfl rfl (by decide) fun _ => husable
    have hkeys : list? SortKey.ofJson? (.arr (keys.map SortKey.json)) = some keys :=
      list?_map h fun _ => SortKey.ofJson?_json
    rw [ofJson?, hread]
    simp [required, hkeys]

end Clause

namespace Projection

theorem readsFitting : ReadsFitting ofJson? json (fun _ => []) := by
  intro spelled projection h
  simp only [ofJson?, Option.bind_eq_bind, Option.bind_eq_some_iff] at h
  obtain ⟨⟨name, values⟩, htagged, h⟩ := h
  have hinside := inside_of_tagged htagged
  have hpos := depth_pos_of_tagged htagged
  split at h
  · obtain rfl := Option.some.inj h
    exact ⟨depth_obj_le hpos (by simp [depth_str, hpos]), by simp⟩
  · rename_i heq
    obtain ⟨rfl, rfl⟩ := Prod.mk.inj heq
    obtain ⟨names, hread, rfl⟩ := Option.map_eq_some_iff.1 h
    have hnames := readsFitting_string.list.part hinside (by simp) hread
    exact ⟨depth_obj_le hpos (by simp [depth_str, hpos, hnames.1]), by simp⟩
  · cases h

theorem exact_json (projection : Projection) : projection.json.Exact := by
  cases projection with
  | entity => exact .obj (by simp [Json.Exact.str])
  | members names =>
    have hnames : Json.Exact (.arr (names.map Json.str)) :=
      .arr (List.forall_mem_map.2 fun name _ => .str name)
    exact .obj (by simp [Json.Exact.str, hnames])

theorem ofJson?_json (projection : Projection) : ofJson? projection.json = some projection := by
  have husable := (exact_json projection).isUsable
  cases projection with
  | entity => rfl
  | members names =>
    have hread : tagged .document "projection" cases (members names).json
        = some ("members", [some (.arr (names.map Json.str))]) :=
      tagged_zip ["members"] [.arr (names.map Json.str)] rfl rfl (by decide) fun _ => husable
    have hnames : list? string? (.arr (names.map Json.str)) = some names :=
      Json.mapM_map_eq_some fun _ _ => rfl
    rw [ofJson?, hread]
    simp [required, hnames]

end Projection

namespace ResultOperator

theorem readsFitting : ReadsFitting ofJson? json constants := by
  intro spelled operator h
  simp only [ofJson?, Option.bind_eq_bind, Option.bind_eq_some_iff] at h
  obtain ⟨⟨name, values⟩, htagged, h⟩ := h
  have hinside := inside_of_tagged htagged
  have hpos := depth_pos_of_tagged htagged
  split at h
  -- Only `take`, `skip` and `all` hold an expression.
  case h_1 | h_2 | h_13 =>
    rename_i heq
    obtain ⟨rfl, rfl⟩ := Prod.mk.inj heq
    obtain ⟨n, hread, rfl⟩ := Option.map_eq_some_iff.1 h
    have hn := (Expr.readsFitting .inCase).part hinside (by simp) hread
    exact ⟨depth_obj_le hpos (by simp [depth_str, hpos, hn.1]), hn.2⟩
  case h_15 => cases h
  all_goals
    obtain rfl := Option.some.inj h
    exact ⟨depth_obj_le hpos (by simp [depth_str, hpos]), List.forall_mem_nil _⟩

theorem exact_json {operator : ResultOperator}
    (h : ∀ value ∈ operator.constants, value.Portable) : operator.json.Exact := by
  cases operator with
  | take n => exact .obj (by simp [Json.Exact.str, n.exact_json h])
  | skip n => exact .obj (by simp [Json.Exact.str, n.exact_json h])
  | all predicate => exact .obj (by simp [Json.Exact.str, predicate.exact_json h])
  | _ => exact .obj (by simp [Json.Exact.str])

theorem ofJson?_json {operator : ResultOperator}
    (h : ∀ value ∈ operator.constants, value.Portable) :
    ofJson? operator.json = some operator := by
  have husable := (exact_json h).isUsable
  cases operator with
  | take n =>
    have hread : tagged .document "operator" cases (take n).json = some ("take", [some n.json]) :=
      tagged_zip ["count"] [n.json] rfl rfl (by decide) fun _ => husable
    rw [ofJson?, hread]
    simp [required, Expr.ofJson?_json h]
  | skip n =>
    have hread : tagged .document "operator" cases (skip n).json = some ("skip", [some n.json]) :=
      tagged_zip ["count"] [n.json] rfl rfl (by decide) fun _ => husable
    rw [ofJson?, hread]
    simp [required, Expr.ofJson?_json h]
  | all predicate =>
    have hread : tagged .document "operator" cases (all predicate).json
        = some ("all", [some predicate.json]) :=
      tagged_zip ["predicate"] [predicate.json] rfl rfl (by decide) fun _ => husable
    rw [ofJson?, hread]
    simp [required, Expr.ofJson?_json h]
  | _ => rfl

end ResultOperator

namespace Query

theorem readsFitting_entity :
    ReadsFitting entityOfJson? (fun name => .obj [("entity", .str name)]) fun _ => [] := by
  intro spelled name h
  simp only [entityOfJson?, Option.bind_eq_bind, Option.bind_eq_some_iff] at h
  obtain ⟨values, hfields, -⟩ := h
  have hpos := depth_pos_of_fields hfields
  exact ⟨depth_obj_le hpos (by simp [depth_str, hpos]), List.forall_mem_nil _⟩

theorem readsFitting : ReadsFitting ofJson? json constants := by
  intro spelled query h
  simp only [ofJson?, Option.bind_eq_bind, Option.bind_eq_some_iff] at h
  obtain ⟨values, hfields, h⟩ := h
  have hinside := inside_of_fields hfields
  have hpos := depth_pos_of_fields hfields
  split at h
  · simp only [Option.bind_eq_some_iff] at h
    obtain ⟨entity, hentity, body, hbody, projection, hprojection, operators, hoperators, h⟩ := h
    obtain rfl := Option.some.inj h
    have hentity := readsFitting_entity.part hinside (by simp) hentity
    -- The entity is a record of its own, so there is room for what is left out.
    have hroom : 1 < spelled.depth := hentity.1
    have hbody := Clause.readsFitting.list.default_part hinside [] hroom rfl (by simp) hbody
    have hprojection :=
      Projection.readsFitting.default_part hinside .entity hroom rfl (by simp) hprojection
    have hoperators :=
      ResultOperator.readsFitting.list.default_part hinside [] hroom rfl (by simp) hoperators
    refine ⟨depth_obj_le hpos ?_, List.forall_mem_append.2 ⟨hbody.2, hoperators.2⟩⟩
    simp [hentity.1, hbody.1, hprojection.1, hoperators.1]
  · cases h

theorem exact_json {query : Query} (h : ∀ value ∈ query.constants, value.Portable) :
    query.json.Exact := by
  obtain ⟨hbody, hoperators⟩ := List.forall_mem_append.1 h
  have hentity : Json.Exact (.obj [("entity", .str query.entity)]) :=
    .obj (by simp [Json.Exact.str])
  have hclauses : Json.Exact (.arr (query.body.map Clause.json)) :=
    exact_map hbody fun _ => Clause.exact_json
  have happlied : Json.Exact (.arr (query.operators.map ResultOperator.json)) :=
    exact_map hoperators fun _ => ResultOperator.exact_json
  exact .obj (by simp [hentity, hclauses, query.projection.exact_json, happlied])

theorem ofJson?_json {query : Query} (h : ∀ value ∈ query.constants, value.Portable) :
    ofJson? query.json = some query := by
  obtain ⟨hbody, hoperators⟩ := List.forall_mem_append.1 h
  have hread : fields .document ["from", "body", "select", "result_operators"] query.json
      = some [some (.obj [("entity", .str query.entity)]), some (.arr (query.body.map Clause.json)),
        some query.projection.json, some (.arr (query.operators.map ResultOperator.json))] :=
    fields_zip ["from", "body", "select", "result_operators"]
      [.obj [("entity", .str query.entity)], .arr (query.body.map Clause.json),
        query.projection.json, .arr (query.operators.map ResultOperator.json)] rfl .document
      (by decide)
  have hentity : entityOfJson? (.obj [("entity", .str query.entity)]) = some query.entity := rfl
  have hclauses : list? Clause.ofJson? (.arr (query.body.map Clause.json)) = some query.body :=
    list?_map hbody fun _ => Clause.ofJson?_json
  have happlied : list? ResultOperator.ofJson? (.arr (query.operators.map ResultOperator.json))
      = some query.operators :=
    list?_map hoperators fun _ => ResultOperator.ofJson?_json
  rw [ofJson?, hread]
  simp [required, defaulted, hentity, hclauses, query.projection.ofJson?_json, happlied]

/-- A query that was read from JSON text and holds no fraction can be written: each of its literals
has a JSON form, and no more containers stand inside each other than in what was read. The text that
is written is read as the same query, which is written as the same text. -/
theorem json_round_trip {text : String} {query : Query}
    (h : (Json.read? text).bind ofJson? = some query)
    (hfloat : ∀ value ∈ query.constants, value.isFloat = false) :
    (∀ value ∈ query.constants, value.write = .ok value.json)
      ∧ (∀ json, Json.read? text = some json → query.json.depth ≤ json.depth)
      ∧ query.json.depth ≤ Json.Reader.depthLimit
      ∧ (Json.read? query.json.text).bind ofJson? = some query
      ∧ ((Json.read? query.json.text).bind ofJson?).map (fun again => again.json.text)
        = some query.json.text := by
  obtain ⟨json, htext, hquery⟩ := Option.bind_eq_some_iff.1 h
  have hfits := readsFitting json query hquery
  have hdepth := hfits.depth_le.trans (Json.depth_le_of_read? htext)
  have hportable : ∀ value ∈ query.constants, value.Portable :=
    fun value hvalue => ⟨hfits.writable value hvalue, hfloat value hvalue⟩
  have hread := (exact_json hportable).read?_text hdepth
  have hagain : (Json.read? query.json.text).bind ofJson? = some query := by
    rw [hread, Option.bind_some, ofJson?_json hportable]
  refine ⟨hfits.writable, ?_, hdepth, hagain, ?_⟩
  · intro json' htext'
    obtain rfl := Option.some.inj (htext.symm.trans htext')
    exact hfits.depth_le
  · rw [hagain, Option.map_some]

/-- Arrays for records, fields left out and out of order, an escaped letter and a leap second. -/
def sampleText : String :=
  "\x7b\"body\":[[\"where\",\x7b\"value\":[\"date_time\",\"2016-12-31 23:59:60.5z\"],"
    ++ "\"kind\":\"constant\"\x7d]],\"from\":[\"\\u0053\"]\x7d"

theorem json_round_trip_sample :
    ∃ query, (Json.read? sampleText).bind ofJson? = some query
      ∧ query.constants.map (fun value => (value.isFloat, value.inline))
        = [(false, "2016-12-31T23:59:60.500Z")]
      ∧ query.json.depth = 5
      ∧ (Json.read? query.json.text).bind ofJson? = some query := by
  have hread : ((Json.read? sampleText).bind ofJson?).map (fun query =>
      (query.constants.map fun value => (value.isFloat, value.inline), query.json.depth))
      = some ([(false, "2016-12-31T23:59:60.500Z")], 5) := by
    decide +kernel
  obtain ⟨query, hquery, heq⟩ := Option.map_eq_some_iff.1 hread
  obtain ⟨hconstants, hdepth⟩ := Prod.mk.inj heq
  have hfloat : ∀ value ∈ query.constants, value.isFloat = false := by
    intro value hvalue
    have hmem := List.mem_map_of_mem (f := fun value => (value.isFloat, value.inline)) hvalue
    rw [hconstants, List.mem_singleton] at hmem
    exact (Prod.mk.inj hmem).1
  obtain ⟨-, -, -, hagain, -⟩ := json_round_trip hquery hfloat
  exact ⟨query, hquery, hconstants, hdepth, hagain⟩

end Query

end EntityFlux
