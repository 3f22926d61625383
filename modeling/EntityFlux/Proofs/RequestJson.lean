import EntityFlux.Flux.Json
import EntityFlux.Proofs.Bindings
import EntityFlux.Proofs.QueryJson

/-!
# Requests in JSON

The JSON text of a request brings the request back, as long as its document holds no fraction: what
is written for a node, a statement, a document and a dialect is read as what it was, types that are
not asked for are passed over, and nothing goes deeper than eight levels. The request of a query
holds only the literals of the query, so it arrives as it was sent.
-/

namespace EntityFlux

open Json.Decode

namespace Span.Part

theorem ofJson?_json (part : Part) : ofJson? part.json = some part := by
  have hread : fields .inCase ["magnitude", "unit"] part.json
      = some [some (.int part.magnitude.toInt), some (.str part.unit)] :=
    fields_zip ["magnitude", "unit"] [.int part.magnitude.toInt, .str part.unit] rfl .inCase
      (by decide)
  rw [ofJson?, hread]
  simp [required, Literal.int64?_toInt, string?]

theorem exact_json (part : Part) : part.json.Exact := by
  have hmagnitude : Json.Exact (.int part.magnitude.toInt) :=
    .int part.magnitude.le_toInt (by have := part.magnitude.toInt_lt; omega)
  exact .obj (by simp [hmagnitude, Json.Exact.str])

theorem depth_json (part : Part) : part.json.depth = 1 := rfl

end Span.Part

namespace Flux

namespace Node

def isFloat : Node → Bool
  | .float _ => true
  | _ => false

theorem isFloat_ofLiteral (value : Literal) : (ofLiteral value).isFloat = value.isFloat := by
  cases value <;> rfl

theorem exact_json {node : Node} (h : node.isFloat = false) : node.json.Exact := by
  have htyped : ∀ {type : String} {value : Json}, value.Exact → (json.typed type value).Exact := by
    intro type value hvalue
    exact .obj (by simp [Json.Exact.str, hvalue])
  cases node with
  | string value => exact htyped (.str value)
  | integer text => exact htyped (.str text)
  | float value => cases h
  | boolean value => exact htyped (.bool value)
  | duration parts =>
    have hparts : Json.Exact (.arr (parts.map Span.Part.json)) :=
      .arr (List.forall_mem_map.2 fun part _ => part.exact_json)
    exact .obj (by simp [Json.Exact.str, hparts])
  | dateTime text => exact htyped (.str text)

theorem depth_json_le (node : Node) : node.json.depth ≤ 3 := by
  cases node with
  | duration parts =>
    have hparts : Json.itemsDepth (parts.map Span.Part.json) ≤ 1 := by
      rw [Json.itemsDepth_le_iff, List.forall_mem_map]
      exact fun part _ => part.depth_json.le
    simp only [json, Json.depth, Json.fieldsDepth]
    omega
  | _ => exact (Nat.le_succ 1).trans (Nat.le_succ 2)

theorem tagged_typed {type : String} (h : cases.find? (·.1 = type) = some (type, ["value"]))
    (value : Json) :
    tagged .inCase "type" cases (json.typed type value) = some (type, [some value]) :=
  tagged_zip ["value"] [value] rfl h (by decide) nofun

theorem ofJson?_json (node : Node) : ofJson? node.json = some node := by
  cases node with
  | string value =>
    rw [ofJson?, json, tagged_typed rfl]
    rfl
  | integer text =>
    rw [ofJson?, json, tagged_typed rfl]
    rfl
  | float value =>
    rw [ofJson?, json, tagged_typed rfl]
    rfl
  | boolean value =>
    rw [ofJson?, json, tagged_typed rfl]
    rfl
  | duration parts =>
    have hread : tagged .inCase "type" cases (duration parts).json
        = some ("DurationLiteral", [some (.arr (parts.map Span.Part.json))]) :=
      tagged_zip ["values"] [.arr (parts.map Span.Part.json)] rfl rfl (by decide) nofun
    have hparts : list? Span.Part.ofJson? (.arr (parts.map Span.Part.json)) = some parts :=
      Json.mapM_map_eq_some fun part _ => part.ofJson?_json
    rw [ofJson?, hread]
    simp [required, hparts]
  | dateTime text =>
    rw [ofJson?, json, tagged_typed rfl]
    rfl

end Node

namespace Binding

variable {binding : Binding}

theorem exact_json (h : binding.value.isFloat = false) : binding.json.Exact := by
  have hid : Json.Exact (.obj [("type", .str "Identifier"), ("name", .str binding.name)]) :=
    .obj (by simp [Json.Exact.str])
  have hassignment : Json.Exact (.obj [("type", .str "VariableAssignment"),
      ("id", .obj [("type", .str "Identifier"), ("name", .str binding.name)]),
      ("init", binding.value.json)]) :=
    .obj (by simp [Json.Exact.str, hid, Node.exact_json h])
  exact .obj (by simp [Json.Exact.str, hassignment])

theorem depth_json_le (binding : Binding) : binding.json.depth ≤ 5 := by
  have hvalue := binding.value.depth_json_le
  simp only [json, Json.depth, Json.fieldsDepth]
  omega

theorem assignmentOfJson?_json (binding : Binding) :
    assignmentOfJson? (.obj [("type", .str "VariableAssignment"),
      ("id", .obj [("type", .str "Identifier"), ("name", .str binding.name)]),
      ("init", binding.value.json)]) = some binding := by
  have hid : fields .inCase ["name"]
      (.obj [("type", .str "Identifier"), ("name", .str binding.name)])
      = some [some (.str binding.name)] :=
    (fields_unasked (by decide) _ _).trans
      (fields_zip ["name"] [.str binding.name] rfl .inCase (by decide))
  have hname : nameOfJson? (.obj [("type", .str "Identifier"), ("name", .str binding.name)])
      = some binding.name := by
    rw [nameOfJson?, hid]
    rfl
  rw [assignmentOfJson?, fields_unasked (by decide)]
  have hread := fields_zip ["id", "init"]
    [.obj [("type", .str "Identifier"), ("name", .str binding.name)], binding.value.json] rfl
    .inCase (by decide)
  rw [List.zip_cons_cons, List.zip_cons_cons, List.zip_nil_right] at hread
  rw [hread]
  simp [required, hname, Node.ofJson?_json]

theorem ofJson?_json (h : binding.value.isFloat = false) : ofJson? binding.json = some binding := by
  have husable := (exact_json h).isUsable
  have hread : tagged .document "type" [("OptionStatement", ["assignment"])] binding.json
      = some ("OptionStatement", [some (.obj [("type", .str "VariableAssignment"),
        ("id", .obj [("type", .str "Identifier"), ("name", .str binding.name)]),
        ("init", binding.value.json)])]) :=
    tagged_zip ["assignment"] [.obj [("type", .str "VariableAssignment"),
      ("id", .obj [("type", .str "Identifier"), ("name", .str binding.name)]),
      ("init", binding.value.json)]] rfl rfl (by decide) fun _ => husable
  rw [ofJson?, hread]
  simp [required, assignmentOfJson?_json]

end Binding

/-- No literal of the document is a fraction. -/
def Document.IsFractionless (document : Document) : Prop :=
  ∀ binding ∈ document.body, binding.value.isFloat = false

instance (document : Document) : Decidable document.IsFractionless :=
  inferInstanceAs (Decidable (∀ binding ∈ document.body, _))

namespace Document

variable {document : Document}

theorem exact_json (h : document.IsFractionless) : document.json.Exact := by
  have hpackage : ((document.package.map Json.str).getD .null).Exact := by
    cases document.package with
    | none => exact .null
    | some name => exact .str name
  have himports :
      ((document.imports.map fun names => Json.arr (names.map Json.str)).getD .null).Exact := by
    cases document.imports with
    | none => exact .null
    | some names => exact .arr (List.forall_mem_map.2 fun name _ => .str name)
  have hbody : Json.Exact (.arr (document.body.map Binding.json)) :=
    .arr (List.forall_mem_map.2 fun binding hbinding => Binding.exact_json (h binding hbinding))
  exact .obj (by simp [Json.Exact.str, hpackage, himports, hbody])

theorem depth_json_le (document : Document) : document.json.depth ≤ 7 := by
  have hpackage : ((document.package.map Json.str).getD .null).depth = 0 := by
    cases document.package <;> rfl
  have himports :
      ((document.imports.map fun names => Json.arr (names.map Json.str)).getD .null).depth
        ≤ 1 := by
    cases document.imports with
    | none => exact Nat.zero_le _
    | some names =>
      have hnames : Json.itemsDepth (names.map Json.str) ≤ 0 := by
        rw [Json.itemsDepth_le_iff, List.forall_mem_map]
        exact fun name _ => (depth_str name).le
      simpa [Json.depth] using hnames
  have hbody : Json.itemsDepth (document.body.map Binding.json) ≤ 5 := by
    rw [Json.itemsDepth_le_iff, List.forall_mem_map]
    exact fun binding _ => binding.depth_json_le
  simp only [json, Json.depth, Json.fieldsDepth]
  omega

theorem ofJson?_json (h : document.IsFractionless) : ofJson? document.json = some document := by
  have hpackage : nullable? string? ((document.package.map Json.str).getD .null)
      = some document.package := by
    cases document.package <;> rfl
  have himports : nullable? (list? string?)
      ((document.imports.map fun names => Json.arr (names.map Json.str)).getD .null)
      = some document.imports := by
    cases document.imports with
    | none => rfl
    | some names =>
      have hnames : list? string? (.arr (names.map Json.str)) = some names :=
        Json.mapM_map_eq_some fun _ _ => rfl
      simp [nullable?, hnames]
  have hbody : list? Binding.ofJson? (.arr (document.body.map Binding.json))
      = some document.body :=
    Json.mapM_map_eq_some fun binding hbinding => Binding.ofJson?_json (h binding hbinding)
  have hread := fields_zip ["package", "imports", "body"]
    [(document.package.map Json.str).getD .null,
      (document.imports.map fun names => Json.arr (names.map Json.str)).getD .null,
      .arr (document.body.map Binding.json)] rfl .document (by decide)
  simp only [List.zip_cons_cons, List.zip_nil_right] at hread
  rw [ofJson?, json, fields_unasked (by decide), hread]
  simp [defaulted, required, hpackage, himports, hbody]

end Document

namespace Dialect

theorem exact_json (dialect : Dialect) : dialect.json.Exact := by
  have hrows : Json.Exact (.arr (dialect.rows.map fun row => .str row.word)) :=
    .arr (List.forall_mem_map.2 fun row _ => .str row.word)
  exact .obj (by simp [Json.Exact.str, Json.Exact.bool, hrows])

theorem depth_json_le (dialect : Dialect) : dialect.json.depth ≤ 2 := by
  have hrows : Json.itemsDepth (dialect.rows.map fun row => .str row.word) ≤ 0 := by
    rw [Json.itemsDepth_le_iff, List.forall_mem_map]
    exact fun row _ => (depth_str row.word).le
  simp only [json, Json.depth, Json.fieldsDepth]
  omega

theorem ofJson?_json (dialect : Dialect) : ofJson? dialect.json = some dialect := by
  have hrow : ∀ row : HeaderRow, HeaderRow.ofJson? (.str row.word) = some row := by
    intro row
    cases row <;> rfl
  have hrows : list? HeaderRow.ofJson? (.arr (dialect.rows.map fun row => .str row.word))
      = some dialect.rows :=
    Json.mapM_map_eq_some fun row _ => hrow row
  have hread : fields .document ["header", "delimiter", "commentPrefix", "annotations"] dialect.json
      = some [some (.bool dialect.header), some (.str dialect.delimiter),
        some (.str dialect.commentMark), some (.arr (dialect.rows.map fun row => .str row.word))] :=
    fields_zip ["header", "delimiter", "commentPrefix", "annotations"]
      [.bool dialect.header, .str dialect.delimiter, .str dialect.commentMark,
        .arr (dialect.rows.map fun row : HeaderRow => .str row.word)] rfl .document (by decide)
  rw [ofJson?, hread]
  simp [required, bool?, string?, hrows]

end Dialect

namespace Request

variable {request : Request}

theorem ofJson?_json (h : request.bindings.IsFractionless) :
    ofJson? request.json = some request := by
  have hread : fields .document ["query", "extern", "dialect"] request.json
      = some [some (.str request.query), some request.bindings.json,
        some request.dialect.json] :=
    fields_zip ["query", "extern", "dialect"]
      [.str request.query, request.bindings.json, request.dialect.json] rfl .document (by decide)
  rw [ofJson?, hread]
  simp [required, string?, Document.ofJson?_json h, Dialect.ofJson?_json]

/-- The text of a request is read as the request. -/
theorem read?_text (h : request.bindings.IsFractionless) :
    (Json.read? request.json.text).bind ofJson? = some request := by
  have hbindings := Document.exact_json h
  have hexact : request.json.Exact :=
    .obj (by simp [Json.Exact.str, hbindings, request.dialect.exact_json])
  have hdepth : request.json.depth ≤ 8 := by
    have hdocument := request.bindings.depth_json_le
    have hdialect := request.dialect.depth_json_le
    simp only [json, Json.depth, Json.fieldsDepth]
    omega
  rw [hexact.read?_text (hdepth.trans (by decide)), Option.bind_some, ofJson?_json h]

end Request

end Flux

open Flux

theorem Progress.isFractionless_bindingsFrom {values : List Literal}
    (h : ∀ value ∈ values, value.isFloat = false) (bound : Nat) :
    Document.IsFractionless { body := bindingsFrom bound values } := by
  intro binding hbinding
  rw [bindingsFrom_eq] at hbinding
  obtain ⟨i, hi, rfl⟩ := List.mem_mapIdx.1 hbinding
  exact (Node.isFloat_ofLiteral _).trans (h _ (List.getElem_mem hi))

section Literals

variable {entity : Entity}

theorem Clause.isFloat_literals {clause : Clause}
    (h : ∀ value ∈ clause.constants, value.isFloat = false) :
    ∀ value ∈ clause.literals entity, value.isFloat = false := by
  cases clause with
  | filter predicate => exact h
  | order keys =>
    intro value hvalue
    obtain ⟨key, -, hvalue⟩ := List.mem_flatMap.1 hvalue
    unfold SortKey.literals at hvalue
    split at hvalue
    · obtain ⟨role, -, hvalue⟩ := List.mem_flatMap.1 hvalue
      simp only [List.mem_cons, List.not_mem_nil, or_false] at hvalue
      rcases hvalue with rfl | rfl
      · rfl
      · rfl
    · cases hvalue

theorem ResultOperator.isFloat_literals {operator : ResultOperator}
    (h : ∀ value ∈ operator.constants, value.isFloat = false) :
    ∀ value ∈ operator.literals, value.isFloat = false := by
  cases operator with
  | take n => exact h
  | skip n => exact h
  | _ => exact List.forall_mem_nil _

/-- A query without fractions binds none. -/
theorem Query.isFloat_literals {query : Query}
    (h : ∀ value ∈ query.constants, value.isFloat = false) (settings : Settings)
    (bucket : String) : ∀ value ∈ query.literals settings entity bucket, value.isFloat = false := by
  obtain ⟨hbody, hoperators⟩ := List.forall_mem_append.1 h
  have hsource : ∀ value ∈ sourceLiterals settings bucket, value.isFloat = false := by
    intro value hvalue
    simp only [sourceLiterals, List.mem_append, List.mem_cons, List.not_mem_nil, or_false,
      List.mem_map] at hvalue
    rcases hvalue with (rfl | rfl) | ⟨stop, -, rfl⟩ <;> rfl
  refine List.forall_mem_append.2 ⟨hsource, List.forall_mem_append.2 ⟨?_, ?_⟩⟩
  · intro value hvalue
    obtain ⟨clause, hclause, hvalue⟩ := List.mem_flatMap.1 hvalue
    exact Clause.isFloat_literals
      (fun v hv => hbody v (List.mem_flatMap.2 ⟨clause, hclause, hv⟩)) value hvalue
  · intro value hvalue
    obtain ⟨operator, hoperator, hvalue⟩ := List.mem_flatMap.1 hvalue
    exact ResultOperator.isFloat_literals
      (fun v hv => hoperators v (List.mem_flatMap.2 ⟨operator, hoperator, hv⟩)) value hvalue

end Literals

/-- The request of a query without fractions arrives as it was sent: its text is read as the same
query, the same document and the same dialect, which is the one that is always asked for. -/
theorem Query.request_arrives {settings : Settings} {registry : Registry} {bucket : String}
    {query : Query} {request : Request}
    (h : (query.lower settings registry bucket).2 = .ok request)
    (hfloat : ∀ value ∈ query.constants, value.isFloat = false) :
    (Json.read? request.json.text).bind Request.ofJson? = some request
      ∧ request.bindings.package = none ∧ request.bindings.imports = none
      ∧ request.dialect = {} := by
  obtain ⟨entity, -, hbindings⟩ := Query.bindings_of_lower h
  refine ⟨Request.read?_text ?_, ?_, ?_, Query.dialect_of_lower h⟩
  · rw [hbindings]
    exact Progress.isFractionless_bindingsFrom (Query.isFloat_literals hfloat settings bucket) 0
  · rw [hbindings]
  · rw [hbindings]

/-- A query over a duration and a string of quotes, line breaks and controls. -/
def escapedSampleQuery : Query :=
  { sampleQuery with
    body :=
      [.filter (.binary .andAlso
        (.binary .lessThan (.member "Value")
          (.constant (.duration (Span.ofInt64 (-5400000000001)))))
        (.binary .equal (.member "Id") (.constant (.string "\"\\\n\x00é"))))] }

theorem Query.request_arrives_sample :
    ∃ request, (escapedSampleQuery.lower sampleSettings sampleRegistry "a\"\tb").2 = .ok request
      ∧ request.bindings.at? 3
        = some (.duration [⟨-1, "h"⟩, ⟨-30, "m"⟩, ⟨-1, "ns"⟩])
      ∧ request.bindings.at? 4 = some (.string "\"\\\n\x00é")
      ∧ (Json.read? request.json.text).bind Request.ofJson? = some request := by
  obtain ⟨request, hrequest⟩ : ∃ request,
      (escapedSampleQuery.lower sampleSettings sampleRegistry "a\"\tb").2 = .ok request := ⟨_, rfl⟩
  have hfloat : ∀ value ∈ escapedSampleQuery.constants, value.isFloat = false := by decide
  obtain ⟨entity, hentity, hbindings⟩ := Query.bindings_of_lower hrequest
  obtain rfl := Option.some.inj hentity
  refine ⟨request, hrequest, ?_, ?_, (Query.request_arrives hrequest hfloat).1⟩
  · rw [hbindings]
    decide +kernel
  · rw [hbindings]
    decide +kernel

end EntityFlux
