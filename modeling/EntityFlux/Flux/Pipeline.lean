import EntityFlux.Text.Quoted

/-!
# Pipelines

A pipeline collects the arguments of its stages in any order and is then written stage by stage in
one fixed order: source, range, dropped columns, pivot, filter, sorts, limit, result.
-/

namespace EntityFlux.Flux

inductive ResultFunction where
  | none
  | count
deriving DecidableEq, Repr

/-- All texts are Flux expressions, apart from the names of the dropped columns. -/
structure Pipeline where
  bucket : Option String := none
  rangeStart : Option String := none
  rangeStop : Option String := none
  dropColumns : List String := []
  filters : List String := []
  /-- Column and direction of each sort, in order. -/
  sorts : List (String × String) := []
  limitCount : Option String := none
  limitOffset : Option String := none
  resultFunction : ResultFunction := .none
deriving DecidableEq, Repr

namespace Pipeline

def addFilter (p : Pipeline) (predicate : String) : Pipeline :=
  { p with filters := p.filters ++ [predicate] }

def addSort (p : Pipeline) (column descending : String) : Pipeline :=
  { p with sorts := p.sorts ++ [(column, descending)] }

/-- The columns that describe a series and not a point. -/
def seriesColumns : List String := ["_start", "_stop", "_measurement"]

def resultColumn : String := "linq_result_column"

def listText (items : List String) : String := "[" ++ ", ".intercalate items ++ "]"

/-- A call with those of its arguments that are present; no call without any. -/
def call? (name : String) (arguments : List (String × Option String)) : Option String :=
  match arguments.filterMap fun (key, value) => value.map fun value => key ++ ": " ++ value with
  | [] => none
  | present => some (name ++ "(" ++ ", ".intercalate present ++ ")")

def source? (p : Pipeline) : Option String := call? "from" [("bucket", p.bucket)]

def range? (p : Pipeline) : Option String :=
  call? "range" [("start", p.rangeStart), ("stop", p.rangeStop)]

def drop? (p : Pipeline) : Option String :=
  if p.dropColumns = [] then none
  else call? "drop" [("columns", some (listText (p.dropColumns.map Text.quote)))]

def pivot : String := "pivot(rowKey:[\"_time\"], columnKey: [\"_field\"], valueColumn: \"_value\")"

/-- One stage for all predicates that are not empty. -/
def filter? (p : Pipeline) : Option String :=
  match (p.filters.filter (· ≠ "")).map fun predicate => "(" ++ predicate ++ ")" with
  | [] => none
  | predicates => some ("filter(fn: (r) => " ++ " and ".intercalate predicates ++ ")")

def sort? (sort : String × String) : Option String :=
  call? "sort" [("columns", some (listText [sort.1])), ("desc", some sort.2)]

/-- An offset alone limits nothing. -/
def limit? (p : Pipeline) : Option String :=
  match p.limitCount with
  | some count => call? "limit" [("n", some count), ("offset", p.limitOffset)]
  | none => none

def resultStages (p : Pipeline) : List String :=
  match p.resultFunction with
  | .none => []
  | .count =>
    ["stateCount(fn: (r) => true, column: \"" ++ resultColumn ++ "\")",
     "last(column: \"" ++ resultColumn ++ "\")",
     "keep(columns: [\"" ++ resultColumn ++ "\"])"]

def stages (p : Pipeline) : List String :=
  p.source?.toList ++ p.range?.toList ++ p.drop?.toList ++ [pivot] ++ p.filter?.toList
    ++ p.sorts.filterMap sort? ++ p.limit?.toList ++ p.resultStages

def text (p : Pipeline) : String := " |> ".intercalate p.stages

/-- The offset that is lost because there is no limit to apply it to. -/
def lostOffset? (p : Pipeline) : Option String :=
  match p.limitCount with
  | some _ => none
  | none => p.limitOffset

end Pipeline

end EntityFlux.Flux
