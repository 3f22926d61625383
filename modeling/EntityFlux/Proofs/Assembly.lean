import EntityFlux.Proofs.Stages

/-!
# Assembling pipelines

A pipeline is told its arguments one by one, in any order and any number of times. What it holds in
the end is said from the calls alone (`ofCalls_eq`): of each setting the last, of filters and sorts
all. Its text depends on nothing else, and not on filters that are empty either.
-/

namespace EntityFlux

open Flux

namespace Flux.Pipeline

/-- One thing that a pipeline can be told. -/
inductive Call where
  | setBucket (bucket : String)
  | setRangeStart (start : String)
  | setRangeStop (stop : String)
  | setDropColumns (columns : List String)
  | addFilter (predicate : String)
  | addSort (column descending : String)
  | setLimitCount (count : String)
  | setLimitOffset (offset : String)
  | setResultFunction (function : ResultFunction)
deriving DecidableEq

namespace Call

def apply : Call → Pipeline → Pipeline
  | .setBucket bucket, p => { p with bucket := some bucket }
  | .setRangeStart start, p => { p with rangeStart := some start }
  | .setRangeStop stop, p => { p with rangeStop := some stop }
  | .setDropColumns columns, p => { p with dropColumns := columns }
  | .addFilter predicate, p => p.addFilter predicate
  | .addSort column descending, p => p.addSort column descending
  | .setLimitCount count, p => { p with limitCount := some count }
  | .setLimitOffset offset, p => { p with limitOffset := some offset }
  | .setResultFunction function, p => { p with resultFunction := function }

/-! The argument of a call, for each kind of call. -/

def bucket? : Call → Option String
  | .setBucket bucket => some bucket
  | _ => none

def rangeStart? : Call → Option String
  | .setRangeStart start => some start
  | _ => none

def rangeStop? : Call → Option String
  | .setRangeStop stop => some stop
  | _ => none

def dropColumns? : Call → Option (List String)
  | .setDropColumns columns => some columns
  | _ => none

def filter? : Call → Option String
  | .addFilter predicate => some predicate
  | _ => none

def sort? : Call → Option (String × String)
  | .addSort column descending => some (column, descending)
  | _ => none

def limitCount? : Call → Option String
  | .setLimitCount count => some count
  | _ => none

def limitOffset? : Call → Option String
  | .setLimitOffset offset => some offset
  | _ => none

def resultFunction? : Call → Option ResultFunction
  | .setResultFunction function => some function
  | _ => none

end Call

/-- The argument of the last call of a kind. -/
def lastArgument {α : Type} (argument? : Call → Option α) (calls : List Call) : Option α :=
  (calls.filterMap argument?).getLast?

/-- The predicates to filter by; an empty one is none. -/
def predicates (calls : List Call) : List String :=
  (calls.filterMap Call.filter?).filter (· ≠ "")

/-- The pipeline after a sequence of calls. -/
def ofCalls (calls : List Call) : Pipeline := calls.foldl (fun p call => call.apply p) {}

theorem lastArgument_concat {α : Type} (argument? : Call → Option α) (calls : List Call)
    (call : Call) :
    lastArgument argument? (calls ++ [call])
      = (argument? call).or (lastArgument argument? calls) := by
  unfold lastArgument
  rw [List.filterMap_append, List.getLast?_append]
  cases h : argument? call with
  | none => simp [h]
  | some a => simp [h]

theorem ofCalls_concat (calls : List Call) (call : Call) :
    ofCalls (calls ++ [call]) = call.apply (ofCalls calls) := by
  rw [ofCalls, List.foldl_concat, ofCalls]

/-- What a pipeline holds after a sequence of calls. -/
theorem ofCalls_eq (calls : List Call) :
    ofCalls calls =
      { bucket := lastArgument Call.bucket? calls
        rangeStart := lastArgument Call.rangeStart? calls
        rangeStop := lastArgument Call.rangeStop? calls
        dropColumns := (lastArgument Call.dropColumns? calls).getD []
        filters := calls.filterMap Call.filter?
        sorts := calls.filterMap Call.sort?
        limitCount := lastArgument Call.limitCount? calls
        limitOffset := lastArgument Call.limitOffset? calls
        resultFunction := (lastArgument Call.resultFunction? calls).getD .none } := by
  induction calls using List.reverseRecOn with
  | nil => rfl
  | append_singleton calls call ih =>
    rw [ofCalls_concat, ih]
    -- every call changes one field; for the others its argument is `none`
    cases call <;>
      simp [Call.apply, addFilter, addSort, lastArgument_concat, List.filterMap_append,
        Call.bucket?, Call.rangeStart?, Call.rangeStop?, Call.dropColumns?, Call.filter?,
        Call.sort?, Call.limitCount?, Call.limitOffset?, Call.resultFunction?]

end Flux.Pipeline

/-! How the stages are written whose arguments may be any text. -/

namespace Stage

def source : Option String → List String
  | none => []
  | some bucket => ["from(bucket: " ++ bucket ++ ")"]

/-- Either end of the range may be missing. -/
def between : Option String → Option String → List String
  | none, none => []
  | some start, none => ["range(start: " ++ start ++ ")"]
  | none, some stop => ["range(stop: " ++ stop ++ ")"]
  | some start, some stop => ["range(start: " ++ start ++ ", stop: " ++ stop ++ ")"]

def sortBy (sort : String × String) : String :=
  "sort(columns: [" ++ sort.1 ++ "], desc: " ++ sort.2 ++ ")"

def result : ResultFunction → List String
  | .none => []
  | .count => count

end Stage

namespace Flux.Pipeline

variable (p : Pipeline)

theorem source?_toList : p.source?.toList = Stage.source p.bucket := by
  have hl : "from" ++ "(" ++ "bucket" ++ ": " = "from(bucket: " := by decide
  unfold source?
  rcases p.bucket with _ | bucket
  · rfl
  · simp only [call?_one, hl]
    rfl

theorem range?_toList : p.range?.toList = Stage.between p.rangeStart p.rangeStop := by
  have hstart : "range" ++ "(" ++ "start" ++ ": " = "range(start: " := by decide
  have hstop : "range" ++ "(" ++ "stop" ++ ": " = "range(stop: " := by decide
  have hm : ", " ++ "stop" ++ ": " = ", stop: " := by decide
  unfold range?
  rcases p.rangeStart with _ | start
  · rcases p.rangeStop with _ | stop
    · rfl
    · rw [show call? "range" [("start", none), ("stop", some stop)]
        = call? "range" [("stop", some stop)] from rfl, call?_one, hstop]
      rfl
  · rcases p.rangeStop with _ | stop
    · simp only [call?_two_none, hstart]
      rfl
    · simp only [call?_two, hstart, hm]
      rfl

theorem resultStages_eq : p.resultStages = Stage.result p.resultFunction := by
  unfold resultStages
  cases p.resultFunction with
  | none => rfl
  | count => decide

/-- The stages of any pipeline. -/
theorem stages_eq :
    p.stages = Stage.source p.bucket ++ Stage.between p.rangeStart p.rangeStop
      ++ Stage.drop p.dropColumns ++ [Stage.pivot] ++ Stage.filter (p.filters.filter (· ≠ ""))
      ++ p.sorts.map Stage.sortBy ++ Stage.limit p.limitCount p.limitOffset
      ++ Stage.result p.resultFunction := by
  have hsorts : p.sorts.filterMap Pipeline.sort? = p.sorts.map Stage.sortBy := by
    rw [← List.filterMap_eq_map]
    exact List.filterMap_congr fun sort _ => sort?_eq sort
  unfold stages
  rw [source?_toList, range?_toList, drop?_toList, filter?_toList, hsorts, limit?_toList,
    resultStages_eq]
  rfl

/-- Two sequences of calls that say the same: what counts of each setting, the filters that are not
empty, and the sorts. -/
structure SameArguments (calls calls' : List Call) : Prop where
  bucket : lastArgument Call.bucket? calls = lastArgument Call.bucket? calls'
  rangeStart : lastArgument Call.rangeStart? calls = lastArgument Call.rangeStart? calls'
  rangeStop : lastArgument Call.rangeStop? calls = lastArgument Call.rangeStop? calls'
  dropColumns : lastArgument Call.dropColumns? calls = lastArgument Call.dropColumns? calls'
  predicates : predicates calls = predicates calls'
  sorts : calls.filterMap Call.sort? = calls'.filterMap Call.sort?
  limitCount : lastArgument Call.limitCount? calls = lastArgument Call.limitCount? calls'
  limitOffset : lastArgument Call.limitOffset? calls = lastArgument Call.limitOffset? calls'
  resultFunction :
    lastArgument Call.resultFunction? calls = lastArgument Call.resultFunction? calls'

/-- The stages that a sequence of calls asks for, in the order in which they are written. -/
def stagesOf (calls : List Call) : List String :=
  Stage.source (lastArgument Call.bucket? calls)
    ++ Stage.between (lastArgument Call.rangeStart? calls) (lastArgument Call.rangeStop? calls)
    ++ Stage.drop ((lastArgument Call.dropColumns? calls).getD [])
    ++ [Stage.pivot]
    ++ Stage.filter (predicates calls)
    ++ (calls.filterMap Call.sort?).map Stage.sortBy
    ++ Stage.limit (lastArgument Call.limitCount? calls) (lastArgument Call.limitOffset? calls)
    ++ Stage.result ((lastArgument Call.resultFunction? calls).getD .none)

theorem stages_ofCalls (calls : List Call) : (ofCalls calls).stages = stagesOf calls := by
  rw [stages_eq, ofCalls_eq]
  rfl

/-- Sequences of calls that say the same give the same text, in whatever order they say it. The
text of a sequence are the stages that it asks for, in their fixed order; a stage that has no
argument is left out together with its separator. -/
theorem text_determined_by_arguments (calls calls' : List Call) :
    (ofCalls calls).text = " |> ".intercalate (stagesOf calls)
      ∧ (SameArguments calls calls' → (ofCalls calls).text = (ofCalls calls').text) := by
  have htext : ∀ calls, (ofCalls calls).text = " |> ".intercalate (stagesOf calls) := by
    intro calls
    rw [text, stages_ofCalls]
  refine ⟨htext calls, fun h => ?_⟩
  rw [htext, htext, stagesOf, stagesOf, h.bucket, h.rangeStart, h.rangeStop, h.dropColumns,
    h.predicates, h.sorts, h.limitCount, h.limitOffset, h.resultFunction]

/-- An overridden bucket, an empty filter and an offset without a limit leave no trace. -/
theorem text_determined_by_arguments_sample :
    let calls := [Call.setBucket "p9", .addSort "p3" "p4", .addFilter "", .setLimitOffset "p6",
      .addFilter "r[\"id\"] == p5", .setRangeStop "p2", .setBucket "p1"]
    let calls' := [Call.setBucket "p1", .setRangeStop "p2", .addFilter "r[\"id\"] == p5",
      .addSort "p3" "p4", .setLimitOffset "p6"]
    SameArguments calls calls'
      ∧ (ofCalls calls).text = (ofCalls calls').text
      ∧ (ofCalls calls).text = " |> ".intercalate
        ["from(bucket: p1)", "range(stop: p2)", Stage.pivot,
         "filter(fn: (r) => (r[\"id\"] == p5))", "sort(columns: [p3], desc: p4)"] := by
  intro calls calls'
  have hsame : SameArguments calls calls' := by
    constructor <;> decide
  have h := text_determined_by_arguments calls calls'
  refine ⟨hsame, h.2 hsame, ?_⟩
  have hstages : stagesOf calls = ["from(bucket: p1)", "range(stop: p2)", Stage.pivot,
      "filter(fn: (r) => (r[\"id\"] == p5))", "sort(columns: [p3], desc: p4)"] := by decide
  rw [h.1, hstages]

end Flux.Pipeline

end EntityFlux
