import EntityFlux.Json.Decode

/-!
# Settings of the lowering
-/

namespace EntityFlux

structure Settings where
  /-- Columns to drop ahead of the pivot. -/
  dropColumns : List String := []
  /-- Whether counting is done in the pipeline or refused. -/
  countResult : Bool := false
  /-- Upper end of the time range, in seconds from 1970. -/
  rangeStop : Option Int64 := none
deriving DecidableEq

open Json.Decode in
def Settings.ofJson? (rules : Json.Rules) (json : Json) : Option Settings := do
  match ← fields rules ["drop_columns", "count_result_function", "range_stop"] json with
  | [dropColumns, countResult, rangeStop] => do
    let dropColumns ← defaulted [] (list? string?) dropColumns
    let countResult ← defaulted false bool? countResult
    let rangeStop ← defaulted none (nullable? int64?) rangeStop
    some { dropColumns, countResult, rangeStop }
  | _ => none

end EntityFlux
