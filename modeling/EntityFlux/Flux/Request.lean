import EntityFlux.Flux.Document

/-!
# Requests

What is sent to the server: the query, the document of its parameters, and the form in which the
answer is wanted.
-/

namespace EntityFlux.Flux

/-- The rows that can head a table of the answer. -/
inductive HeaderRow where
  | datatype
  | group
  | default
deriving DecidableEq, Repr

structure Dialect where
  header : Bool := true
  delimiter : String := ","
  commentMark : String := "#"
  rows : List HeaderRow := [.datatype, .group, .default]
deriving DecidableEq, Repr

structure Request where
  query : String
  bindings : Document
  dialect : Dialect := {}
deriving DecidableEq

end EntityFlux.Flux
