import EntityFlux.Flux.Pipeline
import EntityFlux.Flux.Request
import EntityFlux.Lowering.Predicate
import EntityFlux.Lowering.Settings
import EntityFlux.Model.Query

/-!
# Lowering queries to Flux

A query is gone through clause by clause. Every literal on the way, and every column and direction
of a sort, is bound to the next parameter; the pipeline only ever sees parameter names and record
columns. The first reason to refuse ends the attempt, and what was bound and noted before stays.
-/

namespace EntityFlux

open Flux

structure Progress where
  /-- The values bound so far; the i-th belongs to the i-th parameter. -/
  parameters : List Literal := []
  pipeline : Pipeline := {}
  events : List Event := []

namespace Progress

def note (event : Event) (p : Progress) : Progress := { p with events := p.events ++ [event] }

def bindAll (values : List Literal) (p : Progress) : Progress :=
  { p with
    parameters := p.parameters ++ values
    events := p.events ++ Event.registrations p.parameters.length values }

def edit (f : Pipeline → Pipeline) (p : Progress) : Progress := { p with pipeline := f p.pipeline }

/-- One statement for each parameter, in their order. -/
def bindingsFrom (bound : Nat) : List Literal → List Binding
  | [] => []
  | value :: rest =>
    ⟨parameterName (bound + 1), Node.ofLiteral value⟩ :: bindingsFrom (bound + 1) rest

def document (p : Progress) : Document := { body := bindingsFrom 0 p.parameters }

end Progress

/-- A step that goes on from what has been done and may refuse. -/
def Attempt (α : Type) : Type := Progress → Progress × Except Refusal α

namespace Attempt

instance : Monad Attempt where
  pure a := fun p => (p, .ok a)
  bind step next := fun p =>
    match step p with
    | (p, .ok a) => next a p
    | (p, .error refusal) => (p, .error refusal)

def refuse {α : Type} (refusal : Refusal) : Attempt α := fun p => (p, .error refusal)

def ofExcept {α : Type} (result : Except Refusal α) : Attempt α := fun p => (p, result)

def update (f : Progress → Progress) : Attempt Unit := fun p => (f p, .ok ())

/-- Binds a value and gives the name of its parameter. -/
def register (value : Literal) : Attempt String := fun p =>
  (p.bindAll [value], .ok (parameterName (p.parameters.length + 1)))

def compile (entity : Entity) (e : Expr) : Attempt String := fun p =>
  let compiled := e.compile entity p.parameters.length
  (p.bindAll compiled.literals, compiled.result)

end Attempt

open Attempt

/-- Source and range, with the drop of columns. -/
def lowerSource (settings : Settings) (bucket : String) : Attempt Unit := do
  let bucket ← register (.string bucket)
  let start ← register (.integer 0)
  update (·.edit ({ · with bucket := some bucket, rangeStart := some start }))
  match settings.rangeStop with
  | some stop => do
    let stop ← register (.integer stop)
    update (·.edit ({ · with rangeStop := some stop }))
  | none => pure ()
  update (·.edit ({ · with dropColumns := settings.dropColumns }))

def findEntity (registry : Registry) (name : String) : Attempt Entity :=
  match registry.find? name with
  | some entity => pure entity
  | none => refuse (.unknownEntity name)

/-- A sort key is a member; its column and its direction are bound. -/
def SortKey.lower (entity : Entity) (key : SortKey) : Attempt Unit :=
  match key.expr with
  | .member name => do
    let column ← ofExcept (entity.resolve name)
    let column ← register (.string column)
    let descending ← register (.boolean key.direction.isDescending)
    update (·.edit (·.addSort column descending))
  | e => refuse (.unsupportedExpression e.kind)

def Clause.lower (entity : Entity) : Clause → Attempt Unit
  | .filter predicate => do
    let fragment ← compile entity predicate
    update (·.note (.compiledFilter fragment))
    update (·.edit (·.addFilter fragment))
  | .order keys => keys.forM (·.lower entity)

/-- Selecting members leaves no trace in the pipeline, but they have to exist. -/
def Projection.lower (entity : Entity) : Projection → Attempt Unit
  | .entity => pure ()
  | .members names => names.forM fun name => do
    let _ ← ofExcept (entity.resolve name)

/-- Of several limits or offsets the last counts. -/
def ResultOperator.lower (settings : Settings) (entity : Entity) :
    ResultOperator → Attempt Unit
  | .take n => do
    let limit ← Attempt.compile entity n
    update (·.edit ({ · with limitCount := some limit }))
  | .skip n => do
    let offset ← Attempt.compile entity n
    update (·.edit ({ · with limitOffset := some offset }))
  | .count =>
    if settings.countResult then update (·.edit ({ · with resultFunction := .count }))
    else refuse (.unsupportedOperator (ResultOperator.name .count))
  | operator => refuse (.unsupportedOperator operator.name)

/-- Writes the pipeline and notes what was written. -/
def finish : Attempt Request := fun p =>
  let query := p.pipeline.text
  let lost := p.pipeline.lostOffset?.toList.map Event.offsetLost
  let events :=
    p.events ++ lost ++ [.rendered p.pipeline.stages.length query, .finished p.parameters.length]
  ({ p with events }, .ok { query, bindings := p.document })

def Query.attempt (settings : Settings) (registry : Registry) (bucket : String) (query : Query) :
    Attempt Request := do
  lowerSource settings bucket
  let entity ← findEntity registry query.entity
  query.body.forM (·.lower entity)
  query.projection.lower entity
  query.operators.forM (·.lower settings entity)
  finish

/-- The events of the attempt and its outcome. -/
def Query.lower (settings : Settings) (registry : Registry) (bucket : String) (query : Query) :
    List Event × Except Refusal Request :=
  let (p, result) := query.attempt settings registry bucket {}
  (p.events, result)

end EntityFlux
