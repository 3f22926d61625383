import EntityFlux.Dictionary
import EntityFlux.Refusal

/-!
# Schemas

How the members of an entity type are stored: the role of a member decides the column that holds
it. A registry knows one schema for each entity name.
-/

namespace EntityFlux

inductive Role where
  | timestamp
  | tag (column : String)
  | field (column : String)
  | measurement
deriving DecidableEq, Repr

namespace Role

def timeColumn : String := "_time"

def measurementColumn : String := "_measurement"

def column : Role → String
  | .timestamp => timeColumn
  | .tag column | .field column => column
  | .measurement => measurementColumn

def text : Role → String
  | .timestamp => "timestamp"
  | .tag column => "tag(" ++ column ++ ")"
  | .field column => "field(" ++ column ++ ")"
  | .measurement => "measurement"

end Role

structure Entity where
  name : String
  members : Dictionary Role := []
deriving DecidableEq, Repr

namespace Entity

def map (entity : Entity) (member : String) (role : Role) : Entity :=
  { entity with members := Dictionary.set member role entity.members }

def role? (entity : Entity) (member : String) : Option Role := Dictionary.get? member entity.members

/-- The column of a member. -/
def resolve (entity : Entity) (member : String) : Except Refusal String :=
  match entity.role? member with
  | some role => .ok role.column
  | none => .error (.unmappedMember entity.name member)

end Entity

/-- How a predicate over the record `r` reads a column. The name stands between the quotes as it
is. -/
def recordAccess (column : String) : String := "r[\"" ++ column ++ "\"]"

abbrev Registry := Dictionary Entity

namespace Registry

/-- A schema replaces an earlier one of the same name. -/
def register (registry : Registry) (entity : Entity) : Registry :=
  Dictionary.set entity.name entity registry

def ofEntities (entities : List Entity) : Registry := entities.foldl register []

def find? (registry : Registry) (name : String) : Option Entity := Dictionary.get? name registry

end Registry

end EntityFlux
