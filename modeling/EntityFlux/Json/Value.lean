import EntityFlux.Decimal.Binary64
import EntityFlux.Dictionary

/-!
# JSON values

Fields stand in the order in which they were written, a name may occur more than once, and whole
numbers are kept apart from fractions.
-/

namespace EntityFlux

inductive Json where
  | null
  | bool (b : Bool)
  | int (i : Int)
  | float (x : Binary64)
  | str (s : String)
  | arr (items : List Json)
  | obj (fields : List (String × Json))
  /-- Text of the right form that denotes no value: a number out of range, a string with half a
  surrogate pair, a value nested too deeply. It may be passed over but not read. -/
  | unusable

namespace Json

mutual

/-- Whether no part of the value is unusable. -/
def isUsable : Json → Bool
  | .unusable => false
  | .arr items => areUsable items
  | .obj fields => fieldsUsable fields
  | _ => true

def areUsable : List Json → Bool
  | [] => true
  | item :: items => isUsable item && areUsable items

def fieldsUsable : List (String × Json) → Bool
  | [] => true
  | (_, value) :: fields => isUsable value && fieldsUsable fields

end

mutual

/-- How many arrays and objects stand inside each other. -/
def depth : Json → Nat
  | .arr items => itemsDepth items + 1
  | .obj fields => fieldsDepth fields + 1
  | _ => 0

def itemsDepth : List Json → Nat
  | [] => 0
  | item :: items => max (depth item) (itemsDepth items)

def fieldsDepth : List (String × Json) → Nat
  | [] => 0
  | (_, value) :: fields => max (depth value) (fieldsDepth fields)

end

mutual

/-- Every object in the value with its fields sorted and without repetitions. -/
def sorted : Json → Json
  | .arr items => .arr (sortedItems items)
  | .obj fields => .obj (Dictionary.ofList (sortedValues fields))
  | other => other

def sortedItems : List Json → List Json
  | [] => []
  | item :: items => sorted item :: sortedItems items

def sortedValues : List (String × Json) → List (String × Json)
  | [] => []
  | (name, value) :: fields => (name, sorted value) :: sortedValues fields

end

end Json

end EntityFlux
