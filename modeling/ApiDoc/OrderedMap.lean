import ApiDoc.Text.Basic

/-!
# Maps in insertion order

A map from names to values as the list of its entries in the order in which the names were first
put. Putting a value under a name that is present keeps the name's place.
-/

namespace ApiDoc

/-- The entries of a map, in the order in which their names were first put. -/
abbrev OrderedMap (α : Type) := List (Text × α)

namespace OrderedMap

variable {α β : Type}

/-- The value under a name. -/
def find? (name : Text) : OrderedMap α → Option α
  | [] => none
  | (key, value) :: entries => if key = name then some value else find? name entries

/-- Puts a value under a name: in the name's place if it is present, else at the end. -/
def put (name : Text) (value : α) : OrderedMap α → OrderedMap α
  | [] => [(name, value)]
  | (key, old) :: entries =>
    if key = name then (key, value) :: entries else (key, old) :: put name value entries

/-- The values, in order. -/
def values (m : OrderedMap α) : List α :=
  m.map (·.2)

/-- Every value replaced by its image. -/
def mapValues (f : α → β) (m : OrderedMap α) : OrderedMap β :=
  m.map fun (name, value) => (name, f value)

end OrderedMap

end ApiDoc
