import ApiDoc.Item.Kind
import ApiDoc.OrderedMap

/-!
# Packages

The items of a package: its exports, and below an item its members, in the order in which their
names came up. An item points to its documentation, which is kept elsewhere.
-/

namespace ApiDoc

/-- The number under which a documentation is kept. -/
abbrev DocId := Nat

/-- A declaration of a package, with its documentation and its members. -/
inductive Item where
  /-- An item from its name, its kind, its documentation and its members. -/
  | mk (name : Text) (kind : ItemKind) (doc : DocId) (members : List (Text × Item))

namespace Item

/-- The name of an item; for a member, without the name of its owner. -/
def name : Item → Text
  | mk name _ _ _ => name

/-- The kind of an item. -/
def kind : Item → ItemKind
  | mk _ kind _ _ => kind

/-- Where the documentation of an item is kept. -/
def doc : Item → DocId
  | mk _ _ doc _ => doc

/-- The members of an item. -/
def members : Item → OrderedMap Item
  | mk _ _ _ members => members

/-- An item as messages show it. -/
def describe (item : Item) : Text :=
  "ApiItem(".toList ++ item.kind.name.toList ++ ' ' :: '\'' :: item.name ++
    s!"', members={item.members.length})".toList

/-- The item at a path below some items. -/
def at? : List Text → OrderedMap Item → Option Item
  | [], _ => none
  | [name], items => OrderedMap.find? name items
  | name :: path, items => (OrderedMap.find? name items).bind fun item => at? path item.members

/-- Puts an item below the item at a path; below the empty path, among the items themselves. -/
def putAt : List Text → Item → OrderedMap Item → OrderedMap Item
  | [], item, items => OrderedMap.put item.name item items
  | step :: path, item, items =>
    items.map fun (name, owner) =>
      if name = step then
        (name, mk owner.name owner.kind owner.doc (putAt path item owner.members))
      else (name, owner)

end Item

/-- A package. -/
structure Package where
  /-- The full name, which may be empty; none if the name is left out. -/
  name : Option Text
  /-- The exports. -/
  exports : OrderedMap Item := []

namespace Package

/-- The name as readers see it; an empty list stands for one that is left out. -/
def title (package : Package) : Text :=
  package.name.getD "[]".toList

/-- An export, or a member of it if a member is named. -/
def find? (package : Package) (exportName memberName : Text) : Option Item := do
  let item ← OrderedMap.find? exportName package.exports
  if memberName.isEmpty then return item else OrderedMap.find? memberName item.members

/-- Every export followed by its members. -/
def items (package : Package) : List Item :=
  (OrderedMap.values package.exports).flatMap fun item => item :: OrderedMap.values item.members

end Package

end ApiDoc
