import ApiDoc.Workspace.Basic
import ApiDoc.Comment

/-!
# Adding items

An item is added with its comment, which is read at once. Diagnostics call a member by the names
of its owner and its own. If the reading is interrupted, no item is added.
-/

namespace ApiDoc

namespace Workspace

/-- The name by which diagnostics call an item below the item at a path. -/
def qualifiedName (w : Workspace) (path : List Text) (name : Text) : Text :=
  match Item.at? path w.package.exports with
  | some owner => owner.name ++ '.' :: name
  | none => name

/-- Puts an item with its documentation below the item at a path. -/
def register (path : List Text) (name : Text) (kind : ItemKind) (d : Documentation)
    (w : Workspace) : Workspace :=
  { w with
    documents := w.documents.push d
    package.exports :=
      Item.putAt path (.mk name kind w.documents.size []) w.package.exports }

end Workspace

namespace Action

/-- Keeps a documentation without an item. -/
def keep (d : Documentation) : Action DocId := do
  let w ← get
  set { w with documents := w.documents.push d }
  return w.documents.size

/-- Reads the body of a comment and makes its problems known. -/
def read (itemName : Option Text) (body : Text) : Action Documentation := do
  let announceAll (problems : List Problem) : Action Unit :=
    problems.forM fun problem => announce { problem, itemName }
  match Documentation.parse (← get).surroundings itemName body with
  | .ok d =>
    announceAll d.problems
    return d
  | .error e =>
    announceAll e.problems
    throw .missingPackage

/-- Adds an item below the item at a path, or an export if the path is empty. -/
def addItem (path : List Text) (name : Text) (kind : ItemKind) (comment : Text) : Action Unit := do
  let w ← get
  if w.isComplete then throw .alreadyComplete
  let d ← read (some (w.qualifiedName path name)) (Comment.body comment)
  modify (Workspace.register path name kind d)

/-- Makes the items of another package known. -/
def addExternal (package : Text) (items : OrderedMap ResolvedItem) : Action Unit :=
  modify fun w => { w with external := OrderedMap.put package items w.external }

end Action

end ApiDoc
