import ApiDoc.Workspace.Basic

/-!
# Resolving references

Where a reference leads: to an item of the package itself, whose documentation may still change, or
to an item of another package. A reference that names its package and leads nowhere is warned
about; one without a package is not.
-/

namespace ApiDoc

/-- Where a reference leads. -/
inductive Target where
  /-- To an item of the package, by its kind and its documentation. -/
  | own (kind : ItemKind) (doc : DocId)
  /-- To an item of another package. -/
  | external (item : ResolvedItem)
  deriving DecidableEq, Repr

/-- Whether a target is an item of the package. -/
def Target.isOwn : Target → Bool
  | own _ _ => true
  | external _ => false

/-- The outcome of looking a reference up. -/
inductive Resolution where
  /-- It leads to a target. -/
  | found (target : Target)
  /-- It leads nowhere, and there may be a warning about that. -/
  | missing (warning : Option Warning)
  deriving DecidableEq, Repr

namespace Workspace

/-- What is known of a target at the moment. -/
def view (w : Workspace) : Target → ResolvedItem
  | .own kind doc => (w.document doc).resolved kind
  | .external item => item

/-- Whether a key names an item of the package itself. -/
def isOwnKey (w : Workspace) (key : ItemKey) : Bool :=
  key.fullPackageName.isEmpty || w.package.name = some key.fullPackageName

/-- Looks a key up. -/
def lookUp (w : Workspace) (key : ItemKey) : Resolution :=
  if w.isOwnKey key then
    match w.package.find? key.exportName key.memberName with
    | some item => .found (.own item.kind item.doc)
    | none => .missing (if key.fullPackageName.isEmpty then none else some (.unresolved key))
  else
    match OrderedMap.find? key.fullPackageName w.external with
    | none => .missing (some (.unknownPackage key))
    | some items =>
      match OrderedMap.find? key.itemText items with
      | some item => .found (.external item)
      | none => .missing (some (.unresolved key))

end Workspace

namespace Action

/-- Warns about a reference. -/
def warn (warning : Warning) : Action Unit := do
  log (.warning warning)
  modify fun w => { w with warnings := w.warnings ++ [warning] }

/-- Resolves a reference. -/
def resolve (key : ItemKey) : Action (Option Target) := do
  match (← get).lookUp key with
  | .found target => return some target
  | .missing warning =>
    warning.forM warn
    return none

end Action

end ApiDoc
