import ApiDoc.Data.Decode
import ApiDoc.Workspace.Add

/-!
# Manifests

A manifest is a JSON object that names a package, lists its items with their comments, and may hold
the items of other packages. Reading one fills a workspace. The parts are read in a fixed order,
and the first fault ends the reading.
-/

namespace ApiDoc.Manifest

/-- What is wrong with a manifest. -/
inductive Error where
  /-- The package is not named. -/
  | missingPackage
  /-- The name of the package is no text. -/
  | packageNotText
  /-- The name of the package is none. -/
  | badPackageName (name : Text)
  /-- The items of other packages are no object. -/
  | externalNotObject (found : Json.Kind)
  /-- The items of another package are no object. -/
  | packageNotObject (package : Text) (found : Json.Kind)
  /-- An item of another package is ill-formed. -/
  | badData (package : Text) (e : DataError)
  /-- The items are no list. -/
  | itemsNotList (found : Json.Kind)
  /-- An item is no object. -/
  | itemNotObject (found : Json.Kind)
  /-- An item lacks a field. -/
  | missingField (name : String)
  /-- The kind of an item is none. -/
  | badKind (name value : Json)
  /-- The name of an item is no text. -/
  | nameNotText (found : Json.Kind)
  /-- The comment of an item is no text. -/
  | docsNotText (name : Text) (found : Json.Kind)
  /-- The members of an item are no list. -/
  | membersNotList (name : Text) (found : Json.Kind)
  /-- A member has members. -/
  | nestedTooDeep (owner name : Text)

/-- The wording for a value that is not of the kind it must be. -/
def expected (what : String) (wanted : String) (found : Json.Kind) : String :=
  s!"{what} must be a JSON {wanted}, got {found.name}"

/-- The wording of an error. -/
def Error.message : Error → String
  | missingPackage => "Manifest is missing the 'package' field"
  | packageNotText => "Manifest field 'package' must be a string"
  | badPackageName name => s!"Invalid package name: {Text.toString (Text.quoted name)}"
  | externalNotObject found => expected "Manifest field 'external'" "object" found
  | packageNotObject package found =>
    expected s!"API data for package {Text.toString (Text.quoted package)}" "object" found
  | badData package e =>
    s!"Invalid API data for package {Text.toString (Text.quoted package)}: {e.message}"
  | itemsNotList found => expected "Manifest field 'items'" "array" found
  | itemNotObject found => expected "Manifest item" "object" found
  | missingField name => s!"Manifest item is missing the '{name}' field"
  | badKind name value =>
    s!"Manifest item {Text.toString name.describe}: {(DataError.unknownKind value).message}"
  | nameNotText found => expected "Manifest item name" "string" found
  | docsNotText name found =>
    expected s!"Manifest item {Text.toString (Text.quoted name)} docs" "string" found
  | membersNotList name found =>
    expected s!"Manifest item {Text.toString (Text.quoted name)} members" "array" found
  | nestedTooDeep owner name =>
    s!"Manifest item {Text.toString owner}.{Text.toString name}:" ++
      " members may only be nested one level"

/-- What can end the reading of a manifest. -/
inductive Failure where
  /-- The manifest is ill-formed. -/
  | malformed (e : Error)
  /-- Reading a comment was interrupted. -/
  | interrupted (i : Interruption)

/-- The wording of a failure. -/
def Failure.message : Failure → String
  | malformed e => e.message
  | interrupted i => i.message

/-- An entry of the list of items, whose members are not read yet. -/
structure Entry where
  /-- The name of the item. -/
  name : Text
  /-- Its kind. -/
  kind : ItemKind
  /-- Its comment. -/
  docs : Text
  /-- Its members. -/
  members : List Json

/-- The items of another package. -/
def externalItems (package : Text) : Json → Except Error (OrderedMap ResolvedItem)
  | .obj fields =>
    fields.mapM fun (key, value) =>
      match ResolvedItem.ofJson value with
      | .ok item => .ok (key, item)
      | .error e => .error (.badData package e)
  | v => .error (.packageNotObject package v.kind)

/-- The items of all other packages. -/
def external : Json → Except Error (OrderedMap (OrderedMap ResolvedItem))
  | .obj fields =>
    fields.mapM fun (package, value) => do
      return (package, ← externalItems package value)
  | v => .error (.externalNotObject v.kind)

/-- A text of an entry; the empty text where it is left out. -/
def docsOf (name : Text) : Option Json → Except Error Text
  | none => .ok []
  | some (.str t) => .ok t
  | some v => .error (.docsNotText name v.kind)

/-- The members of an entry; none where they are left out. -/
def membersOf (name : Text) : Option Json → Except Error (List Json)
  | none => .ok []
  | some (.arr vs) => .ok vs
  | some v => .error (.membersNotList name v.kind)

/-- An entry of the list of items, or of the members of an owner. -/
def entry (owner : Option Text) (v : Json) : Except Error Entry := do
  let .obj fields := v | throw (.itemNotObject v.kind)
  let some name := OrderedMap.find? "name".toList fields | throw (.missingField "name")
  let some kind := OrderedMap.find? "kind".toList fields | throw (.missingField "kind")
  let kind ←
    match kind.itemKind with
    | .ok kind => pure kind
    | .error _ => throw (.badKind name kind)
  let .str name := name | throw (.nameNotText name.kind)
  let docs ← docsOf name (v.field? "docs".toList)
  let members ← membersOf name (v.field? "members".toList)
  match owner with
  | none => return { name, kind, docs, members }
  | some owner =>
    if members.isEmpty then return { name, kind, docs, members }
    else throw (.nestedTooDeep owner name)

/-- Reading in a workspace, which may fail; what was done before stays done. -/
abbrev Reading := ExceptT Failure (StateM Workspace)

/-- The value of a part of the manifest, if it is well-formed. -/
def Reading.ofExcept {α : Type} : Except Error α → Reading α
  | .ok a => pure a
  | .error e => throw (.malformed e)

/-- An action as a part of the reading. -/
def Reading.perform {α : Type} (action : Action α) : Reading α :=
  ExceptT.adapt Failure.interrupted action

/-- Reads a member of an export. -/
def readMember (owner : Text) (v : Json) : Reading Unit := do
  let e ← Reading.ofExcept (entry (some owner) v)
  Reading.perform (Action.addItem [owner] e.name e.kind e.docs)

/-- Reads an item and its members. -/
def readItem (v : Json) : Reading Unit := do
  let e ← Reading.ofExcept (entry none v)
  Reading.perform (Action.addItem [] e.name e.kind e.docs)
  e.members.forM (readMember e.name)

/-- The items that a manifest lists; none where the list is left out. -/
def itemsOf : Option Json → Except Error (List Json)
  | none => .ok []
  | some (.arr vs) => .ok vs
  | some v => .error (.itemsNotList v.kind)

/-- The workspace of a manifest before its items are read. -/
def workspace (config : Config) (manifest : OrderedMap Json) : Except Error Workspace := do
  let some package := OrderedMap.find? "package".toList manifest | throw .missingPackage
  let .str name := package | throw .packageNotText
  let external ← external ((OrderedMap.find? "external".toList manifest).getD (.obj []))
  match Workspace.ofName? name config with
  | some w => return { w with external }
  | none => throw (.badPackageName name)

/-- Reads a manifest. If its items are ill-formed, the workspace is what was reached. -/
def read (config : Config) (manifest : OrderedMap Json) :
    Except Failure Unit × Option Workspace :=
  match workspace config manifest with
  | .error e => (.error (.malformed e), none)
  | .ok w =>
    let reading : Reading Unit := do
      let items ← Reading.ofExcept (itemsOf (OrderedMap.find? "items".toList manifest))
      items.forM readItem
    let (outcome, w) := reading.run w
    (outcome, some w)

end ApiDoc.Manifest
