import ApiDoc.Json.Basic
import ApiDoc.Item.Resolved

/-!
# Documentation from JSON

The items of other packages are given as JSON. This module reads keys, elements and items, and says
what is wrong with data that holds none. Data is read field by field in a fixed order, and the
first fault is the one that is reported. Where elements and keys hold a text, no value of another
kind is taken in its place, so that nothing later has to ask what a text is.
-/

namespace ApiDoc

/-- Why data describes no item. -/
inductive DataError where
  /-- A field is missing. -/
  | missingField (name : Text)
  /-- A field was asked of a value that has none. -/
  | withoutFields (found : Json.Kind)
  /-- An object was expected. -/
  | notAnObject (found : Json.Kind)
  /-- A map of parameters was expected. -/
  | notParameters (found : Json.Kind)
  /-- A list was expected. -/
  | notAList (found : Json.Kind)
  /-- The parts of a key were expected. -/
  | notAKey (found : Json.Kind)
  /-- A key has no such part. -/
  | unknownPart (name : Text)
  /-- The name stands for the key itself, and no part may have it. -/
  | reservedPart (name : Text)
  /-- A text was expected, and nothing else can be held in its place. -/
  | notAText (found : Json.Kind)
  /-- There is no such kind of item. -/
  | unknownKind (value : Json)
  /-- There is no such stage of support. -/
  | unknownReleaseTag (value : Json)
  /-- There is no such status of a link. -/
  | unknownStatus (value : Json)
  /-- There is no such kind of element. -/
  | unknownElement (value : Json)

namespace DataError

/-- The wording for a field of a value that has none. -/
def withoutFieldsMessage : Json.Kind → String
  | .arr => "list indices must be integers or slices, not str"
  | .str => "string indices must be integers, not 'str'"
  | found => s!"'{found.name}' object is not subscriptable"

/-- The wording of an error. -/
def message : DataError → String
  | missingField name => Text.toString (Text.quoted name)
  | withoutFields found => withoutFieldsMessage found
  | notAnObject found => s!"'{found.name}' object has no attribute 'get'"
  | notParameters found => s!"'{found.name}' object has no attribute 'items'"
  | notAList found => s!"'{found.name}' object is not iterable"
  | notAKey found =>
    "aedoc.models.api_reference.ApiItemReference() argument after ** must be a mapping, not " ++
      found.name
  | unknownPart name =>
    s!"ApiItemReference.__init__() got an unexpected keyword argument '{Text.toString name}'"
  | reservedPart name =>
    s!"ApiItemReference.__init__() got multiple values for argument '{Text.toString name}'"
  | notAText found => s!"'{found.name}' object is no text"
  | unknownKind value => s!"{Text.toString value.describe} is not a valid ApiItemKind"
  | unknownReleaseTag value => s!"{Text.toString value.describe} is not a valid ReleaseTag"
  | unknownStatus value => s!"{Text.toString value.describe} is not a valid LinkStatus"
  | unknownElement value => s!"Unknown markup element kind: {Text.toString value.describe}"

end DataError

namespace Json

/-- The text that a value is. -/
def text : Json → Except DataError Text
  | str t => .ok t
  | v => .error (.notAText v.kind)

/-- The value of a field that must be there, from a value that must be an object. -/
def requiredField (name : String) : Json → Except DataError Json
  | obj fields =>
    match OrderedMap.find? name.toList fields with
    | some v => .ok v
    | none => .error (.missingField name.toList)
  | v => .error (.withoutFields v.kind)

/-- The fields of a value that must be an object. -/
def fieldsOf : Json → Except DataError (OrderedMap Json)
  | obj fields => .ok fields
  | v => .error (.notAnObject v.kind)

/-- The values of a list. A text that is not empty is read as a list of texts, and so is an object
as the list of its names. -/
def values : Json → Except DataError (List Json)
  | arr vs => .ok vs
  | str t => .ok (t.map fun c => .str [c])
  | obj fields => .ok (fields.map fun (name, _) => .str name)
  | v => .error (.notAList v.kind)

/-- The kind of item that a value names. -/
def itemKind (v : Json) : Except DataError ItemKind :=
  match v with
  | str word => (ItemKind.ofName? word).elim (.error (.unknownKind v)) .ok
  | _ => .error (.unknownKind v)

/-- The stage of support that a value names. -/
def releaseTag (v : Json) : Except DataError ReleaseTag :=
  match v with
  | str word => (ReleaseTag.ofName? word).elim (.error (.unknownReleaseTag v)) .ok
  | _ => .error (.unknownReleaseTag v)

/-- The status of a link that a value names. -/
def linkStatus (v : Json) : Except DataError LinkStatus :=
  match v with
  | str word => (LinkStatus.ofName? word).elim (.error (.unknownStatus v)) .ok
  | _ => .error (.unknownStatus v)

end Json

namespace ItemKey

/-- The key without any part. -/
def empty : ItemKey where
  package := { scope := [], name := [] }
  exportName := []
  memberName := []

/-- Gives a part of a key its value. -/
def setPart (key : ItemKey) (name : Text) (value : Json) : Except DataError ItemKey := do
  if name = "scope_name".toList then
    return { key with package.scope := ← value.text }
  else if name = "package_name".toList then
    return { key with package.name := ← value.text }
  else if name = "export_name".toList then
    return { key with exportName := ← value.text }
  else if name = "member_name".toList then
    return { key with memberName := ← value.text }
  else if name = "self".toList then throw (.reservedPart name)
  else throw (.unknownPart name)

/-- The key with the given parts; those that are not given are empty. -/
def ofJson : Json → Except DataError ItemKey
  | .obj fields => fields.foldlM (fun key (name, value) => key.setPart name value) empty
  | v => .error (.notAKey v.kind)

end ItemKey

namespace Element

/-- The texts that display a link. -/
def displayOfJson (fields : OrderedMap Json) : Except DataError (List Text) :=
  match OrderedMap.find? "elements".toList fields with
  | none => .ok []
  | some v => do
    (← v.values).mapM fun e => do (← e.requiredField "text").text

/-- An element from its fields. -/
def ofFields (fields : OrderedMap Json) : Except DataError Element := do
  let kind := (OrderedMap.find? "kind".toList fields).getD .null
  let field (name : String) := (Json.obj fields).requiredField name
  match kind with
  | .str word =>
    if word = "text".toList then
      return .text (← (← field "text").text)
    else if word = "paragraph".toList then
      return .paragraph
    else if word = "html-tag".toList then
      return .htmlTag (← (← field "token").text)
    else if word = "web-link".toList then
      let display ← displayOfJson fields
      return .webLink display (← (← field "target_url").text)
    else if word = "api-link".toList then
      let display ← displayOfJson fields
      let target ← ItemKey.ofJson (← field "target")
      let status ←
        match OrderedMap.find? "status".toList fields with
        | some v => v.linkStatus
        | none => pure .resolved
      return .itemLink { display, target, status, place := none }
    else throw (.unknownElement kind)
  | _ => throw (.unknownElement kind)

/-- An element from JSON. -/
def ofJson (v : Json) : Except DataError Element := do
  ofFields (← v.fieldsOf)

end Element

/-- A block from a field that may be missing or empty. -/
def Block.ofJson (v : Option Json) : Except DataError Block :=
  match v with
  | none => .ok []
  | some v => if v.isEmpty then .ok [] else do (← v.values).mapM Element.ofJson

/-- The parameters from a field that may be missing. -/
def Content.parametersOfJson : Option Json → Except DataError (OrderedMap Block)
  | none => .ok []
  | some (.obj entries) =>
    entries.mapM fun (name, v) => do
      let fields ← v.fieldsOf
      return (name, ← Block.ofJson (OrderedMap.find? "description".toList fields))
  | some v => .error (.notParameters v.kind)

/-- An item from JSON. -/
def ResolvedItem.ofJson (v : Json) : Except DataError ResolvedItem := do
  let kind ← (← v.requiredField "kind").itemKind
  let releaseTag ←
    match v.field? "release_tag".toList with
    | some tag => tag.releaseTag
    | none => pure .unstated
  let summary ← Block.ofJson (v.field? "summary".toList)
  let remarks ← Block.ofJson (v.field? "remarks".toList)
  let deprecatedMessage ← Block.ofJson (v.field? "deprecated_message".toList)
  let returnsMessage ← Block.ofJson (v.field? "returns_message".toList)
  let parameters ← Content.parametersOfJson (v.field? "parameters".toList)
  return { kind, releaseTag,
           content := { summary, remarks, deprecatedMessage, returnsMessage, parameters } }

end ApiDoc
