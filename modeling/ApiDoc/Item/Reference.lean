import ApiDoc.Item.Key
import ApiDoc.Text.Word

/-!
# References to items

The notation `@scope/package:Export.member` for the key of an item. The package, the scope in it
and the member may be left out.
-/

namespace ApiDoc.Reference

/-- Why a text is no reference. -/
inductive Error where
  /-- It is empty, holds a blank, or its package part is none. -/
  | malformed
  /-- More than two names follow the package. -/
  | tooManyParts
  /-- The first name is no identifier. -/
  | badExport
  /-- The second name is no identifier. -/
  | badMember
  deriving DecidableEq, Repr

/-- The wording of an error. -/
def Error.message : Error → String
  | malformed =>
    "An API item reference must use the notation: " ++
      "\"@scopeName/packageName:exportName.memberName\""
  | tooManyParts => "Currently API item references are limited to a maximum of two parts"
  | badExport => "An API item reference must contain a valid export name"
  | badMember => "An API item reference must contain a valid member name"

/-- An identifier: a letter, underscore or dollar sign, then word characters and dollar signs. -/
def isIdentifier : Text → Bool
  | [] => false
  | c :: r =>
    (Text.isLetter c || c = '_' || c = '$') && r.all fun d => Text.isWord d || d = '$'

/-- The package part and the item part of a reference, cut at the first colon. -/
def packageAndItem (t : Text) : Except Error (PackageName × Text) :=
  match Text.splitFirst? ':' t with
  | none => .ok ({ scope := [], name := [] }, t)
  | some (before, after) =>
    match PackageName.ofFull? before with
    | some package => .ok (package, after)
    | none => .error .malformed

/-- The export and the member of an item part. -/
def exportAndMember (t : Text) : Except Error (Text × Text) :=
  match Text.splitOn '.' t with
  | [name] => if isIdentifier name then .ok (name, []) else .error .badExport
  | [name, member] =>
    if !isIdentifier name then .error .badExport
    else if !isIdentifier member then .error .badMember
    else .ok (name, member)
  | _ => .error .tooManyParts

/-- The key that a text refers to. -/
def parse (t : Text) : Except Error ItemKey :=
  if t.isEmpty || Text.hasBlank t then .error .malformed
  else
    match packageAndItem t with
    | .error e => .error e
    | .ok (package, item) =>
      match exportAndMember item with
      | .error e => .error e
      | .ok (exportName, memberName) => .ok { package, exportName, memberName }

end ApiDoc.Reference
