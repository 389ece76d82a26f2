import ApiDoc.Text.Basic

/-!
# Package names

A package name is a run of lowercase letters, digits and the signs `-_.~`, which a scope of the
same form may precede: `@scope/name`.
-/

namespace ApiDoc

/-- The two parts of a package name. -/
structure PackageName where
  /-- The scope with its `@`, or nothing. -/
  scope : Text
  /-- The name within the scope. -/
  name : Text
  deriving DecidableEq, Repr

namespace PackageName

/-- A character of a scope or a name. -/
def isNameChar (c : Char) : Bool :=
  ('a' ≤ c && c ≤ 'z') || ('0' ≤ c && c ≤ '9') || c = '-' || c = '_' || c = '.' || c = '~'

/-- A scope or a name: one or more name characters. -/
def isPart (t : Text) : Bool :=
  !t.isEmpty && t.all isNameChar

/-- The full name, the scope before the name if there is one. -/
def full (p : PackageName) : Text :=
  if p.scope.isEmpty then p.name else p.scope ++ '/' :: p.name

/-- The parts of a full name. -/
def ofFull? (t : Text) : Option PackageName :=
  match t with
  | '@' :: r =>
    match Text.splitFirst? '/' r with
    | some (scope, name) =>
      if isPart scope && isPart name then some { scope := '@' :: scope, name } else none
    | none => none
  | name => if isPart name then some { scope := [], name } else none

/-- The parts of a package's declared name, in which one newline at the end does not count. -/
def parse? (t : Text) : Option PackageName :=
  ofFull? (Text.dropFinalNewline t)

end PackageName

end ApiDoc
