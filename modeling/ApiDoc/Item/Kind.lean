import ApiDoc.Text.Basic

/-!
# Kinds of items

The kinds of declarations that a comment can stand at.
-/

namespace ApiDoc

/-- The kind of a declaration. -/
inductive ItemKind where
  | classDecl
  | constructor
  | enumDecl
  | enumValue
  | function
  | interface
  | method
  | namespaceDecl
  | package
  | property
  | typeAlias
  | variableDecl
  deriving DecidableEq, Repr

namespace ItemKind

/-- The word for a kind. -/
def name : ItemKind → String
  | classDecl => "class"
  | constructor => "constructor"
  | enumDecl => "enum"
  | enumValue => "enum-value"
  | function => "function"
  | interface => "interface"
  | method => "method"
  | namespaceDecl => "namespace"
  | package => "package"
  | property => "property"
  | typeAlias => "type-alias"
  | variableDecl => "variable"

/-- Every kind. -/
def all : List ItemKind :=
  [classDecl, constructor, enumDecl, enumValue, function, interface, method, namespaceDecl, package,
    property, typeAlias, variableDecl]

/-- The kind that a word names. -/
def ofName? (word : Text) : Option ItemKind :=
  all.find? fun kind => kind.name.toList = word

/-- Whether declarations of a kind have parameters and a return value. -/
def isFunctionLike : ItemKind → Bool
  | function | method | constructor => true
  | _ => false

end ItemKind

end ApiDoc
