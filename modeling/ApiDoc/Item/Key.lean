import ApiDoc.PackageName

/-!
# Keys of items

The key that names an item of any package: the package, an export of it, and possibly a member of
the export.
-/

namespace ApiDoc

/-- The parts of a reference to an item. A part that is left out is empty. -/
structure ItemKey where
  /-- The package; both its parts are empty in a reference within a package. -/
  package : PackageName
  /-- The name of the export. -/
  exportName : Text
  /-- The name of a member of the export. -/
  memberName : Text
  deriving DecidableEq, Repr

namespace ItemKey

/-- Whether a package is named. -/
def isQualified (key : ItemKey) : Bool :=
  !key.package.name.isEmpty

/-- The full name of the package. -/
def fullPackageName (key : ItemKey) : Text :=
  key.package.full

/-- The part of a key after the package: the export, with the member after a point. -/
def itemText (key : ItemKey) : Text :=
  if key.memberName.isEmpty then key.exportName else key.exportName ++ '.' :: key.memberName

/-- A key as references write it. -/
def text (key : ItemKey) : Text :=
  if key.isQualified then key.fullPackageName ++ ':' :: key.itemText else key.itemText

end ItemKey

end ApiDoc
