import ApiDoc.ReleaseTag

/-!
# Tags

The tags that a comment may use. Block tags open a section, state a stage of support, or raise a
flag; inline tags stand in braces within text.
-/

namespace ApiDoc

/-- What a flag tag says about its item. -/
inductive Flag where
  | preapproved
  | packageDocumentation
  | readOnly
  | betaDocumentation
  | eventProperty
  | sealed
  | virtual
  | override
  deriving DecidableEq, Repr

/-- A block tag. -/
inductive BlockTag where
  /-- Opens the remarks. -/
  | remarks
  /-- Opens the description of the returned value. -/
  | returns
  /-- Opens the description of a parameter. -/
  | param
  /-- Opens the message that the item is deprecated. -/
  | deprecated
  /-- Opens remarks that are left out of the documentation. -/
  | internalRemarks
  /-- States a stage of support. -/
  | release (tag : ReleaseTag)
  /-- Raises a flag. -/
  | flag (f : Flag)
  deriving DecidableEq, Repr

/-- An inline tag. -/
inductive InlineTag where
  /-- A link. -/
  | link
  /-- A request to take over the documentation of another item. -/
  | inheritDoc
  deriving DecidableEq, Repr

namespace Flag

/-- The tag that raises a flag. -/
def tagName : Flag → String
  | preapproved => "@preapproved"
  | packageDocumentation => "@packagedocumentation"
  | readOnly => "@readonly"
  | betaDocumentation => "@betadocumentation"
  | eventProperty => "@eventproperty"
  | sealed => "@sealed"
  | virtual => "@virtual"
  | override => "@override"

/-- Every flag. -/
def all : List Flag :=
  [preapproved, packageDocumentation, readOnly, betaDocumentation, eventProperty, sealed, virtual,
    override]

end Flag

namespace BlockTag

/-- A block tag as comments write it. -/
def name : BlockTag → String
  | remarks => "@remarks"
  | returns => "@returns"
  | param => "@param"
  | deprecated => "@deprecated"
  | internalRemarks => "@internalremarks"
  | release tag => "@" ++ tag.name
  | flag f => f.tagName

/-- Every block tag that a comment may use. -/
def all : List BlockTag :=
  [remarks, returns, param, deprecated, internalRemarks, release .internal, release .alpha,
    release .beta, release .released] ++ Flag.all.map flag

/-- The block tag that is written so. -/
def ofName? (word : Text) : Option BlockTag :=
  all.find? fun tag => tag.name.toList = word

end BlockTag

namespace InlineTag

/-- An inline tag as comments write it. -/
def name : InlineTag → String
  | link => "@link"
  | inheritDoc => "@inheritdoc"

/-- Every inline tag that a comment may use. -/
def all : List InlineTag := [link, inheritDoc]

/-- The inline tag that is written so. -/
def ofName? (word : Text) : Option InlineTag :=
  all.find? fun tag => tag.name.toList = word

end InlineTag

end ApiDoc
