import ApiDoc.Documentation.Tag
import ApiDoc.Markup.Link

/-!
# Problems

What can be wrong with a comment, on its own or beside the other comments of its package. A
diagnostic is a problem with the name of the item whose comment has it.
-/

namespace ApiDoc

/-- What is wrong with a comment. -/
inductive Problem where
  /-- Braces hold no tag. -/
  | braceWithoutTag
  /-- A link is ill-formed. -/
  | link (e : Link.Error)
  /-- There is a summary beside an inherited one. -/
  | summaryNotAllowed
  /-- A section is also inherited. -/
  | sectionNotAllowed (tag : BlockTag)
  /-- A parameter has no description. -/
  | paramWithoutDescription
  /-- No hyphen parts the name of a parameter from its description. -/
  | paramWithoutHyphen
  /-- A parameter has no name. -/
  | paramWithoutName
  /-- The message that an item is deprecated is empty. -/
  | deprecatedWithoutMessage
  /-- An item that inherits from a deprecated one does not say that it is deprecated. -/
  | deprecationNotRestated
  /-- There is no such tag. -/
  | unsupportedTag (tag : Text)
  /-- An inline tag ought to be a block tag. -/
  | blockTagExpected (tag : Text)
  /-- A block tag ought to be an inline tag. -/
  | inlineTagExpected (tag : Text)
  /-- A tag may be used, but not here. -/
  | tagOutOfPlace (tag : Text)
  /-- Text stands outside every section. -/
  | strayText (excerpt : Text)
  /-- Several stages of support are stated. -/
  | manyReleaseTags
  /-- An item is preapproved but not internal. -/
  | preapprovedNotInternal
  /-- An item is sealed and virtual. -/
  | sealedAndVirtual
  /-- An item is virtual and overrides another. -/
  | virtualAndOverride
  /-- The target of a link will be left out of the documentation. -/
  | restrictedLink
  /-- A request to inherit holds a blank. -/
  | blankInInheritDoc
  /-- A request to inherit holds no reference. -/
  | inheritDocReference (e : Reference.Error)
  /-- The content of a request to inherit is ill-formed. -/
  | malformedInheritDoc (content : Text)
  /-- A request to inherit leads back to its own item. -/
  | circularInheritDoc (content : Text)
  deriving DecidableEq, Repr

namespace Problem

/-- The wording of a problem. -/
def message : Problem → String
  | braceWithoutTag => "Content of inline tags should start with a leading '@'"
  | link e => e.message
  | summaryNotAllowed =>
    "A summary block is not allowed here, because the @inheritdoc target provides the summary"
  | sectionNotAllowed tag =>
    s!"The {tag.name} tag may not be used because this state is provided" ++
      " by the @inheritdoc target"
  | paramWithoutDescription => "The @param tag is missing a parameter description"
  | paramWithoutHyphen =>
    "The @param tag is missing the hyphen that delimits the parameter name and description"
  | paramWithoutName => "The @param tag is missing a parameter name"
  | deprecatedWithoutMessage => "deprecated description required after @deprecated AEDoc tag."
  | deprecationNotRestated =>
    "A deprecation message must be included after the @deprecated tag."
  | unsupportedTag tag => s!"The JSDoc tag \"{Text.toString tag}\" is not supported by AEDoc"
  | blockTagExpected tag =>
    s!"The AEDoc tag \"{Text.toString tag}\" must use the block tag notation" ++
      " (i.e. no curly braces)"
  | inlineTagExpected tag =>
    s!"The AEDoc tag \"{Text.toString tag}\" must use the inline tag notation" ++
      " (i.e. with curly braces)"
  | tagOutOfPlace tag =>
    s!"The AEDoc tag \"{Text.toString tag}\" is not supported in this context"
  | strayText excerpt => s!"Unexpected text in AEDoc comment: \"{Text.toString excerpt}\""
  | manyReleaseTags => "More than one release tag (@alpha, @beta, etc) was specified"
  | preapprovedNotInternal =>
    "The @preapproved tag may only be applied to @internal definitions"
  | sealedAndVirtual => "The @sealed and @virtual tags may not be used together"
  | virtualAndOverride => "The @virtual and @override tags may not be used together"
  | restrictedLink =>
    "The \x7b@link\x7d tag references an @internal or @alpha API item," ++
      " which will not appear in the generated documentation"
  | blankInInheritDoc =>
    "The \x7b@inheritdoc\x7d tag does not match the expected pattern" ++
      " \"\x7b@inheritdoc @scopeName/packageName:exportName\x7d\""
  | inheritDocReference e => e.message
  | malformedInheritDoc content =>
    s!"Incorrectly formatted API item reference: \"{Text.toString content}\""
  | circularInheritDoc content =>
    "The \x7b@inheritdoc\x7d tag for \"" ++ Text.toString content ++
      "\" forms a circular reference"

end Problem

/-- A problem and the item whose comment has it. -/
structure Diagnostic where
  /-- What is wrong. -/
  problem : Problem
  /-- The name of the item, if it is known. -/
  itemName : Option Text
  deriving DecidableEq, Repr

/-- A diagnostic on one line: the name of the item, unless it is empty, and the problem. -/
def Diagnostic.text (d : Diagnostic) : Text :=
  match d.itemName with
  | none | some [] => d.problem.message.toList
  | some name => name ++ ':' :: ' ' :: d.problem.message.toList

end ApiDoc
