import ApiDoc.Documentation.Basic
import ApiDoc.Documentation.Section
import ApiDoc.Markup.Normalize
import ApiDoc.Markup.Prose
import ApiDoc.Config

/-!
# Reading a comment

The documentation that a comment gives on its own. Links and requests to inherit are put into
queues, since they concern other items. A problem never stops the reading; only a link that leaves
its package out does, where no package is known.
-/

namespace ApiDoc

/-- A link leaves its package out and no package is known; the problems are those found before. -/
structure MissingPackage where
  /-- The problems found before. -/
  problems : List Problem
  deriving DecidableEq, Repr

/-- What the reading of a comment depends on beside the comment. -/
structure Surroundings where
  /-- The package at hand, if it is known. -/
  package : Option PackageName
  /-- The settings. -/
  config : Config
  deriving DecidableEq, Repr

namespace Documentation

/-- Puts the link of an element into the queue of links and tells the element its place there. -/
def enqueueLink (d : Documentation) : Element → Element × Documentation
  | .itemLink link =>
    let place := d.pendingLinks.length
    (.itemLink { link with place := some place },
      { d with pendingLinks := d.pendingLinks ++ [{ place, target := link.target }] })
  | e => (e, d)

/-- Reads a piece of a run, given the elements of the run so far. -/
def readPiece (package : Option PackageName) :
    Block × Documentation → Piece → Except MissingPackage (Block × Documentation)
  | (elements, d), .text chars => .ok (elements ++ Prose.parse chars, d)
  | (elements, d), .inheritDoc content =>
    let hasContent := Block.hasContent elements || Block.hasContent d.content.summary
    let d := d.reportIf hasContent .summaryNotAllowed
    .ok (elements,
      { d with
        pendingInheritDocs := d.pendingInheritDocs ++ [content]
        isInherited := true })
  | (elements, d), .link content =>
    match Link.parse package content with
    | .link e =>
      let (e, d) := d.enqueueLink e
      .ok (elements ++ [e], d)
    | .malformed e => .ok (elements, d.report (.link e))
    | .missingPackage => .error { problems := d.problems }

/-- Reads a run. -/
def readRun (package : Option PackageName) (d : Documentation) (run : Run) :
    Except MissingPackage (Block × Documentation) :=
  run.foldlM (readPiece package) ([], d)

/-- Reports a section that is also inherited. -/
def checkSection (tag : BlockTag) (d : Documentation) : Documentation :=
  d.reportIf d.isInherited (.sectionNotAllowed tag)

/-- A text cut to a length, with three points for what is cut off. -/
def excerpt (length : Int) (t : Text) : Text :=
  if length < t.length then Text.strip (Text.takeSigned (length - 3) t) ++ ['.', '.', '.'] else t

/-- The problem with a tag that may not be used so. -/
def tagProblem (token : Token) : Problem :=
  let isBlock := (BlockTag.ofName? token.tag).isSome
  let isInline := (InlineTag.ofName? token.tag).isSome
  match isBlock, isInline, token with
  | false, false, _ => .unsupportedTag token.tag
  | _, false, .inline _ _ => .blockTagExpected token.tag
  | false, _, .block _ => .inlineTagExpected token.tag
  | _, _, _ => .tagOutOfPlace token.tag

/-- Reads a section. -/
def readSection (around : Surroundings) (d : Documentation) :
    Section → Except MissingPackage Documentation
  | .remarks run => do
    let (elements, d) ← readRun around.package (d.checkSection .remarks) run
    return { d with content.remarks := Block.normalize elements }
  | .returns run => do
    let (elements, d) ← readRun around.package (d.checkSection .returns) run
    return { d with content.returnsMessage := Block.normalize elements }
  | .param name lead run => do
    let (elements, d) ← readRun around.package (d.checkSection .param) run
    let description := Block.normalize (Prose.parse lead ++ elements)
    return { d with content.parameters := OrderedMap.put name description d.content.parameters }
  | .badParam problem => .ok ((d.checkSection .param).report problem)
  | .deprecated run => do
    let (elements, d) ← readRun around.package d run
    let message := Block.normalize elements
    let d := { d with content.deprecatedMessage := message }
    return d.reportIf message.isEmpty .deprecatedWithoutMessage
  | .internalRemarks run => do
    let (_, d) ← readRun around.package d run
    return d
  | .release tag => .ok { d with releaseTag := tag }
  | .flag f => .ok { d with flags := d.flags.insert f }
  | .unsupported token => .ok (d.report (tagProblem token))
  | .stray run => do
    let (_, d) ← readRun around.package d run
    return d
  | .strayText chars =>
    let trimmed := Text.strip chars
    .ok (d.reportIf (!trimmed.isEmpty) (.strayText (excerpt around.config.excerptLength trimmed)))

/-- The checks at the end of a comment that states its stage of support so many times. -/
def finish (releaseTags : Nat) (d : Documentation) : Documentation :=
  let d := d.reportIf d.omitsDeprecation .deprecationNotRestated
  let d := d.reportIf (1 < releaseTags) .manyReleaseTags
  let d :=
    if d.hasFlag .preapproved && d.releaseTag ≠ .internal then
      { d.report .preapprovedNotInternal with flags := d.flags.erase .preapproved }
    else d
  let d := d.reportIf (d.hasFlag .sealed && d.hasFlag .virtual) .sealedAndVirtual
  d.reportIf (d.hasFlag .virtual && d.hasFlag .override) .virtualAndOverride

/-- The documentation before its comment is read, with a problem for each bad brace. -/
def opened (itemName : Option Text) (badBraces : Nat) : Documentation where
  itemName
  problems := List.replicate badBraces .braceWithoutTag
  hasFailed := 0 < badBraces

/-- Reads a comment by its outline, starting from the problems of its braces. -/
def ofOutline (around : Surroundings) (itemName : Option Text) (badBraces : Nat)
    (outline : Outline) : Except MissingPackage Documentation := do
  let (elements, d) ← readRun around.package (opened itemName badBraces) outline.summary
  let d := { d with content.summary := Block.normalize elements }
  let d ← outline.sections.foldlM (readSection around) d
  return d.finish (outline.sections.countP Section.isRelease)

/-- Reads the body of a comment. -/
def parse (around : Surroundings) (itemName : Option Text) (body : Text) :
    Except MissingPackage Documentation :=
  ofOutline around itemName (Token.badBraces body) (Outline.ofTokens (Token.tokenize body))

end Documentation

end ApiDoc
