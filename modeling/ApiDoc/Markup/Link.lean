import ApiDoc.Markup.Basic
import ApiDoc.Item.Reference

/-!
# Links

The content of a link tag: a web address or a reference to an item, and possibly a text to display
after a bar. A reference without a package means an item of the package at hand.
-/

namespace ApiDoc.Link

/-- Why the content of a link tag is ill-formed. -/
inductive Error where
  /-- There is none. -/
  | empty
  /-- There is more than one bar. -/
  | manyBars
  /-- The display text holds a character that it must not. -/
  | displayChar (c : Char)
  /-- A space follows the web address. -/
  | spaceInAddress
  /-- The reference is none. -/
  | reference (e : Reference.Error)
  deriving DecidableEq, Repr

/-- The wording of an error. -/
def Error.message : Error → String
  | empty => "The \x7b@link\x7d tag must include a URL or API item reference"
  | manyBars => "The \x7b@link\x7d tag contains more than one pipe character (\"|\")"
  | displayChar c =>
    "The \x7b@link\x7d tag's display text contains an unsupported character: \"" ++
      String.ofList [c] ++ "\""
  | spaceInAddress =>
    "The \x7b@link\x7d tag contains additional spaces after the URL;" ++
      " if the URL contains spaces, encode them using %20;" ++
      " for display text, use a pipe delimiter (\"|\")"
  | reference e => e.message

/-- What the content of a link tag amounts to. -/
inductive Outcome where
  /-- A link. -/
  | link (e : Element)
  /-- An ill-formed link. -/
  | malformed (e : Error)
  /-- A reference that leaves its package out where no package is known. -/
  | missingPackage
  deriving DecidableEq, Repr

/-- The characters that a display text must not hold. -/
def isDelimiter (c : Char) : Bool :=
  c = '@' || c = '|' || c = '{' || c = '}'

/-- Whether an address is a web address: lowercase letters and `://` start it. -/
def isWebAddress (t : Text) : Bool :=
  let isLower (c : Char) := 'a' ≤ c && c ≤ 'z'
  !(t.takeWhile isLower).isEmpty && [':', '/', '/'].isPrefixOf (t.dropWhile isLower)

/-- The link to an address, displayed by the given texts. -/
def ofAddress (package : Option PackageName) (address : Text) (display : List Text) : Outcome :=
  if isWebAddress address then
    if address.contains ' ' then .malformed .spaceInAddress else .link (.webLink display address)
  else
    match Reference.parse address with
    | .error e => .malformed (.reference e)
    | .ok target =>
      let itemLink (target : ItemKey) : Outcome :=
        .link (.itemLink { display, target, status := .incomplete, place := none })
      if target.isQualified then itemLink target
      else
        match package with
        | some package => itemLink { target with package }
        | none => .missingPackage

/-- The link for the content of a link tag. -/
def parse (package : Option PackageName) (content : Text) : Outcome :=
  if content.isEmpty then .malformed .empty
  else
    match (Text.splitOn '|' content).map Text.strip with
    | [address] => ofAddress package address (Element.displayOf address)
    | [address, display] =>
      if display.isEmpty then ofAddress package address (Element.displayOf address)
      else
        match display.find? isDelimiter with
        | some c => .malformed (.displayChar c)
        | none => ofAddress package address (Element.displayOf display)
    | _ => .malformed .manyBars

end ApiDoc.Link
