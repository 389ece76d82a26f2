import ApiDoc.Item.Key

/-!
# Markup

What a comment says, as a list of elements: text, paragraph breaks, HTML tags and links. Such a
list is a block: a summary, the remarks, the description of a parameter.
-/

namespace ApiDoc

/-- What is known about the target of a link to an item. -/
inductive LinkStatus where
  /-- Not looked up yet. -/
  | incomplete
  /-- The target exists and will be documented. -/
  | resolved
  /-- There is no such item. -/
  | unresolved
  /-- The target exists and will be left out of the documentation. -/
  | restricted
  deriving DecidableEq, Repr

namespace LinkStatus

/-- The word for a status. -/
def name : LinkStatus → String
  | incomplete => "incomplete"
  | resolved => "resolved"
  | unresolved => "unresolved"
  | restricted => "restricted"

/-- Every status. -/
def all : List LinkStatus := [incomplete, resolved, unresolved, restricted]

/-- The status that a word names. -/
def ofName? (word : Text) : Option LinkStatus :=
  all.find? fun status => status.name.toList = word

end LinkStatus

/-- A link to an item. -/
structure ItemLink where
  /-- The texts that display the link. -/
  display : List Text
  /-- The item that the link leads to. -/
  target : ItemKey
  /-- What is known about the target. -/
  status : LinkStatus
  /-- The place of the link among the item links of the comment that it stands in; none once the
  link is a copy that no longer follows its comment. -/
  place : Option Nat
  deriving DecidableEq, Repr

/-- An element of a block. -/
inductive Element where
  /-- Text. -/
  | text (chars : Text)
  /-- A break between two paragraphs. -/
  | paragraph
  /-- An HTML tag, as it was written. -/
  | htmlTag (tag : Text)
  /-- A link to a web address, with the texts that display it. -/
  | webLink (display : List Text) (address : Text)
  /-- A link to an item. -/
  | itemLink (link : ItemLink)
  deriving DecidableEq, Repr

/-- A list of elements that is shown as one piece. -/
abbrev Block := List Element

namespace Element

/-- The display texts for a text: its blanks collapsed, and none for the empty text. -/
def displayOf (t : Text) : List Text :=
  if t.isEmpty then [] else [Text.collapse t]

/-- The text elements for a text. -/
def ofText (t : Text) : Block :=
  (displayOf t).map text

/-- Whether an element is anything but blank text. -/
def hasContent : Element → Bool
  | text chars => !Text.allBlank chars
  | _ => true

/-- The plain text of an element: HTML tags have none and a link has its display text. -/
def plainText : Element → Text
  | text chars => chars
  | paragraph => ['\n', '\n']
  | htmlTag _ => []
  | webLink display _ => display.flatten
  | itemLink link => link.display.flatten

/-- Gives the link at a place of the comment a status. -/
def settle (place : Nat) (status : LinkStatus) : Element → Element
  | itemLink link => itemLink (if link.place = some place then { link with status } else link)
  | e => e

/-- The element as a copy that no longer follows its comment. -/
def detach : Element → Element
  | itemLink link => itemLink { link with place := none }
  | e => e

end Element

namespace Block

/-- Whether a block holds anything but blank text. -/
def hasContent (b : Block) : Bool :=
  b.any Element.hasContent

/-- The plain text of a block. -/
def plainText (b : Block) : Text :=
  b.flatMap Element.plainText

/-- Gives the link at a place of the comment a status. -/
def settle (place : Nat) (status : LinkStatus) (b : Block) : Block :=
  b.map (Element.settle place status)

/-- The block as a copy that no longer follows its comment. -/
def detach (b : Block) : Block :=
  b.map Element.detach

end Block

end ApiDoc
