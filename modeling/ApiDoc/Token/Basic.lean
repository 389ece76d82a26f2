import ApiDoc.Token.Span
import ApiDoc.Text.Quoted

/-!
# Tokens

The tokens of a comment: text, block tags, and inline tags with their content. Braces whose content
does not start with a tag name give no token but a complaint. Carriage returns are no part of a
comment, so lines may end either way.
-/

namespace ApiDoc

/-- A token of a comment. -/
inductive Token where
  /-- Text between tags, as it stands. -/
  | text (chars : Text)
  /-- A block tag. -/
  | block (tag : Text)
  /-- An inline tag and the trimmed content after its name. -/
  | inline (tag content : Text)
  deriving DecidableEq, Repr

namespace Token

/-- The word for a token's kind. -/
def kindName : Token → String
  | text _ => "text"
  | block _ => "block-tag"
  | inline _ _ => "inline-tag"

/-- The tag of a token, empty for text. -/
def tag : Token → Text
  | text _ => []
  | block tag => tag
  | inline tag _ => tag

/-- The text that a token carries, empty for a block tag. -/
def payload : Token → Text
  | text chars => chars
  | block _ => []
  | inline _ content => content

/-- A token as messages show it. -/
def describe (t : Token) : Text :=
  "Token(".toList ++ t.kindName.toList ++ ' ' :: Text.quoted t.tag ++ ' ' :: Text.quoted t.payload
    ++ [')']

/-- The text less the backslash before every occurrence of the brace. -/
def unescape (brace : Char) : Text → Text
  | '\\' :: c :: r =>
    if c = brace then c :: unescape brace r else '\\' :: unescape brace (c :: r)
  | c :: r => c :: unescape brace r
  | [] => []

/-- The inline tag inside braces; none if the trimmed content has no tag name after an `@`. -/
def ofBraces? (content : Text) : Option Token :=
  match Text.strip content with
  | '@' :: r =>
    match r.takeWhile Span.isTagChar with
    | [] => none
    | name =>
      let rest := r.dropWhile Span.isTagChar
      some (inline ('@' :: name) (Text.strip (unescape '}' (unescape '{' rest))))
  | _ => none

/-- The token of a span; none for braces that hold no tag. -/
def ofSpan? : Span → Option Token
  | .text chars => some (text chars)
  | .block tag => some (block tag)
  | .braces content => ofBraces? content

/-- The spans of a comment, carriage returns aside. -/
def spans (comment : Text) : List Span :=
  Span.scan (Text.without '\r' comment)

/-- The tokens of a comment. -/
def tokenize (comment : Text) : List Token :=
  (spans comment).filterMap ofSpan?

/-- How many braces of a comment hold no tag. -/
def badBraces (comment : Text) : Nat :=
  (spans comment).countP fun span => (ofSpan? span).isNone

end Token

end ApiDoc
