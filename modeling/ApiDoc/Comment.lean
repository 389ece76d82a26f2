import ApiDoc.Text.Basic

/-!
# Comments

The body of a comment: what stands between its delimiters, less the gutter of stars at the starts
of its lines.
-/

namespace ApiDoc.Comment

/-- A line less its gutter: spaces and tabs, a star, and one space. A line without the star has no
gutter. -/
def dropGutter (line : Text) : Text :=
  match line.dropWhile fun c => c = ' ' || c = '\t' with
  | '*' :: ' ' :: r => r
  | '*' :: r => r
  | _ => line

/-- Whether a trimmed text stands between the delimiters of a comment. -/
def isDelimited (t : Text) : Bool :=
  ['/', '*', '*'].isPrefixOf t && ['*', '/'].isSuffixOf t

/-- The body of a comment. A text without delimiters is a body already. -/
def body (comment : Text) : Text :=
  let trimmed := Text.strip comment
  if isDelimited trimmed then
    let inner := (trimmed.take (trimmed.length - 2)).drop 3
    Text.strip (Text.joinWith ['\n'] ((Text.splitOn '\n' inner).map dropGutter))
  else comment

end ApiDoc.Comment
