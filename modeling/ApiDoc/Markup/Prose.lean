import ApiDoc.Markup.Basic
import ApiDoc.Markup.HtmlTag

/-!
# Prose

The markup of running text. Blank lines separate paragraphs, HTML tags are elements of their own,
and a backslash before a character other than a letter or a blank gives that character. No text is
ill-formed.
-/

namespace ApiDoc.Prose

/-- What follows the last newline among the blanks at the start of a text. -/
def afterLastNewline? : Text → Option Text
  | [] => none
  | c :: r =>
    if Text.isBlank c then
      match afterLastNewline? r with
      | some rest => some rest
      | none => if c = '\n' then some r else none
    else none

/-- What follows the blank line that starts with a newline before the text. -/
def afterBlankLine? : Text → Option Text
  | '\n' :: r => afterLastNewline? r
  | _ => none

theorem afterLastNewline?_length {s rest : Text} (h : afterLastNewline? s = some rest) :
    rest.length < s.length := by
  induction s with
  | nil => simp [afterLastNewline?] at h
  | cons c r ih =>
    simp only [afterLastNewline?] at h
    split at h
    · split at h
      · next heq =>
        cases h
        exact Nat.lt_succ_of_lt (ih heq)
      · split at h
        · cases h
          simp
        · simp at h
    · simp at h

theorem afterBlankLine?_length {s rest : Text} (h : afterBlankLine? s = some rest) :
    rest.length < s.length := by
  unfold afterBlankLine? at h
  split at h
  · exact Nat.lt_succ_of_lt (afterLastNewline?_length h)
  · simp at h

/-- Puts a character before the first of some pieces. -/
def pushFirst (c : Char) : List Text → List Text
  | [] => [[c]]
  | piece :: pieces => (c :: piece) :: pieces

/-- The paragraphs of a text: the pieces between its blank lines. A blank line reaches from the
first newline to the last one in a run of blanks with several newlines. -/
def paragraphs (s : Text) : List Text :=
  match _h : afterBlankLine? s with
  | some rest => [] :: paragraphs rest
  | none =>
    match s with
    | [] => [[]]
    | c :: r => pushFirst c (paragraphs r)
termination_by s.length
decreasing_by
  · exact afterBlankLine?_length _h
  · simp

/-- A stretch of a paragraph. -/
inductive Fragment where
  /-- Text, its escapes undone. -/
  | text (chars : Text)
  /-- An HTML tag. -/
  | tag (token : Text)
  deriving DecidableEq, Repr

/-- Puts a character before fragments: it joins a text. -/
def pushChar (c : Char) : List Fragment → List Fragment
  | .text chars :: fragments => .text (c :: chars) :: fragments
  | fragments => .text [c] :: fragments

/-- The character that an escape at the start of a text stands for, and what follows it. -/
def escape? : Text → Option (Char × Text)
  | '\\' :: c :: r => if Text.isLetter c || Text.isBlank c then none else some (c, r)
  | _ => none

theorem escape?_length {s rest : Text} {c : Char} (h : escape? s = some (c, rest)) :
    rest.length < s.length := by
  unfold escape? at h
  split at h
  · split at h
    · simp at h
    · cases h
      simp only [List.length_cons]
      omega
  · simp at h

/-- The fragments of a paragraph, from the left. -/
def fragments (s : Text) : List Fragment :=
  match _he : escape? s with
  | some (c, rest) => pushChar c (fragments rest)
  | none =>
    match _ht : HtmlTag.after? s with
    | some rest => .tag (s.take (s.length - rest.length)) :: fragments rest
    | none =>
      match s with
      | [] => []
      | c :: r => pushChar c (fragments r)
termination_by s.length
decreasing_by
  · exact escape?_length _he
  · exact HtmlTag.after?_length _ht
  · simp

/-- The elements of a fragment. -/
def Fragment.elements : Fragment → Block
  | .text chars => Element.ofText chars
  | .tag token => [.htmlTag token]

/-- The elements of a paragraph. -/
def ofParagraph (s : Text) : Block :=
  (fragments s).flatMap Fragment.elements

/-- Blocks put together with a break between neighbours, leading empty blocks left out. -/
def joinParagraphs (blocks : List Block) : Block :=
  [Element.paragraph].intercalate (blocks.dropWhile List.isEmpty)

/-- The markup of a text. A paragraph without elements still has its breaks, unless there is no
element before it. -/
def parse (s : Text) : Block :=
  joinParagraphs ((paragraphs s).map ofParagraph)

end ApiDoc.Prose
