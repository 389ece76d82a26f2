/-!
# Text

A text is the list of its characters, so lengths, cuts and positions count characters and every
rule about texts is a recursion on lists. This module holds the blank characters and what the rest
of the library does with them: trimming, collapsing runs, and splitting at a separator.
-/

namespace ApiDoc

/-- A text is the list of its characters. -/
abbrev Text := List Char

namespace Text

/-- The blank characters: the controls from tab to carriage return, the four information
separators, next line, and the spaces and line or paragraph separators of Unicode. The zero-width
space and the byte order mark are not blank. -/
def isBlank (c : Char) : Bool :=
  let n := c.val
  (0x09 ≤ n && n ≤ 0x0D) || (0x1C ≤ n && n ≤ 0x20) || n == 0x85 || n == 0xA0 || n == 0x1680 ||
    (0x2000 ≤ n && n ≤ 0x200A) || n == 0x2028 || n == 0x2029 || n == 0x202F || n == 0x205F ||
    n == 0x3000

/-- An ASCII letter. -/
def isLetter (c : Char) : Bool :=
  ('a' ≤ c && c ≤ 'z') || ('A' ≤ c && c ≤ 'Z')

/-- A text without its leading blanks. -/
def stripLeft (t : Text) : Text :=
  t.dropWhile isBlank

/-- A text without its trailing blanks. -/
def stripRight : Text → Text
  | [] => []
  | c :: r =>
    match stripRight r with
    | [] => if isBlank c then [] else [c]
    | d :: s => c :: d :: s

/-- A text without the blanks at its two ends. -/
def strip (t : Text) : Text :=
  stripRight (stripLeft t)

/-- Every run of blanks becomes one space. The flag says whether the character before was blank,
that is, whether the space of the current run is already written. -/
def collapseFrom : Bool → Text → Text
  | _, [] => []
  | afterBlank, c :: r =>
    if isBlank c then
      if afterBlank then collapseFrom true r else ' ' :: collapseFrom true r
    else c :: collapseFrom false r

/-- Every run of blanks becomes one space. -/
def collapse (t : Text) : Text :=
  collapseFrom false t

/-- Whether some character is blank. -/
def hasBlank (t : Text) : Bool :=
  t.any isBlank

/-- Whether every character is blank; so it holds of the empty text. -/
def allBlank (t : Text) : Bool :=
  t.all isBlank

/-- The pieces between the separators: one more than there are separators. -/
def splitOn (separator : Char) : Text → List Text
  | [] => [[]]
  | c :: r =>
    if c = separator then [] :: splitOn separator r
    else
      match splitOn separator r with
      | [] => [[c]]
      | piece :: pieces => (c :: piece) :: pieces

/-- What stands before and after the first separator. -/
def splitFirst? (separator : Char) : Text → Option (Text × Text)
  | [] => none
  | c :: r =>
    if c = separator then some ([], r)
    else (splitFirst? separator r).map fun (before, after) => (c :: before, after)

/-- The pieces with the separator between neighbours. -/
def joinWith (separator : Text) : List Text → Text
  | [] => []
  | [piece] => piece
  | piece :: pieces => piece ++ separator ++ joinWith separator pieces

/-- The text less every occurrence of one character. -/
def without (dropped : Char) (t : Text) : Text :=
  t.filter (· ≠ dropped)

/-- A text less a newline at its very end. -/
def dropFinalNewline (t : Text) : Text :=
  if t.getLast? = some '\n' then t.dropLast else t

/-- The text with every line ending written as a newline: a carriage return ends a line, alone or
with the newline after it. -/
def universalNewlines : Text → Text
  | [] => []
  | '\r' :: '\n' :: r => '\n' :: universalNewlines r
  | '\r' :: r => '\n' :: universalNewlines r
  | c :: r => c :: universalNewlines r

/-- The first `n` characters, or, for a negative `n`, all but the last `-n`. -/
def takeSigned (n : Int) (t : Text) : Text :=
  if 0 ≤ n then t.take n.toNat else t.take (t.length - (-n).toNat)

/-- The decimal digits of a number. -/
def ofNat (n : Nat) : Text :=
  Nat.toDigits 10 n

/-- The decimal digits of a number, with a minus sign if it is negative. -/
def ofInt (n : Int) : Text :=
  if n < 0 then '-' :: ofNat n.natAbs else ofNat n.natAbs

/-- The lowercase hexadecimal digits of a number, padded with zeros to a width. -/
def ofHex (width n : Nat) : Text :=
  let digits := Nat.toDigits 16 n
  List.replicate (width - digits.length) '0' ++ digits

/-- The text as a string. -/
def toString (t : Text) : String :=
  String.ofList t

end Text

end ApiDoc
