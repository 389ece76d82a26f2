import ApiDoc.Json.Basic

/-!
# Written JSON

The text of a JSON value in printable ASCII: on one line, or with two spaces of indentation per
level and every array item and object field on a line of its own. Any other character is written by
the numbers of its UTF-16 units.
-/

namespace ApiDoc.Json

/-- The escape of one UTF-16 unit. -/
def escapeUnit (n : Nat) : Text :=
  '\\' :: 'u' :: Text.ofHex 4 n

/-- One character inside a written string. -/
def escapeChar (c : Char) : Text :=
  if c = '"' then ['\\', '"']
  else if c = '\\' then ['\\', '\\']
  else if c = '\n' then ['\\', 'n']
  else if c = '\r' then ['\\', 'r']
  else if c = '\t' then ['\\', 't']
  else if c = '\x0c' then ['\\', 'f']
  else if c = '\x08' then ['\\', 'b']
  else
    let n := c.toNat
    if 0x20 ≤ n && n < 0x7F then [c]
    else if n < 0x10000 then escapeUnit n
    else escapeUnit (0xD800 + (n - 0x10000) / 0x400) ++ escapeUnit (0xDC00 + (n - 0x10000) % 0x400)

/-- A written string. -/
def writeString (t : Text) : Text :=
  '"' :: t.flatMap escapeChar ++ ['"']

/-- A written number, truth value or null; doubles follow the layout of messages. -/
def writeScalar : Json → Text
  | null => "null".toList
  | bool b => if b then "true".toList else "false".toList
  | int n => Text.ofInt n
  | double bits => layout.textOfBits bits
  | str t => writeString t
  | arr _ => []
  | obj _ => []

mutual

/-- A value on one line. -/
def write : Json → Text
  | arr values => '[' :: Text.joinWith [','] (writeAll values) ++ [']']
  | obj fields => '{' :: Text.joinWith [','] (writeFields fields) ++ ['}']
  | scalar => writeScalar scalar

/-- The values of an array, each on one line. -/
def writeAll : List Json → List Text
  | [] => []
  | value :: values => write value :: writeAll values

/-- The fields of an object, each on one line. -/
def writeFields : List (Text × Json) → List Text
  | [] => []
  | (name, value) :: fields => (writeString name ++ ':' :: write value) :: writeFields fields

end

/-- A line break and the indentation of a level. -/
def newline (level : Nat) : Text :=
  '\n' :: List.replicate (2 * level) ' '

mutual

/-- A value with indentation; its brackets stand at the given level. -/
def indented (level : Nat) : Json → Text
  | arr [] => ['[', ']']
  | arr values =>
    '[' :: newline (level + 1)
      ++ Text.joinWith (',' :: newline (level + 1)) (indentedAll (level + 1) values)
      ++ newline level ++ [']']
  | obj [] => ['{', '}']
  | obj fields =>
    '{' :: newline (level + 1)
      ++ Text.joinWith (',' :: newline (level + 1)) (indentedFields (level + 1) fields)
      ++ newline level ++ ['}']
  | scalar => writeScalar scalar

/-- The values of an array with indentation. -/
def indentedAll (level : Nat) : List Json → List Text
  | [] => []
  | value :: values => indented level value :: indentedAll level values

/-- The fields of an object with indentation. -/
def indentedFields (level : Nat) : List (Text × Json) → List Text
  | [] => []
  | (name, value) :: fields =>
    (writeString name ++ ':' :: ' ' :: indented level value) :: indentedFields level fields

end

end ApiDoc.Json
