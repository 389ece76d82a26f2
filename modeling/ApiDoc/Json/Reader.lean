import ApiDoc.Json.Basic

/-!
# Reading JSON

A recursive-descent reader for JSON texts. Each step takes the rest of the text and gives back what
is left after it; a fault records how much was left where the text went wrong, from which its line
and column follow. Beyond the standard, `NaN`, `Infinity` and `-Infinity` are numbers, and of
several fields with one name the last wins, in the place of the first. There are limits to what is
read: how deep arrays and objects stand in each other, and how many digits an integer has. Half a
surrogate pair alone is no character, so that a text with an escape for one is not read either; but
that is said only of a text in which nothing else is wrong.
-/

namespace ApiDoc.Json

/-- What can be wrong with a JSON text. -/
inductive Problem where
  | byteOrderMark
  | expectingValue
  | expectingName
  | expectingColon
  | expectingComma
  | extraData
  | controlCharacter
  | badEscape
  | badUnicodeEscape
  | unterminatedString
  deriving DecidableEq, Repr

/-- The wording of a problem. -/
def Problem.message : Problem → String
  | byteOrderMark => "Unexpected UTF-8 BOM (decode using utf-8-sig)"
  | expectingValue => "Expecting value"
  | expectingName => "Expecting property name enclosed in double quotes"
  | expectingColon => "Expecting ':' delimiter"
  | expectingComma => "Expecting ',' delimiter"
  | extraData => "Extra data"
  | controlCharacter => "Invalid control character at"
  | badEscape => "Invalid \\escape"
  | badUnicodeEscape => "Invalid \\uXXXX escape"
  | unterminatedString => "Unterminated string starting at"

/-- The most that is read. -/
structure Limits where
  /-- How many arrays and objects may stand in each other. -/
  depth : Nat
  /-- How many digits an integer may have. -/
  digits : Nat
  deriving DecidableEq, Repr

/-- What goes beyond a limit. -/
inductive Excess where
  /-- An array that stands too deep. -/
  | arrayTooDeep
  /-- An object that stands too deep. -/
  | objectTooDeep
  /-- An integer of more digits than there may be. -/
  | tooManyDigits (found allowed : Nat)
  deriving DecidableEq, Repr

/-- The wording for what goes beyond a limit. -/
def Excess.message : Excess → String
  | arrayTooDeep =>
    "maximum recursion depth exceeded while decoding a JSON array from a unicode string"
  | objectTooDeep =>
    "maximum recursion depth exceeded while decoding a JSON object from a unicode string"
  | tooManyDigits found allowed =>
    s!"Exceeds the limit ({allowed} digits) for integer string conversion: value has {found}" ++
      " digits; use sys.set_int_max_str_digits() to increase the limit"

/-- What ends the reading early. -/
inductive Fault where
  /-- The text is ill-formed; so many characters were left where that was found. -/
  | illFormed (problem : Problem) (left : Nat)
  /-- A limit is exceeded. -/
  | excess (e : Excess)
  deriving DecidableEq, Repr

/-- The step that fails at the given rest. -/
def fail {α : Type} (problem : Problem) (rest : Text) : Except Fault (α × Text) :=
  .error (.illFormed problem rest.length)

/-- The limits within an array or an object, if there may be one. -/
def Limits.within? (limits : Limits) : Option Limits :=
  match limits.depth with
  | 0 => none
  | depth + 1 => some { limits with depth }

/-- The blanks of JSON. -/
def isSpace (c : Char) : Bool :=
  c = ' ' || c = '\t' || c = '\n' || c = '\r'

/-- The text from its first character that is no blank. -/
def skipSpace (s : Text) : Text :=
  s.dropWhile isSpace

/-- The value of a hexadecimal digit. -/
def hexDigit? (c : Char) : Option Nat :=
  if '0' ≤ c && c ≤ '9' then some (c.toNat - '0'.toNat)
  else if 'a' ≤ c && c ≤ 'f' then some (c.toNat - 'a'.toNat + 10)
  else if 'A' ≤ c && c ≤ 'F' then some (c.toNat - 'A'.toNat + 10)
  else none

/-- The number written by the first four characters, if they are hexadecimal digits. -/
def hexUnit? : Text → Option (Nat × Text)
  | a :: b :: c :: d :: rest => do
    let a ← hexDigit? a
    let b ← hexDigit? b
    let c ← hexDigit? c
    let d ← hexDigit? d
    return (((a * 16 + b) * 16 + c) * 16 + d, rest)
  | _ => none

/-- The character that a one-letter escape stands for. -/
def shortEscape? (c : Char) : Option Char :=
  if c = '"' || c = '\\' || c = '/' then some c
  else if c = 'b' then some '\x08'
  else if c = 'f' then some '\x0c'
  else if c = 'n' then some '\n'
  else if c = 'r' then some '\r'
  else if c = 't' then some '\t'
  else none

/-- Whether a number is the first half of a surrogate pair. -/
def isHighHalf (n : Nat) : Bool :=
  0xD800 ≤ n && n < 0xDC00

/-- Whether a number is the second half of a surrogate pair. -/
def isLowHalf (n : Nat) : Bool :=
  0xDC00 ≤ n && n < 0xE000

/-- The low half of a surrogate pair, if an escape for one follows and does not end the text.
Ill-formed digits there are a fault at the letter of the first escape. -/
def lowHalf? (firstLetter : Text) : Text → Except Fault (Option (Nat × Text))
  | '\\' :: 'u' :: digits =>
    if (digits.drop 4).isEmpty then .ok none
    else
      match hexUnit? digits with
      | none => .error (.illFormed .badUnicodeEscape (firstLetter.length - 6))
      | some (n, rest) => .ok (if isLowHalf n then some (n, rest) else none)
  | _ => .ok none

/-- The character of a `\u` escape whose letter starts the text. A pair of surrogates is one
character. For half a pair alone the replacement character stands in, until the whole text is
refused for it. -/
def unicodeEscape (letter : Text) : Except Fault (Char × Text) :=
  let digits := letter.drop 1
  if (digits.drop 4).isEmpty then fail .badUnicodeEscape letter
  else
    match hexUnit? digits with
    | none => fail .badUnicodeEscape letter
    | some (n, rest) =>
      if isHighHalf n then
        match lowHalf? letter rest with
        | .error fault => .error fault
        | .ok (some (low, rest)) =>
          .ok (Char.ofNat (0x10000 + (n - 0xD800) * 0x400 + (low - 0xDC00)), rest)
        | .ok none => .ok ('\uFFFD', rest)
      else if isLowHalf n then .ok ('\uFFFD', rest)
      else .ok (Char.ofNat n, rest)

/-- The characters up to the closing quote. `start` is the text from the opening quote on, and
`fuel` bounds the number of characters. -/
def stringBody (start : Text) : Nat → Text → Except Fault (Text × Text)
  | 0, s => fail .unterminatedString s
  | fuel + 1, s =>
    match s with
    | [] => fail .unterminatedString start
    | '"' :: rest => .ok ([], rest)
    | ['\\'] => fail .unterminatedString start
    | '\\' :: 'u' :: rest => do
      let (c, rest) ← unicodeEscape ('u' :: rest)
      let (t, rest) ← stringBody start fuel rest
      return (c :: t, rest)
    | '\\' :: letter :: rest =>
      match shortEscape? letter with
      | none => fail .badEscape s
      | some c => do
        let (t, rest) ← stringBody start fuel rest
        return (c :: t, rest)
    | c :: rest =>
      if c.toNat < 0x20 then fail .controlCharacter s
      else do
        let (t, rest) ← stringBody start fuel rest
        return (c :: t, rest)

/-- A string whose opening quote starts the text. -/
def string (s : Text) : Except Fault (Text × Text) :=
  stringBody s (s.length + 1) (s.drop 1)

/-- The number that decimal digits write. -/
def ofDigits (digits : Text) : Nat :=
  digits.foldl (fun n c => n * 10 + (c.toNat - '0'.toNat)) 0

/-- The digits of a whole part: a zero alone, or digits that start with another one. -/
def wholePart? : Text → Option (Text × Text)
  | '0' :: rest => some (['0'], rest)
  | c :: rest =>
    if c.isDigit then some ((c :: rest).takeWhile Char.isDigit, (c :: rest).dropWhile Char.isDigit)
    else none
  | [] => none

/-- The digits after a point, or nothing if no digit follows it. -/
def fractionPart : Text → Text × Text
  | '.' :: rest =>
    match rest.takeWhile Char.isDigit with
    | [] => ([], '.' :: rest)
    | digits => (digits, rest.dropWhile Char.isDigit)
  | s => ([], s)

/-- The exponent, if a mark, an optional sign and a digit follow. -/
def exponentPart (s : Text) : Option Int × Text :=
  match s with
  | mark :: rest =>
    if mark = 'e' || mark = 'E' then
      let (negative, digits) : Bool × Text :=
        match rest with
        | '-' :: r => (true, r)
        | '+' :: r => (false, r)
        | r => (false, r)
      match digits.takeWhile Char.isDigit with
      | [] => (none, s)
      | ds =>
        let n : Int := ofDigits ds
        (some (if negative then -n else n), digits.dropWhile Char.isDigit)
    else (none, s)
  | [] => (none, [])

/-- The bits of the double nearest to `± digits · 10 ^ exponent`. -/
def doubleBits (negative : Bool) (digits : Nat) (exponent : Int) : Nat :=
  let magnitude :=
    if digits = 0 then 0
    else if 400 < exponent then (0x7FF0000000000000 : Nat)
    else if exponent + (Nat.toDigits 10 digits).length < -400 then 0
    else (Float.ofScientific digits (exponent < 0) exponent.natAbs).toBits.toNat
  if negative then Nat.pow 2 63 + magnitude else magnitude

/-- An integer from its sign and its digits. -/
def integer (limits : Limits) (negative : Bool) (digits : Text) : Except Fault Json :=
  if limits.digits < digits.length then
    .error (.excess (.tooManyDigits digits.length limits.digits))
  else
    let n : Int := ofDigits digits
    .ok (.int (if negative then -n else n))

/-- A number after its sign, at the start of the second text. The first starts with the sign. -/
def unsigned (limits : Limits) (negative : Bool) (start s : Text) : Except Fault (Json × Text) :=
  match wholePart? s with
  | none => fail .expectingValue start
  | some (whole, rest) =>
    let (fraction, rest) := fractionPart rest
    let (exponent, rest) := exponentPart rest
    if fraction.isEmpty && exponent.isNone then do
      return (← integer limits negative whole, rest)
    else
      let power : Int := exponent.getD 0 - fraction.length
      .ok (.double (doubleBits negative (ofDigits (whole ++ fraction)) power), rest)

/-- The bits of positive infinity. -/
def infinityBits : Nat := 0x7FF0000000000000

/-- The values that are written as words. -/
def words : List (Text × Json) :=
  [("null".toList, .null), ("true".toList, .bool true), ("false".toList, .bool false),
    ("NaN".toList, .double 0x7FF8000000000000), ("Infinity".toList, .double infinityBits),
    ("-Infinity".toList, .double (Nat.pow 2 63 + infinityBits))]

/-- A number, or a value that is written as a word. -/
def scalar (limits : Limits) (s : Text) : Except Fault (Json × Text) :=
  match words.find? fun (word, _) => word.isPrefixOf s with
  | some (word, value) => .ok (value, s.drop word.length)
  | none =>
    match s with
    | '-' :: rest => unsigned limits true s rest
    | _ => unsigned limits false s s

mutual

/-- A value at the start of the text. -/
def value (limits : Limits) : Nat → Text → Except Fault (Json × Text)
  | 0, s => fail .expectingValue s
  | fuel + 1, s =>
    match s with
    | '"' :: _ => do
      let (t, rest) ← string s
      return (.str t, rest)
    | '{' :: rest =>
      match limits.within? with
      | none => .error (.excess .objectTooDeep)
      | some inner =>
        match skipSpace rest with
        | '}' :: rest => .ok (.obj [], rest)
        | rest => do
          let (fields, rest) ← fieldsAfter inner fuel [] rest
          return (.obj fields, rest)
    | '[' :: rest =>
      match limits.within? with
      | none => .error (.excess .arrayTooDeep)
      | some inner =>
        match skipSpace rest with
        | ']' :: rest => .ok (.arr [], rest)
        | rest => do
          let (values, rest) ← items inner fuel rest
          return (.arr values, rest)
    | _ => scalar limits s

/-- The items of an array, up to its closing bracket. -/
def items (limits : Limits) : Nat → Text → Except Fault (List Json × Text)
  | 0, s => fail .expectingValue s
  | fuel + 1, s => do
    let (v, rest) ← value limits fuel s
    match skipSpace rest with
    | ']' :: rest => return ([v], rest)
    | ',' :: rest => do
      let (vs, rest) ← items limits fuel (skipSpace rest)
      return (v :: vs, rest)
    | rest => fail .expectingComma rest

/-- The fields of an object, up to its closing brace, put after the fields before them. -/
def fieldsAfter (limits : Limits) :
    Nat → OrderedMap Json → Text → Except Fault (OrderedMap Json × Text)
  | 0, _, s => fail .expectingName s
  | fuel + 1, before, s =>
    match s with
    | '"' :: _ => do
      let (name, rest) ← string s
      match skipSpace rest with
      | ':' :: rest => do
        let (v, rest) ← value limits fuel (skipSpace rest)
        let fields := OrderedMap.put name v before
        match skipSpace rest with
        | '}' :: rest => return (fields, rest)
        | ',' :: rest => fieldsAfter limits fuel fields (skipSpace rest)
        | rest => fail .expectingComma rest
      | rest => fail .expectingColon rest
    | _ => fail .expectingName s

end

/-- A whole text: one value with blanks around it. -/
def document (limits : Limits) (s : Text) : Except Fault Json :=
  if s.head? = some '\uFEFF' then .error (.illFormed .byteOrderMark s.length)
  else
    match value limits (2 * s.length + 2) (skipSpace s) with
    | .error fault => .error fault
    | .ok (v, rest) =>
      match skipSpace rest with
      | [] => .ok v
      | rest => .error (.illFormed .extraData rest.length)

/-- Whether an escape in the text stands for half a surrogate pair alone. The flag says that the
first half of a pair comes directly before. -/
def holdsHalfPair (afterHigh : Bool) : Text → Bool
  | '\\' :: 'u' :: a :: b :: c :: d :: rest =>
    match hexUnit? [a, b, c, d] with
    | some (n, _) =>
      if isHighHalf n then afterHigh || holdsHalfPair true rest
      else if isLowHalf n then !afterHigh || holdsHalfPair false rest
      else afterHigh || holdsHalfPair false rest
    | none => afterHigh || holdsHalfPair false rest
  | '\\' :: _ :: rest => afterHigh || holdsHalfPair false rest
  | _ :: rest => afterHigh || holdsHalfPair false rest
  | [] => afterHigh

/-- Where a text is ill-formed. -/
structure SyntaxError where
  /-- What is wrong. -/
  problem : Problem
  /-- How many characters come before the place. -/
  offset : Nat
  /-- The line of the place, counted from one. -/
  line : Nat
  /-- The column of the place, counted from one. -/
  column : Nat
  deriving DecidableEq, Repr

/-- The wording of a syntax error. -/
def SyntaxError.message (e : SyntaxError) : String :=
  s!"{e.problem.message}: line {e.line} column {e.column} (char {e.offset})"

/-- The place in a text before which so many characters are left. -/
def SyntaxError.locate (s : Text) (problem : Problem) (left : Nat) : SyntaxError :=
  let before := s.take (s.length - left)
  { problem
    offset := before.length
    line := before.count '\n' + 1
    column := (before.reverse.takeWhile (· ≠ '\n')).length + 1 }

/-- Why a text is not read. -/
inductive ReadError where
  /-- It is ill-formed. -/
  | illFormed (e : SyntaxError)
  /-- It goes beyond a limit. -/
  | excess (e : Excess)
  /-- Half a surrogate pair stands in it alone. -/
  | halfPair
  deriving DecidableEq, Repr

/-- The wording of an error. -/
def ReadError.message : ReadError → String
  | illFormed e => e.message
  | excess e => e.message
  | halfPair => "half a surrogate pair is no character"

/-- A fault with its place in the text. -/
def Fault.locate (s : Text) : Fault → ReadError
  | illFormed problem left => .illFormed (.locate s problem left)
  | excess e => .excess e

/-- Reads a JSON text within limits. -/
def parse (limits : Limits) (s : Text) : Except ReadError Json :=
  match document limits s with
  | .error fault => .error (fault.locate s)
  | .ok v => if holdsHalfPair false s then .error .halfPair else .ok v

end ApiDoc.Json
