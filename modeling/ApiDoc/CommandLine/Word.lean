import ApiDoc.Text.Digit

/-!
# Words of a command line

What each argument of a command line is, given the options that may be used: an option by its full
name or an unambiguous beginning of it, with or without a value, or a plain argument. After two
dashes every argument is plain. The only option of one letter is the one for help. What may be
joined to that letter follows the older convention for clusters of options of one letter: the letter
itself, and an equals sign before it, but no other letter.
-/

namespace ApiDoc.CommandLine

/-- An argument as the options make it out. -/
inductive Word where
  /-- A plain argument. -/
  | plain (t : Text)
  /-- Two dashes, after which every argument is plain. -/
  | dashes
  /-- A known option, by its full name, and the value after an equals sign. -/
  | known (name : Text) (value : Option Text)
  /-- The letter for help with what follows it in the same argument. -/
  | helpLetter (rest : Text)
  /-- An option that is not known. -/
  | unknown
  /-- The beginning of several options. -/
  | ambiguous
  deriving DecidableEq, Repr

namespace Word

/-- Whether an argument is a negative number, which is no option. -/
def isNegativeNumber (t : Text) : Bool :=
  match Text.dropFinalNewline t with
  | '-' :: digits =>
    match digits.dropWhile Text.isDigit with
    | [] => !digits.isEmpty
    | '.' :: fraction => !fraction.isEmpty && fraction.all Text.isDigit
    | _ => false
  | _ => false

/-- An option without its value, and the value after the first equals sign. -/
def nameAndValue (t : Text) : Text × Option Text :=
  match Text.splitFirst? '=' t with
  | some (name, value) => (name, some value)
  | none => (t, none)

/-- An argument that starts with a dash and is no known option. -/
def ofUnknown (t : Text) : Word :=
  if isNegativeNumber t || t.contains ' ' then plain t else unknown

/-- What an argument before any two dashes is. -/
def ofArgument (options : List Text) (t : Text) : Word :=
  match t with
  | '-' :: '-' :: _ =>
    let (name, value) := nameAndValue t
    if options.contains t then known t none
    else if value.isSome && options.contains name then known name value
    else
      match options.filter name.isPrefixOf with
      | [] => ofUnknown t
      | [option] => known option value
      | _ => ambiguous
  | '-' :: 'h' :: rest => helpLetter rest
  | '-' :: _ :: _ => ofUnknown t
  | _ => plain t

/-- What the arguments of a command line are. -/
def ofArguments (options : List Text) : List Text → List Word
  | [] => []
  | t :: rest =>
    if t = ['-', '-'] then dashes :: rest.map plain
    else ofArgument options t :: ofArguments options rest

/-- Whether what follows the letter for help is well-formed: the letter again as often as one
likes. An equals sign may stand before the letters, if there are any. -/
def isHelpCluster : Text → Bool
  | '=' :: rest => !rest.isEmpty && rest.all (· = 'h')
  | rest => rest.all (· = 'h')

end Word

end ApiDoc.CommandLine
