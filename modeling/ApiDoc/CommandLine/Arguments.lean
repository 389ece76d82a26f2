import ApiDoc.CommandLine.Word
import ApiDoc.Item.Kind

/-!
# Arguments

What a command line asks for. There are two commands: one reads a single comment, the other a
manifest. Arguments are read from the left, and help is given as soon as it is asked for, unless
something before it is wrong.

Conventions differ on two dashes that are joined to an option by an equals sign. Here the older one
is followed, by which two dashes are taken away wherever they stand alone, also as a value.
-/

namespace ApiDoc.CommandLine

/-- The form of the output. -/
inductive Format where
  | json | summary
  deriving DecidableEq, Repr

/-- The words for the forms of the output. -/
def Format.ofName? (word : Text) : Option Format :=
  if word = "json".toList then some .json
  else if word = "summary".toList then some .summary
  else none

/-- The options that both commands have. -/
structure Options where
  /-- The form of the output. -/
  format : Format := .summary
  /-- Whether progress and the whole log are shown. -/
  verbose : Bool := false
  /-- Whether problems of comments make the command fail. -/
  strict : Bool := false
  /-- Whether an item that inherits from a deprecated one has to say that it is deprecated. -/
  enforceInheritedDeprecation : Bool := false
  /-- The package of a single comment; none if its name is left out. -/
  package : Option Text := some "local-package".toList
  /-- The kind of item that a single comment stands at; none if it is left out. -/
  kind : Option ItemKind := some .function
  deriving DecidableEq, Repr

/-- What a command line asks for. -/
inductive Request where
  /-- To show help. -/
  | help
  /-- To show the version. -/
  | version
  /-- Nothing, since no command is named. -/
  | noCommand
  /-- The arguments are wrong. -/
  | misuse
  /-- To read a comment, from a file or, without one, from the standard input. -/
  | parse (options : Options) (file : Option Text)
  /-- To read a manifest. -/
  | extract (options : Options) (manifest : Text)
  deriving DecidableEq, Repr

namespace Arguments

/-- The options that both commands have. -/
def commonOptions : List Text :=
  ["--help".toList, "--format".toList, "--verbose".toList, "--strict".toList,
    "--enforce-inherited-deprecation".toList]

/-- The options of the command that reads a comment. -/
def parseOptions : List Text :=
  commonOptions ++ ["--package".toList, "--kind".toList]

/-- What ends the reading of arguments early. -/
inductive Stop where
  /-- Help is asked for. -/
  | help
  /-- The arguments are wrong. -/
  | misuse
  deriving DecidableEq, Repr

/-- What was read of the arguments of a command. -/
structure Progress where
  /-- The options. -/
  options : Options := {}
  /-- The plain argument. -/
  argument : Option Text := none
  /-- Whether there were more arguments than there may be. -/
  excess : Bool := false
  deriving DecidableEq, Repr

/-- Whether an option takes a value. -/
def takesValue (name : Text) : Bool :=
  name = "--format".toList || name = "--package".toList || name = "--kind".toList

/-- The value that follows an equals sign. Two dashes there leave the value out, by the older
convention. -/
def attachedValue (t : Text) : Option Text :=
  if t = ['-', '-'] then none else some t

/-- Sets an option that takes a value. If the value is left out, the output is a summary, and a
package or a kind is left out too. -/
def setValue (name : Text) (value : Option Text) (options : Options) : Except Stop Options :=
  if name = "--format".toList then
    match value.elim (some .summary) Format.ofName? with
    | some format => .ok { options with format }
    | none => .error .misuse
  else if name = "--kind".toList then
    match value with
    | none => .ok { options with kind := none }
    | some word =>
      match ItemKind.ofName? word with
      | some kind => .ok { options with kind := some kind }
      | none => .error .misuse
  else .ok { options with package := value }

/-- Sets an option that takes no value. -/
def setSwitch (name : Text) (options : Options) : Except Stop Options :=
  if name = "--help".toList then .error .help
  else if name = "--verbose".toList then .ok { options with verbose := true }
  else if name = "--strict".toList then .ok { options with strict := true }
  else .ok { options with enforceInheritedDeprecation := true }

/-- Takes a plain argument; there may be one. -/
def takeArgument (t : Text) (p : Progress) : Progress :=
  match p.argument with
  | none => { p with argument := some t }
  | some _ => { p with excess := true }

/-- Reads the arguments of a command. Two dashes are not counted as an argument directly after the
plain argument, or before it where it may still come. -/
def readWords (p : Progress) : List Word → Except Stop Progress
  | [] => .ok p
  | .plain t :: .dashes :: words =>
    let q := takeArgument t p
    if p.argument.isNone then readWords q words else readWords q (.dashes :: words)
  | .plain t :: words => readWords (takeArgument t p) words
  | .dashes :: words =>
    readWords (if p.argument.isNone then p else { p with excess := true }) words
  | .known name (some value) :: words =>
    if takesValue name then do
      let options ← setValue name (attachedValue value) p.options
      readWords { p with options } words
    else .error .misuse
  | .known name none :: words =>
    if takesValue name then
      match words with
      | .plain value :: words => do
        let options ← setValue name (some value) p.options
        readWords { p with options } words
      | _ => .error .misuse
    else do
      let options ← setSwitch name p.options
      readWords { p with options } words
  | .helpLetter rest :: _ => .error (if Word.isHelpCluster rest then .help else .misuse)
  | .unknown :: words => readWords { p with excess := true } words
  | .ambiguous :: _ => .error .misuse

/-- Reads the arguments of a command that has the given options. -/
def readCommand (options : List Text) (arguments : List Text) : Except Stop Progress :=
  let words := Word.ofArguments options arguments
  if words.contains .ambiguous then .error .misuse else readWords {} words

/-- What ends the reading early as a request. -/
def Stop.request : Stop → Request
  | .help => .help
  | .misuse => .misuse

/-- The request of the command that reads a comment. -/
def parseRequest (excess : Bool) (arguments : List Text) : Request :=
  match readCommand parseOptions arguments with
  | .error stop => stop.request
  | .ok p => if p.excess || excess then .misuse else .parse p.options p.argument

/-- The request of the command that reads a manifest. -/
def extractRequest (excess : Bool) (arguments : List Text) : Request :=
  match readCommand commonOptions arguments with
  | .error stop => stop.request
  | .ok p =>
    match p.argument with
    | some manifest => if p.excess || excess then .misuse else .extract p.options manifest
    | none => .misuse

/-- The options that may stand before a command. -/
def mainOptions : List Text :=
  ["--help".toList, "--version".toList]

/-- Reads the arguments up to the command, and then those of the command. The flag says whether
there was an unknown option before. -/
def readMain (excess : Bool) : List Text → Request
  | [] => if excess then .misuse else .noCommand
  | t :: arguments =>
    if t = ['-', '-'] then .misuse
    else
      match Word.ofArgument mainOptions t with
      | .plain command =>
        if command = "parse".toList then parseRequest excess arguments
        else if command = "extract".toList then extractRequest excess arguments
        else .misuse
      | .known name none => if name = "--version".toList then .version else .help
      | .known _ (some _) => .misuse
      | .helpLetter rest => if Word.isHelpCluster rest then .help else .misuse
      | .unknown => readMain true arguments
      | .dashes => .misuse
      | .ambiguous => .misuse

/-- What a command line asks for. Arguments that are ambiguous among the options before a command
are wrong wherever they stand. -/
def read (arguments : List Text) : Request :=
  if (Word.ofArguments mainOptions arguments).contains .ambiguous then .misuse
  else readMain false arguments

end Arguments

end ApiDoc.CommandLine
