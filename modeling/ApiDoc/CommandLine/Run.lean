import ApiDoc.CommandLine.Arguments
import ApiDoc.CommandLine.Path
import ApiDoc.Extraction.Manifest
import ApiDoc.Extraction.Report
import ApiDoc.Json.Reader
import ApiDoc.Json.Writer
import ApiDoc.Text.Utf8
import ApiDoc.Workspace.Complete

/-!
# Running a command

A command as a function from what it finds to what it gives out: the texts for its two outputs and
its exit status. What no command handles is a path that leads to something that cannot be opened as
a file, and a standard input that cannot be read. The system gives a reason for that, from a type
`F` of reasons; those that a path itself gives rise to are listed (`PathFault`), and others, such as
a lack of permission, depend on the system.
-/

namespace ApiDoc.CommandLine

/-- Why a path does not give a file, although it cannot be said that there is none. -/
inductive PathFault where
  /-- It leads to a directory. -/
  | isDirectory
  /-- It is too long, or a name in it is. -/
  | nameTooLong
  deriving DecidableEq, Repr

namespace PathFault

/-- The number of a fault. -/
def code : PathFault → Nat
  | isDirectory => 21
  | nameTooLong => 36

/-- What a fault is called. -/
def name : PathFault → String
  | isDirectory => "Is a directory"
  | nameTooLong => "File name too long"

/-- The wording of a fault of a path. -/
def message (f : PathFault) (path : Text) : String :=
  s!"[Errno {f.code}] {f.name}: {Text.toString (Text.quoted path)}"

end PathFault

/-- What a path leads to. -/
inductive Found (F : Type := PathFault) where
  /-- Nothing. -/
  | missing
  /-- A file with the given bytes. -/
  | file (bytes : List UInt8)
  /-- Something that cannot be opened or read, for a reason. -/
  | refused (f : F)
  deriving DecidableEq, Repr

/-- What the standard input gives. -/
inductive Input (F : Type := PathFault) where
  /-- Bytes up to its end. -/
  | bytes (bytes : List UInt8)
  /-- Nothing, since it cannot be read, for a reason. -/
  | refused (f : F)
  deriving DecidableEq, Repr

instance {F : Type} : Coe (List UInt8) (Input F) where
  coe := .bytes

/-- The most that is read of a manifest where nothing else is known of the machine: as many values
in each other as a stack of a thousand calls leaves room for. -/
def manifestLimits : Json.Limits where
  depth := 989
  digits := 4300

/-- What a command finds. -/
structure Environment (F : Type := PathFault) where
  /-- What a normal path leads to. -/
  find : Text → Found F
  /-- The standard input. -/
  input : Input F
  /-- The value of the switch in the environment, if it is set. -/
  switch : Option Text
  /-- The most that is read of a manifest. -/
  limits : Json.Limits := manifestLimits

/-- What a command gives out. -/
structure Output where
  /-- The exit status. -/
  status : Nat
  /-- The text for the standard output. -/
  out : Text
  /-- The text for the error output. -/
  err : Text
  deriving DecidableEq, Repr

/-- How a command ends. -/
inductive Ending (F : Type := PathFault) where
  /-- It gives something out. -/
  | output (o : Output)
  /-- It breaks off, because of a path or, where that is empty, of the standard input. -/
  | refused (f : F) (path : Text)
  deriving DecidableEq, Repr

/-- What is wrong with what a command finds. -/
inductive Trouble where
  /-- There is no such file. -/
  | fileMissing (path : Text)
  /-- There is no such manifest. -/
  | manifestMissing (path : Text)
  /-- The bytes are no text. -/
  | notText (f : Utf8.Fault)
  /-- The manifest is no JSON. -/
  | notJson (path : Text) (e : Json.SyntaxError)
  /-- The manifest goes beyond what is read of JSON. -/
  | tooMuchJson (e : Json.Excess)
  /-- Half a surrogate pair stands alone in the manifest. -/
  | halfPair
  /-- The manifest is no JSON object. -/
  | notObject (path : Text)
  /-- The kind of the item is left out. -/
  | noKind
  /-- The manifest cannot be read, or the comment cannot. -/
  | unreadable (f : Manifest.Failure)

/-- The wording of a trouble. -/
def Trouble.message : Trouble → String
  | fileMissing path => s!"File not found: {Text.toString path}"
  | manifestMissing path => s!"Manifest not found: {Text.toString path}"
  | notText f => f.message
  | notJson path e => s!"Manifest {Text.toString path} is not valid JSON: {e.message}"
  | tooMuchJson e => e.message
  | halfPair => Json.ReadError.halfPair.message
  | notObject path => s!"Manifest {Text.toString path} must contain a JSON object"
  | noKind => (DataError.unknownKind (.arr [])).message
  | unreadable f => f.message

/-- A text as a line. -/
def line (t : Text) : Text :=
  t ++ ['\n']

/-- The lines of the error output for events of the log. Events that are no warnings are only shown
by a verbose command, which tells level and source of each. -/
def logLines (verbose : Bool) (log : List LogEntry) : Text :=
  log.flatMap fun entry =>
    match verbose, entry.level with
    | true, .debug => line (s!"DEBUG {entry.source}: ".toList ++ entry.message)
    | true, .warning => line (s!"WARNING {entry.source}: ".toList ++ entry.message)
    | false, .debug => []
    | false, .warning => line entry.message

section
variable {F : Type}

/-- The ending in trouble. -/
def troubled (err : Text) (t : Trouble) : Ending F :=
  .output { status := 1, out := [], err := err ++ line ("Error: ".toList ++ t.message.toList) }

/-- Completes a workspace whose comments are read, and gives the report out. `loaded` is what a
verbose command says before that. -/
def finish (options : Options) (loaded : Text) (read : Workspace) : Ending F :=
  let (_, w) := Action.completeAll.run read
  let progress :=
    if options.verbose then
      loaded ++
        line s!"Completing documentation for {read.package.items.length} items".toList
    else []
  let report :=
    match options.format with
    | .json => w.reportJson.indented 0
    | .summary => w.summaryText
  .output
    { status := if options.strict && !w.diagnostics.isEmpty then 1 else 0
      out := line report
      err :=
        logLines options.verbose read.log ++ progress ++
          logLines options.verbose (w.log.drop read.log.length) }

/-- The settings of a command. -/
def configOf (env : Environment F) (options : Options) : Config :=
  let config := Config.ofSwitch env.switch
  if options.enforceInheritedDeprecation then
    { config with enforceInheritedDeprecation := true }
  else config

/-- The text that bytes write, with newlines for all line endings. -/
def textOf (bytes : List UInt8) : Except Trouble Text :=
  match Utf8.decode bytes with
  | .ok t => .ok (Text.universalNewlines t)
  | .error f => .error (.notText f)

/-- The name of the item that a single comment documents. -/
def standaloneItem : Text := "comment".toList

/-- The workspace for a single comment of the package with a name. -/
def workspaceOf (config : Config) : Option Text → Except Trouble Workspace
  | none => .ok (.unnamed config)
  | some name =>
    match Workspace.ofName? name config with
    | some w => .ok w
    | none => .error (.unreadable (.malformed (.badPackageName name)))

/-- What the reading of a single comment starts from: the workspace, the kind of the item and the
comment. -/
def standalone (config : Config) (options : Options) (bytes : List UInt8) :
    Except Trouble (Workspace × ItemKind × Text) := do
  let comment ← textOf bytes
  let w ← workspaceOf config options.package
  let some kind := options.kind | throw .noKind
  return (w, kind, comment)

/-- Reads a single comment. -/
def runComment (env : Environment F) (options : Options) (bytes : List UInt8) : Ending F :=
  match standalone (configOf env options) options bytes with
  | .error t => troubled [] t
  | .ok (w, kind, comment) =>
    match (Action.addItem [] standaloneItem kind comment).run w with
    | (.error i, w) => troubled (logLines options.verbose w.log) (.unreadable (.interrupted i))
    | (.ok _, w) => finish options [] w

/-- Runs the command that reads a comment. -/
def runParse (env : Environment F) (options : Options) : Option Text → Ending F
  | none | some [] =>
    match env.input with
    | .bytes bytes => runComment env options bytes
    | .refused f => .refused f []
  | some file =>
    let path := Path.normalize file
    match env.find path with
    | .missing => troubled [] (.fileMissing file)
    | .refused f => .refused f path
    | .file bytes => runComment env options bytes

/-- The fields of a manifest in the bytes of a file. -/
def manifestOf (limits : Json.Limits) (path : Text) (bytes : List UInt8) :
    Except Trouble (OrderedMap Json) := do
  let text ← textOf bytes
  match Json.parse limits text with
  | .error (.illFormed e) => throw (.notJson path e)
  | .error (.excess e) => throw (.tooMuchJson e)
  | .error .halfPair => throw .halfPair
  | .ok (.obj fields) => return fields
  | .ok _ => throw (.notObject path)

/-- Runs the command that reads a manifest. -/
def runExtract (env : Environment F) (options : Options) (file : Text) : Ending F :=
  let path := Path.normalize file
  match env.find path with
  | .missing => troubled [] (.manifestMissing path)
  | .refused f => .refused f path
  | .file bytes =>
    match manifestOf env.limits path bytes with
    | .error t => troubled [] t
    | .ok fields =>
      match Manifest.read (configOf env options) fields with
      | (.error f, w) =>
        troubled (logLines options.verbose ((w.map Workspace.log).getD [])) (.unreadable f)
      | (.ok _, none) => troubled [] (.notObject path)
      | (.ok _, some w) =>
        finish options (line ("Loaded manifest for ".toList ++ w.package.title)) w

/-- What is said about the use of the program. -/
def usage : String :=
  "usage: aedoc [-h] [--version] \x7bparse,extract\x7d ...\n\n" ++
  "Extract and validate AEDoc documentation comments\n\n" ++
  "  parse [options] [file]       Parse a single AEDoc comment\n" ++
  "  extract [options] manifest   Extract documentation for a package manifest\n\n" ++
  "  --format \x7bjson,summary\x7d     Output format (default: summary)\n" ++
  "  --verbose                    Show progress and debug logging\n" ++
  "  --strict                     Exit with status 1 if any error was reported\n" ++
  "  --enforce-inherited-deprecation\n" ++
  "                               Require @deprecated where it would be inherited\n" ++
  "  --package NAME               (parse) Package that references belong to\n" ++
  "  --kind KIND                  (parse) Kind of declaration\n"

/-- The version of the program. -/
def version : String := "aedoc 0.3.0"

/-- Runs a request. -/
def Request.run (env : Environment F) : Request → Ending F
  | help => .output { status := 0, out := usage.toList, err := [] }
  | version => .output { status := 0, out := line CommandLine.version.toList, err := [] }
  | noCommand => .output { status := 1, out := usage.toList, err := [] }
  | misuse => .output { status := 2, out := [], err := usage.toList }
  | parse options file => runParse env options file
  | extract options manifest => runExtract env options manifest

/-- Runs a command line. -/
def run (env : Environment F) (arguments : List Text) : Ending F :=
  (Arguments.read arguments).run env

end

end ApiDoc.CommandLine
