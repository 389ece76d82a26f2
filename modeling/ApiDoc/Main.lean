import ApiDoc.CommandLine.Run

/-!
# The program

The command line as a program: it looks at the files, the standard input and the environment, runs
the command, and prints what it gives out.
-/

open ApiDoc ApiDoc.CommandLine

/-- The variable that holds the switch for inherited deprecation. -/
def switchVariable : String := "AEDOC_ENFORCE_INHERITED_DEPRECATION"

/-- The path that a request needs to look at, in normal form. -/
def neededPath : Request → Option Text
  | .parse _ (some (c :: file)) => some (Path.normalize (c :: file))
  | .extract _ manifest => some (Path.normalize manifest)
  | _ => none

/-- Why the system refuses to read something: a fault of the path, or another one. -/
abbrev Refusal := PathFault ⊕ IO.Error

/-- The wording of a refusal. -/
def Refusal.message (path : Text) : Refusal → String
  | .inl f => f.message path
  | .inr e => toString e

/-- The fault of a path that an error number stands for; the number may come negated. -/
def pathFault? (code : UInt32) : Option PathFault :=
  [PathFault.isDirectory, .nameTooLong].find? fun f =>
    f.code = code.toNat || f.code = (-code).toNat

/-- What a path leads to. -/
def look (path : Text) : IO (Found Refusal) := do
  try
    return .file (← IO.FS.readBinFile (Text.toString path)).toList
  catch
    | .inappropriateType _ code _ | .invalidArgument _ code _ =>
      return ((pathFault? code).map fun f => .refused (.inl f)).getD .missing
    | .noFileOrDirectory _ _ _ => return .missing
    | e => return .refused (.inr e)

/-- The bytes of a stream up to its end, after those that were read before. -/
partial def readAll (stream : IO.FS.Stream) (before : ByteArray) : IO ByteArray := do
  let chunk ← stream.read 65536
  if chunk.isEmpty then return before else readAll stream (before ++ chunk)

/-- What the standard input gives. -/
def readInput : IO (Input Refusal) := do
  try
    return .bytes (← readAll (← IO.getStdin) .empty).toList
  catch e =>
    return .refused (.inr e)

/-- Runs the program. -/
def main (arguments : List String) : IO UInt32 := do
  let request := Arguments.read (arguments.map String.toList)
  let found ←
    match neededPath request with
    | some path => look path
    | none => pure .missing
  let input ←
    match request with
    | .parse _ none | .parse _ (some []) => readInput
    | _ => pure (.bytes [])
  let switch ← IO.getEnv switchVariable
  let env : Environment Refusal :=
    { find := fun _ => found, input, switch := switch.map String.toList }
  match request.run env with
  | .output o =>
    (← IO.getStdout).putStr (Text.toString o.out)
    (← IO.getStderr).putStr (Text.toString o.err)
    return o.status.toUInt32
  | .refused f path =>
    (← IO.getStderr).putStrLn (Refusal.message path f)
    return 1
