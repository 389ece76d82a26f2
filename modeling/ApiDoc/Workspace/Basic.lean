import ApiDoc.Documentation.Parse
import ApiDoc.Item.Resolved
import ApiDoc.Package.Basic

/-!
# Workspaces

Everything about a package while its documentation is put together: the items and their
documentations, what is known of other packages, the settings, and what was reported so far. What
happens in a workspace is an `Action`, which may be interrupted; what was done before stays done.
-/

namespace ApiDoc

/-- A reference that leads nowhere. -/
inductive Warning where
  /-- There is no such item. -/
  | unresolved (key : ItemKey)
  /-- Nothing is known about the package. -/
  | unknownPackage (key : ItemKey)
  deriving DecidableEq, Repr

/-- The wording of a warning. -/
def Warning.message : Warning → String
  | unresolved key => s!"Unable to resolve reference \"{Text.toString key.text}\""
  | unknownPackage key =>
    s!"Unable to find referenced package \"{Text.toString key.fullPackageName}\"" ++
      s!" for reference \"{Text.toString key.text}\""

/-- An event that is logged. -/
inductive LogEntry where
  /-- A problem is reported. -/
  | problem (d : Diagnostic)
  /-- A reference leads nowhere. -/
  | warning (w : Warning)
  /-- A request to inherit leads back to its own item. -/
  | circular (itemName : Option Text) (content : Text)
  deriving DecidableEq, Repr

/-- The levels of the log. -/
inductive LogLevel where
  | debug | warning
  deriving DecidableEq, Repr

namespace LogEntry

/-- The level of an event. -/
def level : LogEntry → LogLevel
  | problem _ => .debug
  | warning _ => .warning
  | circular _ _ => .warning

/-- The log that an event belongs to. -/
def source : LogEntry → String
  | problem _ => "aedoc.models.diagnostics"
  | warning _ => "aedoc.resolution.package_resolver"
  | circular _ _ => "aedoc.resolution.deferred_resolver"

/-- The wording of an event. -/
def message : LogEntry → Text
  | problem d => "AEDoc error: ".toList ++ d.text
  | warning w => w.message.toList
  | circular itemName content =>
    "Circular @inheritdoc reference from ".toList ++
      (itemName.map Text.quoted).getD "None".toList ++ " to ".toList ++ Text.quoted content

end LogEntry

/-- What can interrupt an action. -/
inductive Interruption where
  /-- The listener for diagnostics failed. -/
  | listenerFailed
  /-- A link leaves its package out and no package is known. -/
  | missingPackage
  /-- An item comes after the documentation was completed. -/
  | alreadyComplete
  deriving DecidableEq, Repr

/-- The wording of an interruption. -/
def Interruption.message : Interruption → String
  | listenerFailed => "logger failed"
  | missingPackage => "Unable to resolve API reference without a package name"
  | alreadyComplete => "Cannot add items after documentation has been completed"

/-- The state of the work on a package. -/
structure Workspace where
  /-- The items. -/
  package : Package
  /-- The parts of the package's name, if it has one. -/
  identity : Option PackageName
  /-- The settings. -/
  config : Config
  /-- The documentations, by number. One whose item was replaced stays here. -/
  documents : Array Documentation := #[]
  /-- The items of other packages, by package and by item. -/
  external : OrderedMap (OrderedMap ResolvedItem) := []
  /-- Every diagnostic, in the order of the reports. -/
  diagnostics : List Diagnostic := []
  /-- Every warning, in order. -/
  warnings : List Warning := []
  /-- Everything that was logged, in order. -/
  log : List LogEntry := []
  /-- Which of the coming reports the listener fails at: the head is about the next one, and
  without an entry it does not fail. -/
  faults : List Bool := []
  /-- Whether the documentation was completed. -/
  isComplete : Bool := false

/-- What happens in a workspace: it may be interrupted, and what was done before stays done. -/
abbrev Action := ExceptT Interruption (StateM Workspace)

namespace Workspace

/-- The workspace of an empty package whose name is left out. -/
def unnamed (config : Config) : Workspace :=
  { package := { name := none }, identity := none, config }

/-- The workspace of an empty package with a name; none if the name is neither empty nor a package
name. -/
def ofName? (name : Text) (config : Config) : Option Workspace :=
  if name.isEmpty then some { package := { name := some name }, identity := none, config }
  else
    (PackageName.parse? name).map fun identity =>
      { package := { name := some name }, identity := some identity, config }

/-- A documentation by its number. A number that was never given out counts as completed. -/
def document (w : Workspace) (id : DocId) : Documentation :=
  w.documents.getD id { state := .done }

/-- Changes a documentation. -/
def updateDocument (id : DocId) (f : Documentation → Documentation) (w : Workspace) : Workspace :=
  { w with documents := w.documents.modify id f }

/-- What the reading of a comment depends on. -/
def surroundings (w : Workspace) : Surroundings where
  package := w.identity
  config := w.config

/-- The documentation of an item. -/
def documentOf (w : Workspace) (item : Item) : Documentation :=
  w.document item.doc

end Workspace

namespace Action

/-- The documentation with a number. -/
def document (id : DocId) : Action Documentation := do
  return (← get).document id

/-- Changes a documentation. -/
def update (id : DocId) (f : Documentation → Documentation) : Action Unit :=
  modify (Workspace.updateDocument id f)

/-- Writes an event to the log. -/
def log (entry : LogEntry) : Action Unit :=
  modify fun w => { w with log := w.log ++ [entry] }

/-- Hands a diagnostic to the listener, who may fail. -/
def listen : Action Unit := do
  let w ← get
  set { w with faults := w.faults.tail }
  if w.faults.head?.getD false then throw .listenerFailed

/-- Makes a diagnostic known: it is logged, kept, and handed to the listener. -/
def announce (d : Diagnostic) : Action Unit := do
  log (.problem d)
  modify fun w => { w with diagnostics := w.diagnostics ++ [d] }
  listen

/-- Reports a problem of a documentation. -/
def report (id : DocId) (p : Problem) : Action Unit := do
  update id (Documentation.report p)
  announce ((← document id).diagnostic p)

end Action

end ApiDoc
