import ApiDoc.Item.Kind
import ApiDoc.Documentation.Problem
import ApiDoc.OrderedMap
import ApiDoc.Text.Quoted

/-!
# Documentation

The documentation of an item: what its comment says block by block, its stage of support and flags,
the problems found so far, and the work that has to wait until the other comments of the package
are read.
-/

namespace ApiDoc

/-- The blocks of a documentation. -/
structure Content where
  /-- The summary. -/
  summary : Block := []
  /-- The remarks. -/
  remarks : Block := []
  /-- The message that the item is deprecated. -/
  deprecatedMessage : Block := []
  /-- The description of the returned value. -/
  returnsMessage : Block := []
  /-- The descriptions of the parameters, by name. -/
  parameters : OrderedMap Block := []
  deriving DecidableEq, Repr

namespace Content

/-- The content with every block replaced by its image. -/
def mapBlocks (f : Block → Block) (c : Content) : Content where
  summary := f c.summary
  remarks := f c.remarks
  deprecatedMessage := f c.deprecatedMessage
  returnsMessage := f c.returnsMessage
  parameters := OrderedMap.mapValues f c.parameters

/-- Gives the link at a place of the comment a status, wherever it is shown. -/
def settle (place : Nat) (status : LinkStatus) (c : Content) : Content :=
  c.mapBlocks (Block.settle place status)

/-- The content as a copy that no longer follows its comment. -/
def detach (c : Content) : Content :=
  c.mapBlocks Block.detach

end Content

/-- How far the completion of a documentation is. -/
inductive CompletionState where
  /-- Not begun. -/
  | unvisited
  /-- Begun and not ended. -/
  | inProgress
  /-- Ended. -/
  | done
  deriving DecidableEq, Repr

/-- The word for a state. -/
def CompletionState.name : CompletionState → String
  | unvisited => "unvisited"
  | inProgress => "in-progress"
  | done => "done"

/-- A link to an item that has to be looked up. -/
structure PendingLink where
  /-- The place of the link among the item links of its comment. -/
  place : Nat
  /-- The item that the link leads to. -/
  target : ItemKey
  deriving DecidableEq, Repr

/-- The documentation of an item. -/
structure Documentation where
  /-- The name by which diagnostics call the item. -/
  itemName : Option Text := none
  /-- What is shown. -/
  content : Content := {}
  /-- The stage of support. -/
  releaseTag : ReleaseTag := .unstated
  /-- The flags that are raised. -/
  flags : List Flag := []
  /-- Whether the comment asks to inherit. -/
  isInherited : Bool := false
  /-- Whether something was inherited from a deprecated item. -/
  isInheritedDeprecated : Bool := false
  /-- The problems found so far, in order. -/
  problems : List Problem := []
  /-- Whether a problem was found. -/
  hasFailed : Bool := false
  /-- The links that have to be looked up, in the order of the comment. -/
  pendingLinks : List PendingLink := []
  /-- The links that were looked up, shown or not, and what came of each, in order. -/
  settledLinks : List (PendingLink × LinkStatus) := []
  /-- The contents of the requests to inherit that have to be met, in the order of the comment. -/
  pendingInheritDocs : List Text := []
  /-- How far the completion is. -/
  state : CompletionState := .unvisited
  deriving DecidableEq, Repr

namespace Documentation

/-- Whether a flag is raised. -/
def hasFlag (d : Documentation) (f : Flag) : Bool :=
  d.flags.contains f

/-- The documentation with one more problem, which has failed from then on. -/
def report (p : Problem) (d : Documentation) : Documentation :=
  { d with problems := d.problems ++ [p], hasFailed := true }

/-- The documentation with one more problem, if a condition holds. -/
def reportIf (condition : Bool) (p : Problem) (d : Documentation) : Documentation :=
  if condition then d.report p else d

/-- Whether the item inherits from a deprecated one and does not say that it is deprecated. -/
def omitsDeprecation (d : Documentation) : Bool :=
  d.isInheritedDeprecated && d.content.deprecatedMessage.isEmpty

/-- The diagnostic for a problem of this documentation. -/
def diagnostic (d : Documentation) (p : Problem) : Diagnostic where
  problem := p
  itemName := d.itemName

/-- A documentation as messages show it. -/
def describe (d : Documentation) : Text :=
  let name :=
    match d.itemName with
    | some name => Text.quoted name
    | none => "None".toList
  let outcome := if d.hasFailed then "failed" else "ok"
  "ApiDocumentation(".toList ++ name ++
    s!", release={d.releaseTag.name}, {outcome}, state={d.state.name})".toList

end Documentation

end ApiDoc
