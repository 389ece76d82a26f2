import ApiDoc.Workspace.Resolve

/-!
# Completing documentation

When all comments of a package are read, each documentation is completed: its links are looked up,
and then its requests to inherit are met in order. A request that leads to a documentation of the
package that is not completed yet has that one completed first. What is suspended meanwhile stands
on a stack; a request that leads to a documentation on the stack would never end and is reported
instead. If an action is interrupted, whatever is on the stack counts as completed.
-/

namespace ApiDoc

/-- A suspended piece of work on a documentation. -/
inductive Frame where
  /-- To begin, with the links. -/
  | enter (doc : DocId)
  /-- To meet the requests to inherit that are left. -/
  | drain (doc : DocId)
  /-- To inherit from a documentation that is completed by now. -/
  | copy (doc : DocId) (kind : ItemKind) (source : DocId)
  deriving DecidableEq, Repr

/-- The documentation that a piece of work is about. -/
def Frame.document : Frame → DocId
  | enter doc => doc
  | drain doc => doc
  | copy doc _ _ => doc

namespace Documentation

/-- The documentation less its first pending link. -/
def dropLink (d : Documentation) : Documentation :=
  { d with pendingLinks := d.pendingLinks.tail }

/-- The documentation less its first request to inherit. -/
def dropInheritDoc (d : Documentation) : Documentation :=
  { d with pendingInheritDocs := d.pendingInheritDocs.tail }

/-- Gives a link a status, wherever it is shown. -/
def settle (link : PendingLink) (status : LinkStatus) (d : Documentation) : Documentation :=
  { d with
    content := d.content.settle link.place status
    settledLinks := d.settledLinks ++ [(link, status)] }

/-- The documentation with a summary that points to the item it cannot inherit from. -/
def pointTo (content : Text) (d : Documentation) : Documentation :=
  { d with content.summary := Element.ofText ("See documentation for ".toList ++ content) }

/-- The documentation in a state. -/
def withState (state : CompletionState) (d : Documentation) : Documentation :=
  { d with state }

/-- How many steps its completion may still take. -/
def workload (d : Documentation) : Nat :=
  2 * d.pendingInheritDocs.length + 2

end Documentation

/-- How many steps all completions together may still take. -/
def Workspace.workload (w : Workspace) : Nat :=
  w.documents.foldr (fun d total => d.workload + total) 0

namespace Action

/-- Looks a link up. A restricted target is reported before the link is settled. -/
def completeLink (id : DocId) (link : PendingLink) : Action Unit := do
  update id Documentation.dropLink
  match ← resolve link.target with
  | none => update id (Documentation.settle link .unresolved)
  | some target =>
    let w ← get
    if w.config.restrictedTags.contains (w.view target).releaseTag then
      report id .restrictedLink
      update id (Documentation.settle link .restricted)
    else update id (Documentation.settle link .resolved)

/-- Looks every pending link up. -/
def completeLinks (id : DocId) : Action Unit := do
  (← document id).pendingLinks.forM (completeLink id)

/-- Inherits from what is known of a target now. -/
def inherit (id : DocId) (target : Target) : Action Unit := do
  let w ← get
  update id (Documentation.inherit (w.view target))

/-- Meets a request to inherit as far as it goes without other work, and says what is left. -/
def meet (id : DocId) (content : Text) : Action (List Frame) := do
  if Text.hasBlank content then
    report id .blankInInheritDoc
    return [.drain id]
  match Reference.parse content with
  | .error e =>
    report id (.inheritDocReference e)
    report id (.malformedInheritDoc content)
    return [.drain id]
  | .ok key =>
    match ← resolve key with
    | none =>
      update id (Documentation.pointTo content)
      return [.drain id]
    | some (.external item) =>
      inherit id (.external item)
      return [.drain id]
    | some (.own kind source) =>
      match (← document source).state with
      | .inProgress =>
        log (.circular (← document id).itemName content)
        report id (.circularInheritDoc content)
        return [.drain id]
      | .unvisited => return [.enter source, .copy id kind source]
      | .done => return [.copy id kind source]

/-- Ends the work on a documentation. -/
def conclude (id : DocId) : Action Unit := do
  let w ← get
  if w.config.enforceInheritedDeprecation && (w.document id).omitsDeprecation then
    report id .deprecationNotRestated
  update id (Documentation.withState .done)

/-- Does a piece of work and says what takes its place on the stack. -/
def advance : Frame → Action (List Frame)
  | .enter id => do
    update id (Documentation.withState .inProgress)
    completeLinks id
    return [.drain id]
  | .drain id => do
    match (← document id).pendingInheritDocs with
    | [] =>
      conclude id
      return []
    | content :: _ =>
      update id Documentation.dropInheritDoc
      meet id content
  | .copy id kind source => do
    inherit id (.own kind source)
    return [.drain id]

/-- Counts everything on a stack as completed. -/
def abandon (stack : List Frame) : Action Unit :=
  stack.forM fun frame => update frame.document (Documentation.withState .done)

/-- Works a stack off, in at most so many steps. -/
def work : Nat → List Frame → Action Unit
  | 0, _ => pure ()
  | _, [] => pure ()
  | steps + 1, frame :: stack => do
    let next ←
      tryCatch (advance frame) fun interruption => do
        abandon (frame :: stack)
        throw interruption
    work steps (next ++ stack)

/-- Completes a documentation, unless that was begun before. Every step ends a documentation, takes
a request off a queue or meets one, so the steps suffice. -/
def complete (id : DocId) : Action Unit := do
  let w ← get
  if (w.document id).state = .unvisited then
    work (w.workload + 1) [.enter id]

/-- Completes every export and every member of one. After that no items may be added. -/
def completeAll : Action Unit := do
  (← get).package.items.forM fun item => complete item.doc
  modify fun w => { w with isComplete := true }

end Action

end ApiDoc
