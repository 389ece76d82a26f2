import ApiDoc.Proofs.Links.Queue
import ApiDoc.Proofs.Stack.Calls
import ApiDoc.Proofs.Workspace.Collected

/-!
# Sessions

A session is any sequence of operations on a package: items are added, items of other packages are
made known, settings change, and documentations are completed, each operation from where the one
before ended or was interrupted (`Session`). The listener may fail at any report.

However a session goes, it leaves nothing in progress (`Session.idle`), and the package is declared
complete if and only if a call for the whole package ended well (`Session.isComplete_iff`). A call
that is interrupted turns exactly the documentations on the stack into completed ones
(`Workspace.Interrupts`). Main statement: `Session.interruption_leaves_nothing_open`.
-/

namespace ApiDoc

open Workspace

/-- An operation on a package. -/
inductive Operation where
  /-- An item is added. -/
  | add (path : List Text) (name : Text) (kind : ItemKind) (comment : Text)
  /-- The items of another package are made known. -/
  | external (package : Text) (items : OrderedMap ResolvedItem)
  /-- The settings are changed. -/
  | configure (config : Config)
  /-- Documentations are completed. -/
  | call (call : Call)

/-- What an operation does. -/
def Operation.perform : Operation → Action Unit
  | add path name kind comment => Action.addItem path name kind comment
  | external package items => Action.addExternal package items
  | configure config => modify fun w => { w with config }
  | call c => c.perform

/-- The operations of a session so far, each with its outcome. -/
abbrev History := List (Operation × Except Interruption Unit)

/-- A session from a package without items: what was done, and the workspace that it led to. -/
inductive Session : History → Workspace → Prop
  /-- Nothing was done. -/
  | start {w : Workspace} (hdocuments : w.documents = #[]) (hexports : w.package.exports = [])
      (hopen : w.isComplete = false) : Session [] w
  /-- One more operation is performed, or interrupted. -/
  | perform {history : History} {w : Workspace} (h : Session history w) (operation : Operation) :
      Session (history ++ [(operation, (operation.perform.run w).1)]) (operation.perform.run w).2

/-- The call for the whole package ended well. -/
def History.Completed (history : History) : Prop :=
  (.call .all, .ok ()) ∈ history

/-- A completion is interrupted after some steps, with a stack that is left and in a workspace in
which exactly the documentations on that stack are in progress. Afterwards exactly these count as
completed. The problem that was being reported is kept with the documentation on top and among the
diagnostics, and what was not entered is as it was before. -/
structure Workspace.Interrupts (w : Workspace) (steps : Trace) (left : List Frame)
    (w₁ w₂ : Workspace) : Prop where
  inProgress : ∀ d, (w₁.document d).state = .inProgress ↔ d ∈ left.map Frame.document
  completed : ∀ d, w₂.document d =
    if d ∈ left.map Frame.document then (w₁.document d).withState .done else w₁.document d
  reported : ∃ frame ∈ left.head?, ReportedLast frame.document w₂ ∧
    (w₂.document frame.document).hasFailed = true
  untouched : ∀ d, steps.entries d = 0 → w₂.document d = w.document d
  isComplete : w₂.isComplete = w.isComplete

section
variable {w w₁ w₂ : Workspace} {history : History} {ids : List DocId} {steps : Trace}
  {left : List Frame} {d : DocId}

/-! ## What is abandoned -/

/-- What counts as completed changes in nothing else. -/
theorem Workspace.abandoned_eq (stack : List Frame) (w : Workspace) :
    w.abandoned stack = { w with documents := (w.abandoned stack).documents } := by
  induction stack generalizing w with
  | nil => rfl
  | cons frame stack ih => exact ih _

theorem Workspace.ReportedLast.abandoned (h : ReportedLast d w) (stack : List Frame) :
    ReportedLast d (w.abandoned stack) := by
  obtain ⟨hfailed, p, hproblem, hdiagnostic⟩ := h
  obtain ⟨hfails, hproblems, hshown⟩ :
      ((w.abandoned stack).document d).hasFailed = (w.document d).hasFailed ∧
      ((w.abandoned stack).document d).problems = (w.document d).problems ∧
      ((w.abandoned stack).document d).diagnostic p = (w.document d).diagnostic p := by
    rw [document_abandoned]
    split <;> exact ⟨rfl, rfl, rfl⟩
  refine ⟨hfails.trans hfailed, p, by rw [hproblems, hproblem], ?_⟩
  rw [hshown, abandoned_eq]
  exact hdiagnostic

/-- Where a call leaves something on the stack, it is interrupted. -/
theorem RunsThrough.interrupts (h : RunsThrough ids w steps left w₁) (hidle : w.Idle)
    (hleft : left ≠ []) : w.Interrupts steps left w₁ (w₁.abandoned left) where
  inProgress := h.inProgress_iff hidle
  completed := document_abandoned left w₁
  reported := by
    obtain ⟨frame, rest, rfl⟩ := List.exists_cons_of_ne_nil hleft
    have hreported := (h.reported hidle rfl).2.abandoned (frame :: rest)
    exact ⟨frame, rfl, hreported, hreported.1⟩
  untouched d hentries := by
    have hsame := (h.accounts hidle).untouched d (hidle d) hentries
    rw [document_abandoned, if_neg, hsame]
    rw [← h.inProgress_iff hidle, hsame]
    exact hidle d
  isComplete := by
    rw [abandoned_eq]
    exact h.isComplete hidle

/-- After an interruption nothing is in progress. -/
theorem Workspace.Interrupts.idle (h : w.Interrupts steps left w₁ w₂) : w₂.Idle := by
  intro d hd
  rw [h.completed] at hd
  split at hd
  · cases hd
  · next hmem => exact hmem ((h.inProgress d).1 hd)

/-- A call ends well, with all that it names completed, or it is interrupted by the listener. -/
theorem Call.run_cases (hidle : w.Idle) (call : Call) :
    (∃ w₁, call.perform.run w = (.ok (), call.finish w₁) ∧ w₁.Idle ∧
      w₁.isComplete = w.isComplete ∧
      ∀ d ∈ call.documents w, (w₁.document d).state = .done) ∨
    ∃ steps left w₁ w₂, call.perform.run w = (.error .listenerFailed, w₂) ∧ ¬ w.Quiet ∧
      RunsThrough (call.documents w) w steps left w₁ ∧ w.Interrupts steps left w₁ w₂ := by
  obtain ⟨steps, left, w₁, hthrough, hrun⟩ := call.exists_runsThrough hidle
  cases left with
  | nil =>
    exact .inl ⟨w₁, hrun, hthrough.idle hidle, hthrough.isComplete hidle,
      fun d hd => hthrough.done_of_mem hidle hd⟩
  | cons frame left =>
    have hinterrupts := hthrough.interrupts hidle (List.cons_ne_nil _ _)
    refine .inr ⟨steps, _, w₁, _, hrun, fun hq => ?_, hthrough, hinterrupts⟩
    cases hthrough.left_eq_nil hidle hq

/-! ## What every operation keeps -/

theorem Workspace.Idle.of_documents_eq (h : w.Idle) (hdocuments : w₁.documents = w.documents) :
    w₁.Idle := by
  intro d
  have hdocument : w₁.document d = w.document d := by rw [document, hdocuments, document]
  rw [hdocument]
  exact h d

/-- A comment that was read adds a documentation that is not begun. -/
theorem Workspace.Idle.register (h : w.Idle) {added : Documentation}
    (hstate : added.state = .unvisited) (path : List Text) (name : Text) (kind : ItemKind) :
    (w.register path name kind added).Idle := by
  intro d hd
  rw [document_register] at hd
  split at hd
  · rw [hstate] at hd
    cases hd
  · exact h d hd

/-- No operation leaves anything in progress, interrupted or not. -/
theorem Operation.idle (hidle : w.Idle) (operation : Operation) :
    (operation.perform.run w).2.Idle := by
  cases operation with
  | external | configure => exact hidle.of_documents_eq rfl
  | add path name kind comment =>
    change ((Action.addItem path name kind comment).run w).2.Idle
    cases hcomplete : w.isComplete with
    | true =>
      rw [Action.run_addItem_of_complete hcomplete]
      exact hidle
    | false =>
      rcases Action.run_addItem_cases hcomplete path name kind comment with
        ⟨e, w₁, hrun, -, hreports⟩ | ⟨added, w₁, hrun, hparse, hreports⟩ <;> rw [hrun]
      · exact hidle.of_documents_eq hreports.documents_eq
      · have hunvisited := (Documentation.wellRead_of_parse hparse).unvisited
        exact (hidle.of_documents_eq hreports.documents_eq).register hunvisited path name kind
  | call c =>
    rcases c.run_cases hidle with ⟨w₁, hrun, hidle₁, -⟩ | ⟨_, _, _, w₂, hrun, -, -, hinterrupts⟩ <;>
      rw [Operation.perform, hrun]
    · exact hidle₁.finish c
    · exact hinterrupts.idle

/-- The package is declared complete by the call for the whole package, if that ends well. -/
theorem Operation.isComplete_iff (hidle : w.Idle) (operation : Operation) :
    (operation.perform.run w).2.isComplete = true ↔ w.isComplete = true ∨
      (operation, (operation.perform.run w).1) = (.call .all, .ok ()) := by
  cases operation with
  | external | configure => simp [Operation.perform, Action.addExternal, Action.run_modify]
  | add path name kind comment =>
    change ((Action.addItem path name kind comment).run w).2.isComplete = true ↔ _
    cases hcomplete : w.isComplete with
    | true => simp [Action.run_addItem_of_complete hcomplete, hcomplete]
    | false =>
      rcases Action.run_addItem_cases hcomplete path name kind comment with
        ⟨e, w₁, hrun, -, _, _, _, rfl⟩ | ⟨added, w₁, hrun, -, _, _, _, rfl⟩ <;>
        simp [hrun, Workspace.register, hcomplete]
  | call c =>
    rcases c.run_cases hidle with ⟨w₁, hrun, -, hopen, -⟩ | ⟨_, _, _, w₂, hrun, -, -, hinterrupts⟩ <;>
      rw [Operation.perform, hrun]
    · cases c <;> simp [Call.finish, hopen]
    · simp [hinterrupts.isComplete]

/-- What is not begun after a call is as it was before, whether the call was interrupted or not. -/
theorem Call.document_eq_of_unvisited (hidle : w.Idle) (call : Call)
    (hstate : ((call.perform.run w).2.document d).state = .unvisited) :
    (call.perform.run w).2.document d = w.document d := by
  obtain ⟨steps, left, w₁, hthrough, hrun⟩ := call.exists_runsThrough hidle
  have hsame : (call.perform.run w).2.document d = w₁.document d := by
    rw [hrun] at hstate ⊢
    dsimp only at hstate ⊢
    split
    · exact call.document_finish w₁ d
    · next hleft =>
      rw [if_neg hleft, document_abandoned] at hstate
      rw [document_abandoned]
      split at hstate
      · cases hstate
      · next hmem => exact if_neg hmem
  rw [hsame] at hstate ⊢
  have haccounts := hthrough.accounts hidle
  have hentries := haccounts.entries d
  rw [if_pos hstate] at hentries
  refine haccounts.untouched d (hidle d) ?_
  split at hentries <;> omega

/-- What is not begun after an operation is as it was before, or a comment as it was read. -/
theorem Operation.unvisited_cases (hidle : w.Idle) (operation : Operation)
    (hstate : ((operation.perform.run w).2.document d).state = .unvisited) :
    (operation.perform.run w).2.document d = w.document d ∨ ∃ around itemName body,
      Documentation.parse around itemName body = .ok ((operation.perform.run w).2.document d) := by
  cases operation with
  | external | configure => exact .inl rfl
  | call call => exact .inl (call.document_eq_of_unvisited hidle hstate)
  | add path name kind comment =>
    rw [Operation.perform]
    cases hcomplete : w.isComplete with
    | true => exact .inl (by rw [Action.run_addItem_of_complete hcomplete])
    | false =>
      rcases Action.run_addItem_cases hcomplete path name kind comment with
        ⟨e, w₁, hrun, -, _, _, _, rfl⟩ | ⟨added, w₁, hrun, hparse, _, _, _, rfl⟩ <;> rw [hrun]
      · exact .inl rfl
      · dsimp only
        rw [document_register]
        split
        · exact .inr ⟨_, _, _, hparse⟩
        · exact .inl rfl

/-! ## Sessions -/

namespace Session

/-- A session leaves nothing in progress. -/
theorem idle (h : Session history w) : w.Idle := by
  induction h with
  | start hdocuments =>
    intro d hd
    have hlt := lt_size_of_state_ne (by rw [hd]; decide)
    rw [hdocuments] at hlt
    cases hlt
  | perform _ operation ih => exact operation.idle ih

/-- In a session what is not begun is a comment as it was read. -/
theorem exists_parse (h : Session history w) (hstate : (w.document d).state = .unvisited) :
    ∃ around itemName body, Documentation.parse around itemName body = .ok (w.document d) := by
  induction h with
  | start hdocuments =>
    have hlt := lt_size_of_state_ne (by rw [hstate]; decide)
    rw [hdocuments] at hlt
    cases hlt
  | perform h operation ih =>
    rcases operation.unvisited_cases h.idle hstate with hsame | hread
    · rw [hsame] at hstate ⊢
      exact ih hstate
    · exact hread

/-- A package is declared complete if and only if a call for the whole package ended well. -/
theorem isComplete_iff (h : Session history w) : w.isComplete = true ↔ history.Completed := by
  induction h with
  | start _ _ hopen => simp [hopen, History.Completed]
  | perform h operation ih =>
    rw [operation.isComplete_iff h.idle, ih, History.Completed, History.Completed,
      List.mem_append, List.mem_singleton, eq_comm (b := (Operation.call .all, _))]

/-- After a session an item may be added unless a call for the whole package ended well. -/
theorem addItem_refused_iff (h : Session history w) (path : List Text) (name : Text)
    (kind : ItemKind) (comment : Text) :
    ((Action.addItem path name kind comment).run w).1 = .error .alreadyComplete ↔
      history.Completed := by
  rw [← h.isComplete_iff]
  cases hcomplete : w.isComplete with
  | true => simp [Action.run_addItem_of_complete hcomplete]
  | false =>
    rcases Action.run_addItem_cases hcomplete path name kind comment with
      ⟨e, w₁, hrun, he, -⟩ | ⟨added, w₁, hrun, -⟩ <;> rw [hrun]
    · simpa using he
    · simp

/-- However a session goes, and whatever reports the listener fails at, nothing is in progress
afterwards. If a call for completion is then interrupted, it is by the listener, and exactly the
documentations on the stack turn into completed ones, with the problem being reported kept. Items
may be added unless a call for the whole package ended well. And a call for the whole package
completes every item if it is not interrupted, as it is not by a patient listener. -/
theorem interruption_leaves_nothing_open (h : Session history w) : w.Idle ∧
    (∀ (call : Call) e w₂, call.perform.run w = (.error e, w₂) → e = .listenerFailed ∧
      ∃ steps left w₁, RunsThrough (call.documents w) w steps left w₁ ∧
        w.Interrupts steps left w₁ w₂) ∧
    (∀ path name kind comment,
      ((Action.addItem path name kind comment).run w).1 = .error .alreadyComplete ↔
        history.Completed) ∧
    ∀ outcome w₁, Action.completeAll.run w = (outcome, w₁) →
      (w.Quiet → outcome = .ok ()) ∧
      (outcome = .ok () → ∀ item ∈ w.package.items, (w₁.document item.doc).state = .done) := by
  refine ⟨h.idle, fun call e w₂ hrun => ?_, h.addItem_refused_iff, fun outcome w₁ hrun => ?_⟩
  · rcases call.run_cases h.idle with ⟨w₁, hrun₁, -⟩ | ⟨steps, left, w₁, w₂', hrun₁, -, hrest⟩
    · cases hrun.symm.trans hrun₁
    · cases hrun.symm.trans hrun₁
      exact ⟨rfl, steps, left, w₁, hrest⟩
  · rcases Call.run_cases h.idle .all with
      ⟨w₂, hrun₁, -, -, hdone⟩ | ⟨_, _, _, w₂, hrun₁, hloud, -⟩
    · cases hrun.symm.trans hrun₁
      exact ⟨fun _ => rfl, fun _ item hitem => hdone item.doc (List.mem_map_of_mem hitem)⟩
    · cases hrun.symm.trans hrun₁
      exact ⟨fun hq => absurd hq hloud, nofun⟩

end Session

/-- Two functions that inherit from each other, and a listener that fails at the first report. -/
def Workspace.brittlePair : Workspace :=
  let w : Workspace :=
    { package := { name := some "p".toList }
      identity := some { scope := [], name := "p".toList }
      config := {}
      faults := [true] }
  let w₁ :=
    ((Operation.add [] "f".toList .function "\x7b@inheritdoc g\x7d".toList).perform.run w).2
  ((Operation.add [] "g".toList .function "\x7b@inheritdoc f\x7d".toList).perform.run w₁).2

theorem Session.brittlePair_leaves_nothing_open :
    ∃ history, Session history brittlePair ∧ brittlePair.Idle ∧
      ∃ w₂, (Call.item 0).perform.run brittlePair = (.error .listenerFailed, w₂) ∧
        ∃ steps left w₁, RunsThrough [0] brittlePair steps left w₁ ∧
          brittlePair.Interrupts steps left w₁ w₂ := by
  have hsession : Session _ brittlePair :=
    ((Session.start rfl rfl rfl).perform (.add [] "f".toList .function _)).perform
      (.add [] "g".toList .function _)
  have hfails : ((Call.item 0).perform.run brittlePair).1 = .error .listenerFailed := by cbv
  obtain ⟨hidle, hinterrupts, -⟩ := interruption_leaves_nothing_open hsession
  obtain ⟨-, hrest⟩ := hinterrupts (.item 0) _ _ (Prod.ext hfails rfl)
  exact ⟨_, hsession, hidle, _, Prod.ext hfails rfl, hrest⟩

end

end ApiDoc
