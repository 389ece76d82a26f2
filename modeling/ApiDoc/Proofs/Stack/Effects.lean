import ApiDoc.Proofs.Workspace.Collected

/-!
# Work that may be interrupted

What a piece of work does where the listener may fail. Work on a documentation changes that one
only and leaves it in progress, and it is interrupted by the listener only, once the report is kept
(`Action.WorksOn`). So there are two outcomes of a step of the stack: it is done, and something
takes its place (`Workspace.Advances`), or it is interrupted while its documentation is in progress
(`Workspace.Breaks`). Main statement: `Action.advance_outcome`.
-/

namespace ApiDoc

open Workspace

namespace Workspace

/-- What was reported last is a problem of a documentation, which has failed: it is the last one of
its problems, and its diagnostic is the last one of all. -/
def ReportedLast (id : DocId) (w : Workspace) : Prop :=
  (w.document id).hasFailed = true ∧ ∃ p, (w.document id).problems.getLast? = some p ∧
    w.diagnostics.getLast? = some ((w.document id).diagnostic p)

/-- The second workspace is the first after some work on a documentation whose completion goes on:
no other one is changed, and its requests are still to be met. -/
structure Works (id : DocId) (w w₁ : Workspace) : Prop where
  touches : Touches id (fun _ => w₁.document id) w w₁
  state : (w₁.document id).state = (w.document id).state
  requests : (w₁.document id).pendingInheritDocs = (w.document id).pendingInheritDocs
  isComplete : w₁.isComplete = w.isComplete

end Workspace

namespace Frame

/-- The state in which a piece of work finds its documentation. -/
def state : Frame → CompletionState
  | enter _ => .unvisited
  | drain _ | copy _ _ _ => .inProgress

/-- The request to inherit that a piece of work meets. -/
def request? (w : Workspace) : Frame → Option Text
  | drain id => (w.document id).pendingInheritDocs.head?
  | enter _ | copy _ _ _ => none

/-- What takes the place of a piece of work on the stack, from the workspaces before and after it. A
documentation is completed once it has no requests left. -/
inductive GoesOn (w w₁ : Workspace) : Frame → List Frame → Prop
  | enter (id : DocId) : GoesOn w w₁ (enter id) [drain id]
  | conclude {id : DocId} (hpending : (w.document id).pendingInheritDocs = []) :
      GoesOn w w₁ (drain id) []
  | answer {id : DocId} (hpending : (w.document id).pendingInheritDocs ≠ []) :
      GoesOn w w₁ (drain id) [drain id]
  | force {id source : DocId} (hpending : (w.document id).pendingInheritDocs ≠ [])
      (kind : ItemKind) (hstate : (w₁.document source).state = .unvisited) :
      GoesOn w w₁ (drain id) [enter source, copy id kind source]
  | reuse {id : DocId} (hpending : (w.document id).pendingInheritDocs ≠ []) (kind : ItemKind)
      (source : DocId) : GoesOn w w₁ (drain id) [copy id kind source]
  | copy (id : DocId) (kind : ItemKind) (source : DocId) :
      GoesOn w w₁ (copy id kind source) [drain id]

end Frame

namespace Workspace

/-- What a piece of work changes, interrupted or not: its documentation, and of the queue of
requests there the one that it meets. -/
structure Acts (frame : Frame) (w w₁ : Workspace) : Prop where
  touches : Touches frame.document (fun _ => w₁.document frame.document) w w₁
  requests : (w.document frame.document).pendingInheritDocs =
    (frame.request? w).toList ++ (w₁.document frame.document).pendingInheritDocs
  isComplete : w₁.isComplete = w.isComplete

/-- A piece of work is done: its documentation is in progress, or completed if nothing takes its
place. -/
structure Advances (frame : Frame) (next : List Frame) (w w₁ : Workspace) : Prop
    extends Acts frame w w₁ where
  goesOn : frame.GoesOn w w₁ next
  state : (w₁.document frame.document).state = if next = [] then .done else .inProgress

/-- A piece of work is interrupted: its documentation is in progress, and the report that the
listener failed at is kept. -/
structure Breaks (frame : Frame) (w w₁ : Workspace) : Prop extends Acts frame w w₁ where
  state : (w₁.document frame.document).state = .inProgress
  reported : ReportedLast frame.document w₁
  loud : ¬ w.Quiet

end Workspace

/-- What may come of a step of the stack. -/
inductive Action.AdvanceOutcome (frame : Frame) (w : Workspace) : Prop
  /-- It is done. -/
  | done {next : List Frame} {w₁ : Workspace} (hrun : (advance frame).run w = (.ok next, w₁))
      (hadvances : Advances frame next w w₁)
  /-- The listener interrupts it. -/
  | broken {w₁ : Workspace} (hrun : (advance frame).run w = (.error .listenerFailed, w₁))
      (hbreaks : Breaks frame w w₁)

/-- An action works on a documentation, interrupted or not. It is interrupted by the listener only,
and then the report that the listener failed at is kept. -/
def Action.WorksOn {α : Type} (id : DocId) (x : Action α) : Prop :=
  ∀ w : Workspace, id < w.documents.size → Works id w (x.run w).2 ∧
    ∀ e, (x.run w).1 = .error e →
      e = .listenerFailed ∧ ¬ w.Quiet ∧ ReportedLast id (x.run w).2

section
variable {w w₁ w₂ : Workspace} {id source : DocId} {kind : ItemKind} {content : Text}
  {f : Documentation → Documentation} {frame : Frame} {next : List Frame} {e : Interruption}

/-! ## Work on one documentation -/

/-- A change to one documentation puts another one in its place. -/
theorem Workspace.Touches.const (h : Touches id f w w₁) :
    Touches id (fun _ => w₁.document id) w w₁ := by
  rcases Nat.lt_or_ge id w.documents.size with hlt | hge
  · exact h.congr (h.document_self hlt).symm
  · refine ⟨?_, h.setting, h.quiet⟩
    rw [h.documents]
    refine Array.ext (by simp) fun i h₁ h₂ => ?_
    have hlt : i < w.documents.size := by simpa using h₁
    have hne : id ≠ i := Nat.ne_of_gt (Nat.lt_of_lt_of_le hlt hge)
    simp only [Array.getElem_modify, if_neg hne]

namespace Workspace.Works

theorem of_touches (h : Touches id f w w₁) (hstate : ∀ d, (f d).state = d.state)
    (hrequests : ∀ d, (f d).pendingInheritDocs = d.pendingInheritDocs)
    (hcomplete : w₁.isComplete = w.isComplete) : Works id w w₁ where
  touches := h.const
  state := h.document_keeps hstate id
  requests := h.document_keeps hrequests id
  isComplete := hcomplete

theorem refl (id : DocId) (w : Workspace) : Works id w w :=
  .of_touches (touches_of_documents_eq id rfl rfl rfl) (fun _ => rfl) (fun _ => rfl) rfl

theorem trans (h₁ : Works id w w₁) (h₂ : Works id w₁ w₂) : Works id w w₂ where
  touches := h₁.touches.trans h₂.touches
  state := h₂.state.trans h₁.state
  requests := h₂.requests.trans h₁.requests
  isComplete := h₂.isComplete.trans h₁.isComplete

end Workspace.Works

namespace Action

/-- An action that ends well has a first part that does. -/
theorem exists_of_run_bind {α β : Type} {x : Action α} {g : α → Action β} {b : β}
    (h : (x >>= g).run w = (.ok b, w₂)) :
    ∃ a w₁, x.run w = (.ok a, w₁) ∧ (g a).run w₁ = (.ok b, w₂) := by
  rw [run_bind] at h
  rcases hrun : x.run w with ⟨e | a, w₁⟩ <;> rw [hrun] at h
  · cases h
  · exact ⟨a, w₁, rfl, h⟩

/-- A report is kept whether the listener fails or not. -/
theorem run_report_eq (id : DocId) (p : Problem) (w : Workspace) :
    (report id p).run w =
      (if w.faults.head?.getD false then .error .listenerFailed else .ok (), w.reported id p) := by
  unfold report announce listen
  rw [run_bind_ok (run_update ..), run_bind_ok (run_document ..), run_bind_ok (run_log ..),
    run_bind_ok (run_modify ..), run_bind_ok (run_get _)]
  by_cases hfails : w.faults.head?.getD false = true <;>
    simp only [Workspace.logged, Workspace.updateDocument, hfails] <;> rfl

theorem reportedLast_reported (hid : id < w.documents.size) (p : Problem) :
    ReportedLast id (w.reported id p) := by
  have hdocument := (touches_reported id p w).document_self hid
  have hupdated := (touches_update id (Documentation.report p) w).document_self hid
  refine ⟨by rw [hdocument]; rfl, p, ?_, ?_⟩
  · rw [hdocument]
    exact List.getLast?_concat ..
  · have hdiagnostics : (w.reported id p).diagnostics =
        w.diagnostics ++ [((w.document id).report p).diagnostic p] := by
      rw [← hupdated]
      rfl
    rw [hdiagnostics, hdocument]
    exact List.getLast?_concat ..

namespace WorksOn
variable {α β : Type} {x : Action α}

theorem of_run_ok (h : ∀ w, ∃ a w₁, x.run w = (.ok a, w₁) ∧ Works id w w₁) : WorksOn id x := by
  intro w _
  obtain ⟨a, w₁, hrun, hworks⟩ := h w
  rw [hrun]
  exact ⟨hworks, nofun⟩

/-- An action that only looks things up. -/
theorem of_reads (h : ∀ w, ∃ a, x.run w = (.ok a, w)) : WorksOn id x :=
  .of_run_ok fun w => (h w).imp fun _ hrun => ⟨w, hrun, .refl id w⟩

theorem pure (a : α) : WorksOn id (pure a : Action α) :=
  .of_reads fun _ => ⟨a, rfl⟩

theorem bind {g : α → Action β} (hx : WorksOn id x) (hg : ∀ a, WorksOn id (g a)) :
    WorksOn id (x >>= g) := by
  intro w hid
  obtain ⟨hworks, hbreaks⟩ := hx w hid
  rw [run_bind]
  rcases hrun : x.run w with ⟨e | a, w₁⟩ <;> rw [hrun] at hworks hbreaks
  · exact ⟨hworks, fun e' heq => hbreaks e' (by cases heq; rfl)⟩
  · obtain ⟨hworks₁, hbreaks₁⟩ := hg a w₁ (hworks.touches.size ▸ hid)
    refine ⟨hworks.trans hworks₁, fun e he => ?_⟩
    obtain ⟨heq, hloud, hlast⟩ := hbreaks₁ e he
    exact ⟨heq, fun hq => hloud (hworks.touches.quiet hq), hlast⟩

theorem update (hstate : ∀ d, (f d).state = d.state)
    (hrequests : ∀ d, (f d).pendingInheritDocs = d.pendingInheritDocs) :
    WorksOn id (update id f) :=
  .of_run_ok fun w =>
    ⟨(), _, run_update .., .of_touches (touches_update id f w) hstate hrequests rfl⟩

theorem log (entry : LogEntry) : WorksOn id (log entry) :=
  .of_run_ok fun w => ⟨(), _, run_log ..,
    .of_touches (touches_logged id entry w) (fun _ => rfl) (fun _ => rfl) rfl⟩

theorem resolve (key : ItemKey) : WorksOn id (resolve key) := by
  refine .of_run_ok fun w => ?_
  have hrun := run_resolve key w
  cases hlookUp : w.lookUp key with
  | found target =>
    rw [hlookUp] at hrun
    exact ⟨_, _, hrun, .refl id w⟩
  | missing warning =>
    rw [hlookUp] at hrun
    refine ⟨_, _, hrun, .of_touches (touches_warned id warning w) (fun _ => rfl) (fun _ => rfl) ?_⟩
    cases warning <;> rfl

theorem report (p : Problem) : WorksOn id (report id p) := by
  intro w hid
  rw [run_report_eq]
  refine ⟨.of_touches (touches_reported id p w) (fun _ => rfl) (fun _ => rfl) rfl, fun e he => ?_⟩
  split at he
  · next hfails =>
    cases he
    refine ⟨rfl, fun hq => hq ?_, reportedLast_reported hid p⟩
    cases hfaults : w.faults with
    | nil =>
      rw [hfaults] at hfails
      cases hfails
    | cons fails faults =>
      rw [hfaults] at hfails
      exact hfails ▸ List.mem_cons_self
  · cases he

theorem forM {g : α → Action Unit} (hg : ∀ a, WorksOn id (g a)) (as : List α) :
    WorksOn id (as.forM g) := by
  induction as with
  | nil => exact .pure ()
  | cons a as ih => exact .bind (hg a) fun _ => ih

theorem completeLink (link : PendingLink) : WorksOn id (completeLink id link) := by
  have hsettle (status : LinkStatus) : WorksOn id (Action.update id (.settle link status)) :=
    .update (fun _ => rfl) fun _ => rfl
  refine .bind (.update (fun _ => rfl) fun _ => rfl) fun _ => .bind (.resolve _) fun target => ?_
  cases target with
  | none => exact hsettle _
  | some target =>
    refine .bind (.of_reads fun w => ⟨w, rfl⟩) fun w => ?_
    split
    · exact .bind (.report _) fun _ => hsettle _
    · exact hsettle _

theorem completeLinks : WorksOn id (completeLinks id) :=
  .bind (.of_reads fun w => ⟨_, run_document id w⟩) fun _ => .forM .completeLink _

theorem inherit (target : Target) : WorksOn id (inherit id target) :=
  .bind (.of_reads fun w => ⟨w, rfl⟩) fun _ => .update (fun _ => rfl) fun _ => rfl

theorem meet (content : Text) : WorksOn id (meet id content) := by
  unfold Action.meet
  split
  · exact .bind (.report _) fun _ => .pure _
  · split
    · exact .bind (.report _) fun _ => .bind (.report _) fun _ => .pure _
    · refine .bind (.resolve _) fun target => ?_
      rcases target with _ | ⟨kind, source⟩ | item
      · exact .bind (.update (fun _ => rfl) fun _ => rfl) fun _ => .pure _
      · refine .bind (.of_reads fun w => ⟨_, run_document source w⟩) fun d => ?_
        cases d.state with
        | unvisited | done => exact .pure _
        | inProgress =>
          exact .bind (.of_reads fun w => ⟨_, run_document id w⟩) fun _ =>
            .bind (.log _) fun _ => .bind (.report _) fun _ => .pure _
      · exact .bind (.inherit _) fun _ => .pure _

end WorksOn

/-! ## One step of the stack -/

theorem goesOn_of_run_meet (h : (meet id content).run w = (.ok next, w₁)) {w₀ : Workspace}
    (hpending : (w₀.document id).pendingInheritDocs ≠ []) :
    next ≠ [] ∧ Frame.GoesOn w₀ w₁ (.drain id) next := by
  unfold meet at h
  split at h
  · obtain ⟨_, _, -, h⟩ := exists_of_run_bind h
    cases h
    exact ⟨List.cons_ne_nil _ _, .answer hpending⟩
  · split at h
    · obtain ⟨_, _, -, h⟩ := exists_of_run_bind h
      obtain ⟨_, _, -, h⟩ := exists_of_run_bind h
      cases h
      exact ⟨List.cons_ne_nil _ _, .answer hpending⟩
    · obtain ⟨target, _, -, h⟩ := exists_of_run_bind h
      rcases target with _ | ⟨kind, source⟩ | item
      · obtain ⟨_, _, -, h⟩ := exists_of_run_bind h
        cases h
        exact ⟨List.cons_ne_nil _ _, .answer hpending⟩
      · dsimp only at h
        rw [run_bind_ok (run_document ..)] at h
        split at h
        · obtain ⟨_, _, -, h⟩ := exists_of_run_bind h
          obtain ⟨_, _, -, h⟩ := exists_of_run_bind h
          obtain ⟨_, _, -, h⟩ := exists_of_run_bind h
          cases h
          exact ⟨List.cons_ne_nil _ _, .answer hpending⟩
        · next hstate =>
          cases h
          exact ⟨List.cons_ne_nil _ _, .force hpending kind hstate⟩
        · cases h
          exact ⟨List.cons_ne_nil _ _, .reuse hpending kind source⟩
      · obtain ⟨_, _, -, h⟩ := exists_of_run_bind h
        cases h
        exact ⟨List.cons_ne_nil _ _, .answer hpending⟩

/-- The end of the work on a documentation: what may be interrupted comes before the documentation
is completed. -/
theorem run_conclude_cases (hid : id < w.documents.size) :
    (∃ w₂, Works id w w₂ ∧
      (conclude id).run w = (.ok (), w₂.updateDocument id (Documentation.withState .done))) ∨
    ∃ w₂, Works id w w₂ ∧ (conclude id).run w = (.error .listenerFailed, w₂) ∧ ¬ w.Quiet ∧
      ReportedLast id w₂ := by
  unfold conclude
  rw [run_bind_ok (run_get w)]
  split
  · obtain ⟨hworks, hbreaks⟩ := WorksOn.report .deprecationNotRestated w hid
    rcases hrun : (report id .deprecationNotRestated).run w with ⟨e | a, w₂⟩ <;>
      rw [hrun] at hworks hbreaks
    · obtain ⟨rfl, hloud, hlast⟩ := hbreaks e rfl
      refine .inr ⟨w₂, hworks, ?_, hloud, hlast⟩
      rw [run_bind, hrun]
    · exact .inl ⟨w₂, hworks, by rw [run_bind_ok hrun, run_update]⟩
  · exact .inl ⟨w, .refl id w, run_update ..⟩

theorem advance_enter (hstate : (w.document id).state = .unvisited) :
    AdvanceOutcome (.enter id) w := by
  have hid : id < w.documents.size := lt_size_of_state_ne (by rw [hstate]; decide)
  have hbegun := touches_update id (Documentation.withState .inProgress) w
  have hdocument := hbegun.document_self hid
  have hadvance : (advance (.enter id)).run w =
      (completeLinks id >>= fun _ => (pure [.drain id] : Action (List Frame))).run
        (w.updateDocument id (.withState .inProgress)) := by
    unfold advance
    rw [run_bind_ok (run_update ..)]
  obtain ⟨hworks, hbreaks⟩ :=
    WorksOn.completeLinks (w.updateDocument id (.withState .inProgress)) (hbegun.size ▸ hid)
  have hactive := hworks.state.trans (congrArg Documentation.state hdocument)
  have hacts : Acts (.enter id) w _ := ⟨hbegun.trans hworks.touches,
    (congrArg Documentation.pendingInheritDocs hdocument).symm.trans hworks.requests.symm,
    hworks.isComplete⟩
  rcases hrun : (completeLinks id).run _ with ⟨e | a, w₁⟩ <;>
    rw [hrun] at hworks hbreaks hactive hacts
  · obtain ⟨rfl, hloud, hlast⟩ := hbreaks e rfl
    exact .broken (by rw [hadvance, run_bind, hrun]) ⟨hacts, hactive, hlast, hloud⟩
  · exact .done (hadvance.trans (run_bind_ok hrun)) ⟨hacts, .enter id, hactive⟩

theorem advance_drain_nil (hstate : (w.document id).state = .inProgress)
    (hpending : (w.document id).pendingInheritDocs = []) : AdvanceOutcome (.drain id) w := by
  have hid : id < w.documents.size := lt_size_of_state_ne (by rw [hstate]; decide)
  have hadvance : (advance (.drain id)).run w =
      (conclude id >>= fun _ => (pure [] : Action (List Frame))).run w := by
    unfold advance
    rw [run_bind_ok (run_document ..)]
    simp only [hpending]
  rcases run_conclude_cases hid with ⟨w₂, hworks, hrun⟩ | ⟨w₂, hworks, hrun, hloud, hlast⟩
  · have hdone := touches_update id (Documentation.withState .done) w₂
    have hdocument := hdone.document_self (hworks.touches.size ▸ hid)
    refine .done (hadvance.trans (run_bind_ok hrun)) ⟨⟨(hworks.touches.trans hdone).const, ?_,
      hworks.isComplete⟩, .conclude hpending, congrArg Documentation.state hdocument⟩
    rw [Frame.document, hdocument, Frame.request?, hpending]
    exact (hworks.requests.trans hpending).symm
  · refine .broken (by rw [hadvance, run_bind, hrun]) ⟨⟨hworks.touches, ?_, hworks.isComplete⟩,
      hworks.state.trans hstate, hlast, hloud⟩
    rw [Frame.document, Frame.request?, hworks.requests, hpending]
    rfl

theorem advance_drain_cons {rest : List Text} (hstate : (w.document id).state = .inProgress)
    (hpending : (w.document id).pendingInheritDocs = content :: rest) :
    AdvanceOutcome (.drain id) w := by
  have hpopped := touches_popped w id
  have hadvance := run_advance_drain_cons hpending
  obtain ⟨hworks, hbreaks⟩ :=
    WorksOn.meet content (w.popped id) (hpopped.size ▸ lt_size_of_pending hpending)
  have hactive := hworks.state.trans ((state_popped w id id).trans hstate)
  have hacts : Acts (.drain id) w _ := ⟨hpopped.trans hworks.touches, by
    rw [Frame.document, hworks.requests, pendingInheritDocs_popped hpending, Frame.request?,
      hpending]
    rfl, hworks.isComplete⟩
  rcases hrun : (meet id content).run (w.popped id) with ⟨e | next, w₁⟩ <;>
    rw [hrun] at hworks hbreaks hactive hacts
  · obtain ⟨rfl, hloud, hlast⟩ := hbreaks e rfl
    exact .broken (hadvance.trans hrun) ⟨hacts, hactive, hlast, hloud⟩
  · obtain ⟨hne, hgoesOn⟩ := goesOn_of_run_meet hrun
      (show (w.document id).pendingInheritDocs ≠ [] by simp [hpending])
    exact .done (hadvance.trans hrun) ⟨hacts, hgoesOn, by rw [if_neg hne]; exact hactive⟩

/-- A piece of work that finds its documentation as it must be is done, or the listener interrupts
it. -/
theorem advance_outcome (hstate : (w.document frame.document).state = frame.state) :
    AdvanceOutcome frame w := by
  cases frame with
  | enter id => exact advance_enter hstate
  | drain id =>
    cases hpending : (w.document id).pendingInheritDocs with
    | nil => exact advance_drain_nil hstate hpending
    | cons content rest => exact advance_drain_cons hstate hpending
  | copy id kind source =>
    have hcopied := touches_copied w id kind source
    refine .done (run_advance_copy id kind source w)
      ⟨⟨hcopied.const, ?_, rfl⟩, .copy id kind source, ?_⟩
    · exact (pendingInheritDocs_copied w id kind source id).symm
    · exact (state_copied w id kind source id).trans hstate

end Action

end

end ApiDoc
