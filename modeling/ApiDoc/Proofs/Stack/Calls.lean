import ApiDoc.Proofs.Stack.Runs
import ApiDoc.Proofs.Completion.Calls

/-!
# Runs of calls

A call completes the documentations that it names one after the other, each by a run of the stack,
until the listener fails (`RunsThrough`). The call ends well if nothing is left on the stack, and
else what is left counts as completed (`Call.exists_runsThrough`). Calls with a patient listener are
such runs one after the other (`RunsCalls`, `Action.exists_runsCalls`).
-/

namespace ApiDoc

open Workspace

/-- The listed documentations are completed in order, each by a run unless it was begun before, with
these steps; what is left on the stack is nothing, or what is there when the listener fails. -/
inductive RunsThrough : List DocId → Workspace → Trace → List Frame → Workspace → Prop
  | nil {w : Workspace} : RunsThrough [] w [] [] w
  | skip {id : DocId} {ids : List DocId} {w w₁ : Workspace} {steps : Trace} {left : List Frame}
      (hstate : (w.document id).state ≠ .unvisited) (hrest : RunsThrough ids w steps left w₁) :
      RunsThrough (id :: ids) w steps left w₁
  | enter {id : DocId} {ids : List DocId} {w w₁ w₂ : Workspace} {steps steps₁ : Trace}
      {left : List Frame} (hstate : (w.document id).state = .unvisited)
      (hruns : Runs [.enter id] w steps [] w₁) (hrest : RunsThrough ids w₁ steps₁ left w₂) :
      RunsThrough (id :: ids) w (steps ++ steps₁) left w₂
  | broken {id : DocId} {ids : List DocId} {w w₁ : Workspace} {steps : Trace} {left : List Frame}
      (hstate : (w.document id).state = .unvisited) (hruns : Runs [.enter id] w steps left w₁)
      (hleft : left ≠ []) : RunsThrough (id :: ids) w steps left w₁

/-- What a call does beyond the documentations that it names: after the call for the whole package
that is declared complete. -/
def Call.finish : Call → Workspace → Workspace
  | item _, w => w
  | all, w => { w with isComplete := true }

/-- Calls that are not interrupted, one after the other, with the steps of their runs. -/
inductive RunsCalls : List Call → Workspace → Trace → Workspace → Prop
  | nil {w : Workspace} : RunsCalls [] w [] w
  | cons {call : Call} {calls : List Call} {w w₁ w₂ : Workspace} {steps steps₁ : Trace}
      (hcall : RunsThrough (call.documents w) w steps [] w₁)
      (hrest : RunsCalls calls (call.finish w₁) steps₁ w₂) :
      RunsCalls (call :: calls) w (steps ++ steps₁) w₂

/-- No documentation is in progress. -/
def Workspace.Idle (w : Workspace) : Prop :=
  ∀ d, (w.document d).state ≠ .inProgress

section
variable {w w₁ w₂ : Workspace} {id d : DocId} {ids : List DocId} {frame : Frame}
  {stack left : List Frame} {steps steps₁ : Trace} {call : Call} {calls : List Call}

theorem Workspace.Fresh.idle (h : w.Fresh) : w.Idle := by
  intro d hd
  rw [h d (lt_size_of_state_ne (by rw [hd]; decide))] at hd
  cases hd

theorem Workspace.Idle.stacked (h : w.Idle) (hstate : (w.document id).state = .unvisited) :
    w.Stacked [.enter id] :=
  (stacked_nil h).push nofun hstate

/-- What was begun stays begun. -/
theorem Trace.Accounts.begun (h : steps.Accounts w w₁) (hd : (w.document d).state ≠ .unvisited) :
    (w₁.document d).state ≠ .unvisited := by
  have hentries := h.entries d
  rw [if_neg hd] at hentries
  intro hstate
  rw [if_pos hstate] at hentries
  omega

namespace Runs

/-- A run that is worked off leaves nothing in progress. -/
theorem idle (h : Runs stack w steps [] w₁) (hstacked : w.Stacked stack) : w₁.Idle := fun d hd =>
  List.not_mem_nil ((h.inProgress_iff hstacked d).1 hd)

theorem quiet (h : Runs stack w steps left w₁) (hstacked : w.Stacked stack) (hq : w.Quiet) :
    w₁.Quiet := by
  induction h with
  | done => exact hq
  | broken hrun => exact absurd hq (hstacked.breaks hrun).loud
  | step hrun _ ih =>
    have hadvances := hstacked.advances hrun
    exact ih (hstacked.goesOn hadvances) (hadvances.touches.quiet hq)

/-- The documentation that is entered first is begun. -/
theorem begun (h : Runs (.enter id :: stack) w steps left w₁)
    (hstacked : w.Stacked (.enter id :: stack)) : (w₁.document id).state ≠ .unvisited := by
  cases h with
  | broken hrun =>
    have hstate := (hstacked.breaks hrun).state
    rw [Frame.document] at hstate
    rw [hstate]
    decide
  | step hrun hrest =>
    have hadvances := hstacked.advances hrun
    have hstate := hadvances.state
    rw [Frame.document] at hstate
    refine (hrest.accounts (hstacked.goesOn hadvances)).begun ?_
    rw [hstate]
    split <;> decide

end Runs

/-! ## Listed documentations -/

namespace RunsThrough

theorem accounts (h : RunsThrough ids w steps left w₁) (hidle : w.Idle) :
    steps.Accounts w w₁ := by
  induction h with
  | nil => exact .refl _
  | skip _ _ ih => exact ih hidle
  | enter hstate hruns _ ih =>
    have hstacked := hidle.stacked hstate
    exact (hruns.accounts hstacked).trans (ih (hruns.idle hstacked))
  | broken hstate hruns _ => exact hruns.accounts (hidle.stacked hstate)

theorem isComplete (h : RunsThrough ids w steps left w₁) (hidle : w.Idle) :
    w₁.isComplete = w.isComplete := by
  induction h with
  | nil => rfl
  | skip _ _ ih => exact ih hidle
  | enter hstate hruns _ ih =>
    have hstacked := hidle.stacked hstate
    exact (ih (hruns.idle hstacked)).trans (hruns.isComplete hstacked)
  | broken hstate hruns _ => exact hruns.isComplete (hidle.stacked hstate)

theorem length_add_potential_le (h : RunsThrough ids w steps left w₁) (hidle : w.Idle) :
    steps.length + w₁.potential ≤ w.potential := by
  induction h with
  | nil => simp
  | skip _ _ ih => exact ih hidle
  | enter hstate hruns _ ih =>
    have hstacked := hidle.stacked hstate
    have hlength := hruns.length_add_potential_le hstacked
    have hrest := ih (hruns.idle hstacked)
    simp only [Frame.weights_enter, List.length_append] at hlength ⊢
    omega
  | broken hstate hruns _ => exact hruns.length_add_potential_le (hidle.stacked hstate)

/-- What is in progress at the end is what is left on the stack. -/
theorem inProgress_iff (h : RunsThrough ids w steps left w₁) (hidle : w.Idle) (d : DocId) :
    (w₁.document d).state = .inProgress ↔ d ∈ left.map Frame.document := by
  induction h with
  | nil => exact ⟨fun hd => absurd hd (hidle d), nofun⟩
  | skip _ _ ih => exact ih hidle
  | enter hstate hruns _ ih => exact ih (hruns.idle (hidle.stacked hstate))
  | broken hstate hruns _ => exact hruns.inProgress_iff (hidle.stacked hstate) d

theorem idle (h : RunsThrough ids w steps [] w₁) (hidle : w.Idle) : w₁.Idle := fun d hd =>
  List.not_mem_nil ((h.inProgress_iff hidle d).1 hd)

/-- If something is left, the listener failed at a report about the documentation on top. -/
theorem reported (h : RunsThrough ids w steps left w₁) (hidle : w.Idle)
    (hleft : frame ∈ left.head?) : ¬ w.Quiet ∧ ReportedLast frame.document w₁ := by
  induction h with
  | nil => cases hleft
  | skip _ _ ih => exact ih hidle hleft
  | enter hstate hruns _ ih =>
    have hstacked := hidle.stacked hstate
    obtain ⟨hloud, hreported⟩ := ih (hruns.idle hstacked) hleft
    exact ⟨fun hq => hloud (hruns.quiet hstacked hq), hreported⟩
  | broken hstate hruns _ => exact hruns.reported (hidle.stacked hstate) hleft

/-- Where the listener does not fail, nothing is left. -/
theorem left_eq_nil (h : RunsThrough ids w steps left w₁) (hidle : w.Idle) (hq : w.Quiet) :
    left = [] := by
  cases hleft : left with
  | nil => rfl
  | cons frame rest => exact absurd hq (h.reported hidle (by rw [hleft]; rfl)).1

theorem quiet (h : RunsThrough ids w steps left w₁) (hidle : w.Idle) (hq : w.Quiet) :
    w₁.Quiet := by
  induction h with
  | nil => exact hq
  | skip _ _ ih => exact ih hidle hq
  | enter hstate hruns _ ih =>
    have hstacked := hidle.stacked hstate
    exact ih (hruns.idle hstacked) (hruns.quiet hstacked hq)
  | broken hstate hruns _ => exact hruns.quiet (hidle.stacked hstate) hq

/-- If nothing is left, every listed documentation is completed. -/
theorem done_of_mem (h : RunsThrough ids w steps [] w₁) (hidle : w.Idle) (hd : d ∈ ids) :
    (w₁.document d).state = .done := by
  have hbegun : (w₁.document d).state ≠ .unvisited := by
    generalize hleft : ([] : List Frame) = left at h
    induction h with
    | nil => cases hd
    | skip hstate hrest ih =>
      rcases List.mem_cons.1 hd with rfl | hd
      · exact (hrest.accounts hidle).begun hstate
      · exact ih hidle hd hleft
    | enter hstate hruns hrest ih =>
      have hstacked := hidle.stacked hstate
      have hidle₁ := hruns.idle hstacked
      rcases List.mem_cons.1 hd with rfl | hd
      · exact (hrest.accounts hidle₁).begun (hruns.begun hstacked)
      · exact ih hidle₁ hd hleft
    | broken _ _ hne => exact absurd hleft.symm hne
  cases hstate : (w₁.document d).state with
  | unvisited => exact absurd hstate hbegun
  | inProgress => exact absurd hstate (h.idle hidle d)
  | done => rfl

end RunsThrough

/-! ## Calls -/

/-- Completing the listed documentations goes through them until the listener fails. -/
theorem Action.exists_runsThrough (hidle : w.Idle) (ids : List DocId) :
    ∃ steps left w₁, RunsThrough ids w steps left w₁ ∧
      (ids.forM complete).run w = (outcome left, w₁.abandoned left) := by
  induction ids generalizing w with
  | nil => exact ⟨[], [], w, .nil, rfl⟩
  | cons id ids ih =>
    change ∃ steps left w₁, _ ∧ (complete id >>= fun _ => ids.forM complete).run w = _
    by_cases hstate : (w.document id).state = .unvisited
    · obtain ⟨steps, left, w₁, hruns, hrun⟩ := exists_runs_complete hidle hstate
      cases left with
      | nil =>
        obtain ⟨steps₁, left, w₂, hrest, hrun₁⟩ := ih (hruns.idle (hidle.stacked hstate))
        exact ⟨_, left, w₂, .enter hstate hruns hrest, (run_bind_ok hrun).trans hrun₁⟩
      | cons frame left =>
        refine ⟨steps, _, w₁, .broken hstate hruns (List.cons_ne_nil _ _), ?_⟩
        rw [run_bind, hrun]
        rfl
    · obtain ⟨steps, left, w₁, hrest, hrun⟩ := ih hidle
      exact ⟨steps, left, w₁, .skip hstate hrest,
        (run_bind_ok (run_complete_of_begun hstate)).trans hrun⟩

/-- A call goes through the documentations that it names. -/
theorem Call.exists_runsThrough (hidle : w.Idle) (call : Call) :
    ∃ steps left w₁, RunsThrough (call.documents w) w steps left w₁ ∧
      call.perform.run w = (Action.outcome left,
        if left = [] then call.finish w₁ else w₁.abandoned left) := by
  obtain ⟨steps, left, w₁, hthrough, hrun⟩ := Action.exists_runsThrough hidle (call.documents w)
  refine ⟨steps, left, w₁, hthrough, ?_⟩
  cases call with
  | item doc =>
    change (Action.complete doc >>= fun _ => (pure () : Action Unit)).run w = _ at hrun
    rw [bind_pure_unit] at hrun
    refine hrun.trans ?_
    cases left <;> rfl
  | all =>
    have hforM : w.package.items.forM (fun item => Action.complete item.doc) =
        (w.package.items.map Item.doc).forM Action.complete := (List.forM_map ..).symm
    change (Action.completeAll).run w = _
    unfold Action.completeAll
    rw [Action.run_bind_ok (Action.run_get w), hforM, Action.run_bind]
    rw [Call.documents] at hrun
    rw [hrun]
    cases left <;> rfl

/-- The end of a call changes no documentation. -/
theorem Call.document_finish (call : Call) (w : Workspace) (d : DocId) :
    (call.finish w).document d = w.document d := by
  cases call <;> rfl

theorem Call.potential_finish (call : Call) (w : Workspace) :
    (call.finish w).potential = w.potential := by
  cases call <;> rfl

theorem Workspace.Idle.finish (h : w.Idle) (call : Call) : (call.finish w).Idle := fun d => by
  rw [call.document_finish]
  exact h d

theorem Workspace.Quiet.finish (h : w.Quiet) (call : Call) : (call.finish w).Quiet := by
  cases call <;> exact h

/-! ## Calls with a patient listener -/

namespace RunsCalls

theorem accounts (h : RunsCalls calls w steps w₁) (hidle : w.Idle) : steps.Accounts w w₁ := by
  induction h with
  | nil => exact .refl _
  | @cons call _ _ w₁ _ _ _ hcall _ ih =>
    have hrest := ih ((hcall.idle hidle).finish call)
    refine (hcall.accounts hidle).trans ⟨fun d => ?_, fun d => ?_, fun d => ?_⟩ <;>
      rw [← call.document_finish w₁]
    · exact hrest.entries d
    · exact hrest.requests d
    · exact hrest.untouched d

theorem length_add_potential_le (h : RunsCalls calls w steps w₁) (hidle : w.Idle) :
    steps.length + w₁.potential ≤ w.potential := by
  induction h with
  | nil => simp
  | @cons call _ _ _ _ _ _ hcall _ ih =>
    have hlength := hcall.length_add_potential_le hidle
    have hrest := ih ((hcall.idle hidle).finish call)
    rw [call.potential_finish] at hrest
    rw [List.length_append]
    omega

end RunsCalls

/-- Calls are runs one after the other, none of which is interrupted. -/
theorem Action.exists_runsCalls (hidle : w.Idle) (hq : w.Quiet) (calls : List Call) :
    ∃ steps w₁, RunsCalls calls w steps w₁ ∧ (perform calls).run w = (.ok (), w₁) := by
  induction calls generalizing w with
  | nil => exact ⟨[], w, .nil, rfl⟩
  | cons call calls ih =>
    obtain ⟨steps, left, w₁, hthrough, hrun⟩ := call.exists_runsThrough hidle
    obtain rfl := hthrough.left_eq_nil hidle hq
    obtain ⟨steps₁, w₂, hrest, hrun₁⟩ := ih ((hthrough.idle hidle).finish call)
      ((hthrough.quiet hidle hq).finish call)
    refine ⟨_, w₂, .cons hthrough hrest, ?_⟩
    change (call.perform >>= fun _ => perform calls).run w = _
    exact (run_bind_ok hrun).trans hrun₁

end

end ApiDoc
