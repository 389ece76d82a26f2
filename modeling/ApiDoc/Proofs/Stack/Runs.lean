import ApiDoc.Proofs.Stack.Effects

/-!
# Runs of the stack

A run does the work on the stack step by step, until nothing is left or the listener fails
(`Runs`). All along the documentations on the stack are in progress, but for one on top that is
about to be entered, and no others are (`Workspace.Stacked`). So where the listener fails, exactly
the documentations on the stack are in progress (`Runs.inProgress_iff`).

From every such stack there is a run (`exists_runs`), since each step lowers the potential, and it
is what `Action.work` does if it is given enough steps (`Runs.run_work`). The steps of a run say
what became of a documentation (`Trace.Accounts`): it is entered at most once, and the requests that
are gone from its queue were met in their order.
-/

namespace ApiDoc

open Workspace

/-- A step of the stack: the piece of work on top, and the workspace that it finds. -/
structure Step where
  /-- The piece of work. -/
  frame : Frame
  /-- The workspace before the step. -/
  before : Workspace

/-- Steps one after the other. -/
abbrev Trace := List Step

namespace Trace

/-- How often some steps enter a documentation. -/
def entries (steps : Trace) (d : DocId) : Nat :=
  steps.countP fun step => step.frame = .enter d

/-- The requests of a documentation that some steps meet, in order. -/
def met (steps : Trace) (d : DocId) : List Text :=
  steps.filterMap fun step =>
    if step.frame.document = d then step.frame.request? step.before else none

/-- What some steps between two workspaces account for. -/
structure Accounts (steps : Trace) (w w₁ : Workspace) : Prop where
  /-- A documentation that is not begun any more was entered once, any other one never. -/
  entries : ∀ d, steps.entries d + (if (w₁.document d).state = .unvisited then 1 else 0) =
    if (w.document d).state = .unvisited then 1 else 0
  /-- The requests that are gone from a queue were met. -/
  requests : ∀ d, (w.document d).pendingInheritDocs =
    steps.met d ++ (w₁.document d).pendingInheritDocs
  /-- What was neither in progress nor entered is as it was. -/
  untouched : ∀ d, (w.document d).state ≠ .inProgress → steps.entries d = 0 →
    w₁.document d = w.document d

end Trace

/-- A run of the stack, from a workspace to another, with its steps and what is left on the stack:
nothing, or what is there when the listener fails at the top. -/
inductive Runs : List Frame → Workspace → Trace → List Frame → Workspace → Prop
  /-- Nothing is left. -/
  | done {w : Workspace} : Runs [] w [] [] w
  /-- The listener fails at the piece of work on top. -/
  | broken {frame : Frame} {stack : List Frame} {w w₁ : Workspace}
      (hrun : (Action.advance frame).run w = (.error .listenerFailed, w₁)) :
      Runs (frame :: stack) w [⟨frame, w⟩] (frame :: stack) w₁
  /-- The piece of work on top is done, and the run goes on with what takes its place. -/
  | step {frame : Frame} {next stack left : List Frame} {w w₁ w₂ : Workspace} {steps : Trace}
      (hrun : (Action.advance frame).run w = (.ok next, w₁))
      (hrest : Runs (next ++ stack) w₁ steps left w₂) :
      Runs (frame :: stack) w (⟨frame, w⟩ :: steps) left w₂

namespace Workspace

/-- The documentations of a workspace are as the pieces of work on a stack find them: no two pieces
are about one documentation, only the one on top may enter its own, and nothing else is in
progress. -/
structure Stacked (w : Workspace) (stack : List Frame) : Prop where
  nodup : (stack.map Frame.document).Nodup
  states : ∀ frame ∈ stack, (w.document frame.document).state = frame.state
  suspended : ∀ frame ∈ stack.tail, frame.state = .inProgress
  idle : ∀ d, (w.document d).state = .inProgress → d ∈ stack.map Frame.document

/-- The workspace after everything on a stack was counted as completed. -/
def abandoned (stack : List Frame) (w : Workspace) : Workspace :=
  stack.foldl (fun w frame => w.updateDocument frame.document (Documentation.withState .done)) w

end Workspace

section
variable {w w₁ w₂ : Workspace} {id source : DocId} {frame : Frame} {stack next left : List Frame}
  {steps steps₁ : Trace}

/-! ## The stack and the states -/

/-- A piece of work that finds its documentation as it must be is about one that there is. -/
theorem Frame.lt_size (hstate : (w.document frame.document).state = frame.state) :
    frame.document < w.documents.size :=
  lt_size_of_state_ne (by rw [hstate]; cases frame <;> nofun)

namespace Workspace.Stacked

theorem top (h : w.Stacked (frame :: stack)) :
    (w.document frame.document).state = frame.state :=
  h.states frame List.mem_cons_self

theorem advances (h : w.Stacked (frame :: stack))
    (hrun : (Action.advance frame).run w = (.ok next, w₁)) : Advances frame next w w₁ := by
  cases Action.advance_outcome h.top with
  | done hrun₁ hadvances =>
    cases hrun.symm.trans hrun₁
    exact hadvances
  | broken hrun₁ _ => cases hrun.symm.trans hrun₁

theorem breaks (h : w.Stacked (frame :: stack))
    (hrun : (Action.advance frame).run w = (.error .listenerFailed, w₁)) : Breaks frame w w₁ := by
  cases Action.advance_outcome h.top with
  | done hrun₁ _ => cases hrun.symm.trans hrun₁
  | broken hrun₁ hbreaks =>
    cases hrun.symm.trans hrun₁
    exact hbreaks

/-- Below the top of the stack no piece of work is about the documentation on top. -/
theorem document_ne (h : w.Stacked (frame :: stack)) {below : Frame} (hbelow : below ∈ stack) :
    below.document ≠ frame.document := fun heq =>
  (List.nodup_cons.1 h.nodup).1 (heq ▸ List.mem_map_of_mem hbelow)

/-- Work on the documentation on top leaves those below it as they are. -/
theorem states_below (h : w.Stacked (frame :: stack)) (hacts : Acts frame w w₁) {below : Frame}
    (hbelow : below ∈ stack) : (w₁.document below.document).state = below.state := by
  rw [hacts.touches.document_ne (h.document_ne hbelow)]
  exact h.states below (List.mem_cons_of_mem _ hbelow)

/-- Everything that is in progress after some work on the documentation on top is on the stack. -/
theorem mem_of_acts (h : w.Stacked (frame :: stack)) (hacts : Acts frame w w₁) {d : DocId}
    (hd : (w₁.document d).state = .inProgress) (hne : d ≠ frame.document) :
    d ∈ stack.map Frame.document := by
  rw [hacts.touches.document_ne hne] at hd
  exact (List.mem_cons.1 (h.idle d hd)).resolve_left hne

/-- A documentation that is not begun may be entered. -/
theorem push (h : w.Stacked stack) (hactive : ∀ frame ∈ stack, frame.state = .inProgress)
    (hstate : (w.document id).state = .unvisited) : w.Stacked (.enter id :: stack) where
  nodup := by
    refine List.nodup_cons.2 ⟨fun hmem => ?_, h.nodup⟩
    obtain ⟨frame, hframe, hdocument⟩ := List.mem_map.1 hmem
    have hframe := (h.states frame hframe).trans (hactive frame hframe)
    rw [hdocument, Frame.document, hstate] at hframe
    cases hframe
  states := List.forall_mem_cons.2 ⟨hstate, h.states⟩
  suspended := hactive
  idle d hd := List.mem_cons_of_mem _ (h.idle d hd)

/-- The work on top is at its end. -/
theorem pop (h : w.Stacked (frame :: stack)) (hacts : Acts frame w w₁)
    (hstate : (w₁.document frame.document).state = .done) : w₁.Stacked stack where
  nodup := (List.nodup_cons.1 h.nodup).2
  states _ hbelow := h.states_below hacts hbelow
  suspended below hbelow := h.suspended below (List.mem_of_mem_tail hbelow)
  idle d hd := by
    refine h.mem_of_acts hacts hd ?_
    rintro rfl
    rw [hstate] at hd
    cases hd

/-- Other work on the same documentation takes the place of the work on top. -/
theorem replace {frame₁ : Frame} (h : w.Stacked (frame :: stack)) (hacts : Acts frame w w₁)
    (hdocument : frame₁.document = frame.document) (hframe : frame₁.state = .inProgress)
    (hstate : (w₁.document frame.document).state = .inProgress) :
    w₁.Stacked (frame₁ :: stack) where
  nodup := by
    rw [List.map_cons, hdocument]
    exact h.nodup
  states := List.forall_mem_cons.2
    ⟨by rw [hdocument, hstate, hframe], fun _ hbelow => h.states_below hacts hbelow⟩
  suspended := h.suspended
  idle d hd := by
    rw [List.map_cons, hdocument]
    by_cases hne : d = frame.document
    · exact hne ▸ List.mem_cons_self
    · exact List.mem_cons_of_mem _ (h.mem_of_acts hacts hd hne)

/-- The stack after a step. -/
theorem goesOn (h : w.Stacked (frame :: stack)) (hadvances : Advances frame next w w₁) :
    w₁.Stacked (next ++ stack) := by
  have hstate := hadvances.state
  cases hadvances.goesOn with
  | conclude hpending => exact h.pop hadvances.toActs hstate
  | enter | answer | reuse | copy => exact h.replace hadvances.toActs rfl rfl hstate
  | @force id source hpending kind hsource =>
    have hcopy : w₁.Stacked (.copy id kind source :: stack) :=
      h.replace hadvances.toActs rfl rfl hstate
    exact hcopy.push (List.forall_mem_cons.2 ⟨rfl, h.suspended⟩) hsource

end Workspace.Stacked

theorem Workspace.stacked_nil (hidle : ∀ d, (w.document d).state ≠ .inProgress) : w.Stacked [] :=
  ⟨List.nodup_nil, nofun, nofun, fun d hd => absurd hd (hidle d)⟩

/-! ## What steps account for -/

namespace Trace

theorem entries_append (steps steps₁ : Trace) (d : DocId) :
    entries (steps ++ steps₁) d = entries steps d + entries steps₁ d :=
  List.countP_append

theorem met_append (steps steps₁ : Trace) (d : DocId) :
    met (steps ++ steps₁) d = met steps d ++ met steps₁ d :=
  List.filterMap_append

theorem entries_singleton_ne {d : DocId} (hd : d ≠ frame.document) :
    entries [⟨frame, w⟩] d = 0 := by
  refine List.countP_eq_zero.2 fun step hstep => ?_
  rw [List.mem_singleton.1 hstep, decide_eq_true_eq]
  rintro rfl
  exact hd rfl

theorem entries_enter (id : DocId) (w : Workspace) : entries [⟨.enter id, w⟩] id = 1 := by
  simp [entries]

/-- Work that leaves its documentation begun accounts for itself. -/
theorem accounts_of_acts (hstate : (w.document frame.document).state = frame.state)
    (hacts : Acts frame w w₁) (hstate₁ : (w₁.document frame.document).state ≠ .unvisited) :
    Accounts [⟨frame, w⟩] w w₁ where
  entries d := by
    by_cases hd : d = frame.document
    · subst hd
      rw [if_neg hstate₁, hstate]
      cases frame <;> simp [Frame.state, Frame.document, entries]
    · rw [entries_singleton_ne hd, hacts.touches.document_ne hd, Nat.zero_add]
  requests d := by
    by_cases hd : d = frame.document
    · subst hd
      rw [hacts.requests]
      cases hrequest : frame.request? w <;> simp [met, hrequest]
    · rw [hacts.touches.document_ne hd]
      simp [met, Ne.symm hd]
  untouched d hidle hentries := by
    refine hacts.touches.document_ne ?_
    rintro rfl
    rw [hstate] at hidle
    cases frame with
    | enter id => cases (entries_enter id w).symm.trans hentries
    | drain | copy => exact hidle rfl

namespace Accounts

theorem refl (w : Workspace) : Accounts [] w w where
  entries _ := Nat.zero_add _
  requests _ := rfl
  untouched _ _ _ := rfl

theorem trans (h : steps.Accounts w w₁) (h₁ : steps₁.Accounts w₁ w₂) :
    Accounts (steps ++ steps₁) w w₂ where
  entries d := by rw [entries_append, Nat.add_assoc, h₁.entries, h.entries]
  requests d := by rw [met_append, List.append_assoc, ← h₁.requests, h.requests]
  untouched d hidle hentries := by
    rw [entries_append] at hentries
    have hsame := h.untouched d hidle (Nat.eq_zero_of_add_eq_zero_right hentries)
    rw [← hsame] at hidle ⊢
    exact h₁.untouched d hidle (Nat.eq_zero_of_add_eq_zero_left hentries)

end Accounts

end Trace

namespace Runs

theorem accounts (h : Runs stack w steps left w₁) (hstacked : w.Stacked stack) :
    steps.Accounts w w₁ := by
  induction h with
  | done => exact .refl _
  | broken hrun =>
    have hbreaks := hstacked.breaks hrun
    exact Trace.accounts_of_acts hstacked.top hbreaks.toActs (by rw [hbreaks.state]; decide)
  | step hrun _ ih =>
    have hadvances := hstacked.advances hrun
    have hstep := Trace.accounts_of_acts hstacked.top hadvances.toActs
      (by rw [hadvances.state]; split <;> decide)
    exact hstep.trans (ih (hstacked.goesOn hadvances))

theorem isComplete (h : Runs stack w steps left w₁) (hstacked : w.Stacked stack) :
    w₁.isComplete = w.isComplete := by
  induction h with
  | done => rfl
  | broken hrun => exact (hstacked.breaks hrun).isComplete
  | step hrun _ ih =>
    have hadvances := hstacked.advances hrun
    exact (ih (hstacked.goesOn hadvances)).trans hadvances.isComplete

/-! ## Where a run ends -/

/-- What is in progress at the end of a run is what is left on the stack. -/
theorem inProgress_iff (h : Runs stack w steps left w₁) (hstacked : w.Stacked stack) (d : DocId) :
    (w₁.document d).state = .inProgress ↔ d ∈ left.map Frame.document := by
  induction h with
  | done => exact ⟨hstacked.idle d, nofun⟩
  | @broken frame stack w w₁ hrun =>
    have hbreaks := hstacked.breaks hrun
    constructor
    · intro hd
      by_cases hne : d = frame.document
      · exact hne ▸ List.mem_cons_self
      · exact List.mem_cons_of_mem _ (hstacked.mem_of_acts hbreaks.toActs hd hne)
    · intro hmem
      rcases List.mem_cons.1 hmem with rfl | hmem
      · exact hbreaks.state
      · obtain ⟨below, hbelow, rfl⟩ := List.mem_map.1 hmem
        exact (hstacked.states_below hbreaks.toActs hbelow).trans (hstacked.suspended below hbelow)
  | step hrun _ ih => exact ih (hstacked.goesOn (hstacked.advances hrun))

/-- If something is left, the listener failed at a report about the documentation on top. -/
theorem reported (h : Runs stack w steps left w₁) (hstacked : w.Stacked stack)
    (hleft : frame ∈ left.head?) : ¬ w.Quiet ∧ ReportedLast frame.document w₁ := by
  induction h with
  | done => cases hleft
  | broken hrun =>
    cases hleft
    have hbreaks := hstacked.breaks hrun
    exact ⟨hbreaks.loud, hbreaks.reported⟩
  | step hrun _ ih =>
    have hadvances := hstacked.advances hrun
    obtain ⟨hloud, hreported⟩ := ih (hstacked.goesOn hadvances) hleft
    exact ⟨fun hq => hloud (hadvances.touches.quiet hq), hreported⟩

/-- Where the listener does not fail, nothing is left. -/
theorem left_eq_nil (h : Runs stack w steps left w₁) (hstacked : w.Stacked stack) (hq : w.Quiet) :
    left = [] := by
  cases hleft : left with
  | nil => rfl
  | cons frame rest => exact absurd hq (h.reported hstacked (by rw [hleft]; rfl)).1

end Runs

/-! ## Every run ends -/

/-- The steps that a stack stands for. -/
def Frame.weights (stack : List Frame) : Nat :=
  (stack.map Frame.weight).sum

@[simp] theorem Frame.weights_enter (id : DocId) : Frame.weights [.enter id] = 0 :=
  rfl

/-- The potential falls with each request that is met and with each documentation that is
entered. -/
theorem Workspace.Acts.potential_eq (hacts : Acts frame w w₁)
    (hstate : (w.document frame.document).state = frame.state)
    (hstate₁ : (w₁.document frame.document).state ≠ .unvisited) :
    w.potential = w₁.potential + 2 * (frame.request? w).toList.length +
      if frame.state = .unvisited then 2 else 0 := by
  have hpotential := hacts.touches.potential (Frame.lt_size hstate)
  simp only [Documentation.potential, hacts.requests, hstate, if_neg hstate₁,
    List.length_append] at hpotential
  omega

/-- A step costs more than what takes its place. -/
theorem Workspace.Advances.potential_lt (hadvances : Advances frame next w w₁)
    (hstate : (w.document frame.document).state = frame.state) :
    w₁.potential + Frame.weights next < w.potential + frame.weight := by
  have hpotential := hadvances.toActs.potential_eq hstate
    (by rw [hadvances.state]; split <;> decide)
  have hrequest (id : DocId) (hpending : (w.document id).pendingInheritDocs ≠ []) :
      ((Frame.drain id).request? w).toList.length = 1 := by
    obtain ⟨content, rest, hcons⟩ := List.exists_cons_of_ne_nil hpending
    simp [Frame.request?, hcons]
  cases hadvances.goesOn with
  | enter | conclude | copy => simp [Frame.weights, Frame.weight, Frame.state] at hpotential ⊢; omega
  | answer hpending | force hpending | reuse hpending =>
    rw [hrequest _ hpending] at hpotential
    simp [Frame.weights, Frame.weight, Frame.state] at hpotential ⊢
    omega

/-- An interrupted piece of work was a step of its own. -/
theorem Workspace.Breaks.potential_lt (hbreaks : Breaks frame w w₁)
    (hrun : (Action.advance frame).run w = (.error .listenerFailed, w₁))
    (hstate : (w.document frame.document).state = frame.state) :
    w₁.potential < w.potential + frame.weight := by
  have hpotential := hbreaks.toActs.potential_eq hstate (by rw [hbreaks.state]; decide)
  cases frame with
  | enter | drain =>
    simp only [Frame.weight, Frame.state] at hpotential ⊢
    grind
  | copy id kind source => cases hrun.symm.trans (Action.run_advance_copy id kind source w)

/-- A run takes so many steps as the potential falls by at most. -/
theorem Runs.length_add_potential_le (h : Runs stack w steps left w₁) (hstacked : w.Stacked stack) :
    steps.length + w₁.potential ≤ w.potential + Frame.weights stack := by
  induction h with
  | done => simp
  | broken hrun =>
    have hlt := (hstacked.breaks hrun).potential_lt hrun hstacked.top
    simp only [Frame.weights, List.map_cons, List.sum_cons, List.length_singleton]
    omega
  | step hrun _ ih =>
    have hadvances := hstacked.advances hrun
    have hlt := hadvances.potential_lt hstacked.top
    have hrest := ih (hstacked.goesOn hadvances)
    simp only [Frame.weights, List.map_append, List.sum_append, List.map_cons, List.sum_cons,
      List.length_cons] at hlt hrest ⊢
    omega

/-- From every stack there is a run. -/
theorem exists_runs (hstacked : w.Stacked stack) :
    ∃ steps left w₁, Runs stack w steps left w₁ := by
  generalize hn : w.potential + Frame.weights stack = n
  induction n using Nat.strongRecOn generalizing stack w with
  | ind n ih =>
    cases stack with
    | nil => exact ⟨[], [], w, .done⟩
    | cons frame stack =>
      cases Action.advance_outcome hstacked.top with
      | broken hrun _ => exact ⟨_, _, _, .broken hrun⟩
      | @done next w₁ hrun hadvances =>
        have hlt := hadvances.potential_lt hstacked.top
        have hlower : w₁.potential + Frame.weights (next ++ stack) < n := by
          simp only [Frame.weights, List.map_append, List.sum_append, List.map_cons,
            List.sum_cons] at hlt hn ⊢
          omega
        obtain ⟨steps, left, w₂, hruns⟩ := ih _ hlower (hstacked.goesOn hadvances) rfl
        exact ⟨_, left, w₂, .step hrun hruns⟩

/-! ## The stack does the run -/

theorem Workspace.document_withState_done (id d : DocId) (w : Workspace) :
    (w.updateDocument id (Documentation.withState .done)).document d =
      if d = id then (w.document d).withState .done else w.document d := by
  have htouches := touches_update id (Documentation.withState .done) w
  split
  · next heq =>
    subst heq
    rcases Nat.lt_or_ge d w.documents.size with hlt | hge
    · exact htouches.document_self hlt
    · rw [document_of_size_le hge, document_of_size_le (htouches.size ▸ hge)]
      rfl
  · next hne => exact htouches.document_ne hne

/-- Exactly the documentations on the stack count as completed then, and nothing else of them
changes. -/
theorem Workspace.document_abandoned (stack : List Frame) (w : Workspace) (d : DocId) :
    (w.abandoned stack).document d =
      if d ∈ stack.map Frame.document then (w.document d).withState .done else w.document d := by
  induction stack generalizing w with
  | nil => rfl
  | cons frame stack ih =>
    refine (ih _).trans ?_
    rw [document_withState_done]
    by_cases hd : d = frame.document
    · simp only [hd, List.map_cons, List.mem_cons, true_or, if_true]
      split <;> rfl
    · simp [hd]

namespace Action

theorem run_abandon (stack : List Frame) (w : Workspace) :
    (abandon stack).run w = (.ok (), w.abandoned stack) := by
  induction stack generalizing w with
  | nil => rfl
  | cons frame stack ih => exact ih (w.updateDocument frame.document _)

/-- An action that is interrupted goes on with its handler. -/
theorem run_tryCatch_error {α : Type} {x : Action α} {e : Interruption}
    {handle : Interruption → Action α} (h : x.run w = (.error e, w₁)) :
    (tryCatch x handle).run w = (handle e).run w₁ := by
  rw [ExceptT.run_tryCatch]
  change StateT.bind x.run _ w = _
  unfold StateT.bind
  dsimp only [bind]
  rw [h]

/-- What a stack comes to: it is worked off, or the listener failed and what is left counts as
completed. -/
def outcome (left : List Frame) : Except Interruption Unit :=
  if left = [] then .ok () else .error .listenerFailed

end Action

theorem Runs.run_work (h : Runs stack w steps left w₁) {n : Nat} (hn : steps.length ≤ n) :
    (Action.work n stack).run w = (Action.outcome left, w₁.abandoned left) := by
  induction h generalizing n with
  | done => cases n <;> rfl
  | @broken frame stack w w₁ hrun =>
    obtain ⟨n, rfl⟩ := Nat.exists_eq_add_of_le' hn
    change (Action.work (n + 1) (frame :: stack)).run w = _
    rw [Action.work, Action.run_bind, Action.run_tryCatch_error hrun,
      Action.run_bind_ok (Action.run_abandon ..)]
    rfl
  | @step frame next stack left w w₁ w₂ steps hrun _ ih =>
    obtain ⟨n, rfl⟩ := Nat.exists_eq_add_of_le' hn
    rw [List.length_cons, ← Nat.add_assoc, Action.run_work_succ hrun]
    exact ih (Nat.le_add_left ..)

/-- Completing a documentation that is not begun is a run from the entry into it. -/
theorem Action.exists_runs_complete (hidle : ∀ d, (w.document d).state ≠ .inProgress)
    (hstate : (w.document id).state = .unvisited) :
    ∃ steps left w₁, Runs [.enter id] w steps left w₁ ∧
      (complete id).run w = (outcome left, w₁.abandoned left) := by
  have hstacked := (stacked_nil hidle).push nofun hstate
  obtain ⟨steps, left, w₁, hruns⟩ := exists_runs hstacked
  refine ⟨steps, left, w₁, hruns, ?_⟩
  have hlength := hruns.length_add_potential_le hstacked
  have hworkload := w.potential_le_workload
  unfold complete
  rw [run_bind_ok (run_get _)]
  simp only [hstate, if_true]
  refine hruns.run_work ?_
  simp only [Frame.weights_enter] at hlength
  omega

end

end ApiDoc
