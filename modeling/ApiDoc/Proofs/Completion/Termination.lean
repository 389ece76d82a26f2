import ApiDoc.Proofs.Completion.Performs

/-!
# Completion ends

Every step ends a documentation, takes a request off a queue or meets one. So the potential of a
workspace and its stack (`Workspace.potential`, `Frame.weight`) falls with every step; all work has
an end (`exists_performs`), and the stack gets there in the steps that it is given
(`Performs.run_work`). Main statement: `Action.run_complete`, completing a documentation that is not
begun is the work of entering it, and it is not interrupted.
-/

namespace ApiDoc

open Workspace

/-- The steps that a documentation may still give rise to: two for each request, and two for a
documentation that is not begun. -/
def Documentation.potential (d : Documentation) : Nat :=
  2 * d.pendingInheritDocs.length + if d.state = .unvisited then 2 else 0

/-- The steps that the documentations of a workspace may still give rise to. -/
def Workspace.potential (w : Workspace) : Nat :=
  (w.documents.toList.map Documentation.potential).sum

/-- The steps that a piece of work on the stack stands for. To enter a documentation costs nothing
more, since it is not begun. -/
def Frame.weight : Frame → Nat
  | .enter _ => 0
  | .drain _ => 1
  | .copy _ _ _ => 2

/-- A sum after one summand changed. -/
theorem List.sum_map_modify {α M : Type} [AddCommMonoid M] (g : α → M) (f : α → α) (as : List α)
    (i : Nat) (hi : i < as.length) :
    ((as.modify i f).map g).sum + g as[i] = (as.map g).sum + g (f as[i]) := by
  induction as generalizing i with
  | nil => cases hi
  | cons a as ih =>
    cases i with
    | zero =>
      simp only [List.modify_zero_cons, List.map_cons, List.sum_cons, List.getElem_cons_zero]
      rw [add_right_comm, add_right_comm (g a), add_comm (g (f a))]
    | succ i =>
      simp only [List.modify_succ_cons, List.map_cons, List.sum_cons, List.getElem_cons_succ]
      rw [add_assoc, ih i (Nat.lt_of_succ_lt_succ hi), add_assoc]

namespace Workspace
variable {w w₁ : Workspace} {id : DocId} {f : Documentation → Documentation}

/-- What the documentations of a workspace add up to. -/
def total {M : Type} [AddCommMonoid M] (g : Documentation → M) (w : Workspace) : M :=
  (w.documents.toList.map g).sum

/-- A total changes with the documentation that changes. -/
theorem Touches.total {M : Type} [AddCommMonoid M] (h : Touches id f w w₁)
    (hid : id < w.documents.size) (g : Documentation → M) :
    w₁.total g + g (w.document id) = w.total g + g (f (w.document id)) := by
  have hlt : id < w.documents.toList.length := by simpa
  have hsum := List.sum_map_modify g f w.documents.toList id hlt
  have hdocument : w.document id = w.documents.toList[id] := by simp [document, hid]
  rw [hdocument, Workspace.total, h.documents, Array.toList_modify]
  exact hsum

/-- The potential changes with the documentation that changes. -/
theorem Touches.potential (h : Touches id f w w₁) (hid : id < w.documents.size) :
    w₁.potential + (w.document id).potential =
      w.potential + (f (w.document id)).potential :=
  h.total hid Documentation.potential

theorem Touches.potential_le (h : Touches id f w w₁)
    (hf : ∀ d : Documentation, (f d).potential ≤ d.potential) : w₁.potential ≤ w.potential := by
  rcases Nat.lt_or_ge id w.documents.size with hlt | hge
  · have hpotential := h.potential hlt
    have := hf (w.document id)
    omega
  · rw [Workspace.potential, h.documents, Array.toList_modify,
      List.modify_eq_self (by simpa using hge)]
    exact Nat.le_refl _

end Workspace

namespace Documentation
variable (d : Documentation)

theorem potential_settleAll (verdict : ItemKey → LinkStatus) (links : List PendingLink) :
    (d.settleAll verdict links).potential = d.potential := by
  simp [potential]

theorem potential_answer (content : Text) (lead : Lead) :
    (d.answer content lead).potential = d.potential := by
  simp [potential]

theorem potential_conclude_le (enforced : Bool) :
    (d.conclude enforced).potential ≤ d.potential := by
  unfold conclude reportIf potential withState
  split <;> simp [report]

end Documentation

section
variable {frame : Frame} {w w₁ : Workspace} {id : DocId} {content : Text} {rest : List Text}

theorem potential_begun (hstate : (w.document id).state = .unvisited) :
    (w.begun id).potential + 2 = w.potential := by
  have hlt : id < w.documents.size := lt_size_of_state_ne (by rw [hstate]; decide)
  have h := (touches_begun w id).potential hlt
  rw [Documentation.settleLinks, Documentation.potential_settleAll] at h
  simp only [Documentation.potential, Documentation.withState, hstate] at h
  simp at h
  omega

theorem potential_popped (hpending : (w.document id).pendingInheritDocs = content :: rest) :
    (w.popped id).potential + 2 = w.potential := by
  have h := (touches_popped w id).potential (lt_size_of_pending hpending)
  simp only [Documentation.potential, Documentation.dropInheritDoc, hpending, List.tail_cons,
    List.length_cons] at h
  omega

theorem potential_answered_le (id : DocId) (content : Text) (w : Workspace) :
    (w.answered id content).potential ≤ w.potential :=
  (touches_answered w id content).potential_le fun d =>
    Nat.le_of_eq (d.potential_answer content _)

theorem potential_copied_le (id : DocId) (kind : ItemKind) (source : DocId) (w : Workspace) :
    (w.copied id kind source).potential ≤ w.potential :=
  (touches_copied w id kind source).potential_le fun _ => Nat.le_refl _

theorem potential_concluded_le (id : DocId) (w : Workspace) :
    (w.concluded id).potential ≤ w.potential :=
  (touches_concluded w id).potential_le fun d => d.potential_conclude_le _

/-! ## The stack does the work -/

namespace Action

/-- An action that is not interrupted needs no handler. -/
theorem run_tryCatch_ok {α : Type} {x : Action α} {a : α} {handle : Interruption → Action α}
    (h : x.run w = (.ok a, w₁)) : (tryCatch x handle).run w = (.ok a, w₁) := by
  rw [ExceptT.run_tryCatch]
  change StateT.bind x.run _ w = _
  unfold StateT.bind
  dsimp only [bind]
  rw [h]
  rfl

theorem run_advance_enter (hq : w.Quiet) (id : DocId) :
    (advance (.enter id)).run w = (.ok [.drain id], w.begun id) := by
  unfold advance
  rw [run_bind_ok (run_update ..),
    run_bind_ok (run_completeLinks (w := w.updateDocument id _) hq id)]
  rfl

theorem run_advance_drain_nil (hq : w.Quiet) (hpending : (w.document id).pendingInheritDocs = []) :
    (advance (.drain id)).run w = (.ok [], w.concluded id) := by
  unfold advance
  rw [run_bind_ok (run_document ..)]
  simp only [hpending]
  rw [run_bind_ok (run_conclude hq id)]
  rfl

theorem run_advance_drain_cons (hpending : (w.document id).pendingInheritDocs = content :: rest) :
    (advance (.drain id)).run w = (meet id content).run (w.popped id) := by
  unfold advance
  rw [run_bind_ok (run_document ..)]
  simp only [hpending]
  rw [run_bind_ok (run_update ..)]
  rfl

theorem run_advance_copy (id : DocId) (kind : ItemKind) (source : DocId) (w : Workspace) :
    (advance (.copy id kind source)).run w = (.ok [.drain id], w.copied id kind source) := by
  unfold advance
  rw [run_bind_ok (run_inherit ..)]
  rfl

/-- A request that is answered on the spot leaves its documentation to be drained further. -/
theorem run_meet_answer (hq : w.Quiet) (hnow : w.AnswersNow content) (id : DocId) :
    (meet id content).run w = (.ok [.drain id], w.answered id content) := by
  rw [run_meet hq]
  cases hlead : w.lead content with
  | own kind source => simp only [hnow kind source hlead]
  | blank | malformed | nowhere | external => rfl

/-- A step of the stack. -/
theorem run_work_succ {next : List Frame} (h : (advance frame).run w = (.ok next, w₁)) (n : Nat)
    (stack : List Frame) :
    (work (n + 1) (frame :: stack)).run w = (work n (next ++ stack)).run w₁ := by
  rw [work, run_bind_ok (run_tryCatch_ok h)]

end Action

/-- Work on top of the stack is done in so many steps as the potential falls by at least. -/
theorem Performs.run_work (h : Performs frame w w₁) (hq : w.Quiet) :
    ∃ steps, steps + w₁.potential ≤ w.potential + frame.weight ∧ ∀ n stack,
      (Action.work (n + steps) (frame :: stack)).run w = (Action.work n stack).run w₁ := by
  induction h with
  | @enter id w w₁ hstate _ ih =>
    obtain ⟨steps, hsteps, hrun⟩ := ih ((touches_begun w id).quiet hq)
    have hpotential := potential_begun hstate
    refine ⟨steps + 1, by simp only [Frame.weight] at hsteps ⊢; omega, fun n stack => ?_⟩
    exact (Action.run_work_succ (Action.run_advance_enter hq id) _ _).trans (hrun n stack)
  | @conclude id w hpending =>
    have hpotential := potential_concluded_le id w
    refine ⟨1, by simp only [Frame.weight]; omega, fun n stack => ?_⟩
    exact Action.run_work_succ (Action.run_advance_drain_nil hq hpending) _ _
  | @answer id content rest w w₁ hpending hnow _ ih =>
    have hq₁ : (w.popped id).Quiet := hq
    obtain ⟨steps, hsteps, hrun⟩ := ih ((touches_answered _ id content).quiet hq₁)
    have hpopped := potential_popped hpending
    have hanswered := potential_answered_le id content (w.popped id)
    have hadvance := (Action.run_advance_drain_cons hpending).trans
      (Action.run_meet_answer hq₁ hnow id)
    refine ⟨steps + 1, by simp only [Frame.weight] at hsteps ⊢; omega, fun n stack => ?_⟩
    exact (Action.run_work_succ hadvance _ _).trans (hrun n stack)
  | @force id content rest kind source w w₁ w₂ hpending hlead henter _ ihenter ihcopy =>
    have hq₁ : (w.popped id).Quiet := hq
    obtain ⟨steps₁, hsteps₁, hrun₁⟩ := ihenter hq₁
    obtain ⟨steps₂, hsteps₂, hrun₂⟩ := ihcopy (henter.quiet hq₁)
    have hpopped := potential_popped hpending
    have hadvance : (Action.advance (.drain id)).run w =
        (.ok [.enter source, .copy id kind source], w.popped id) := by
      cases henter with
      | enter hstate =>
        rw [Action.run_advance_drain_cons hpending, Action.run_meet hq₁, hlead]
        simp only [hstate]
    refine ⟨steps₂ + steps₁ + 1, by simp only [Frame.weight] at hsteps₁ hsteps₂ ⊢; omega,
      fun n stack => ?_⟩
    calc (Action.work (n + (steps₂ + steps₁ + 1)) (.drain id :: stack)).run w
      _ = (Action.work (n + steps₂ + steps₁) (.enter source :: .copy id kind source :: stack)).run
            (w.popped id) := by
          rw [← Nat.add_assoc, ← Nat.add_assoc]
          exact Action.run_work_succ hadvance _ _
      _ = (Action.work (n + steps₂) (.copy id kind source :: stack)).run w₁ := hrun₁ _ _
      _ = (Action.work n stack).run w₂ := hrun₂ n stack
  | @reuse id content rest kind source w w₁ hpending hlead hstate _ ih =>
    have hq₁ : (w.popped id).Quiet := hq
    obtain ⟨steps, hsteps, hrun⟩ := ih hq₁
    have hpopped := potential_popped hpending
    have hadvance : (Action.advance (.drain id)).run w =
        (.ok [.copy id kind source], w.popped id) := by
      rw [Action.run_advance_drain_cons hpending, Action.run_meet hq₁, hlead]
      simp only [hstate]
    refine ⟨steps + 1, by simp only [Frame.weight] at hsteps ⊢; omega, fun n stack => ?_⟩
    exact (Action.run_work_succ hadvance _ _).trans (hrun n stack)
  | @copy id kind source w w₁ _ ih =>
    obtain ⟨steps, hsteps, hrun⟩ := ih ((touches_copied w id kind source).quiet hq)
    have hpotential := potential_copied_le id kind source w
    refine ⟨steps + 1, by simp only [Frame.weight] at hsteps ⊢; omega, fun n stack => ?_⟩
    exact (Action.run_work_succ (Action.run_advance_copy id kind source w) _ _).trans (hrun n stack)

/-- All work has an end. -/
theorem exists_performs (frame : Frame) (hq : w.Quiet)
    (hframe : ∀ id, frame = .enter id → (w.document id).state = .unvisited) :
    ∃ w₁, Performs frame w w₁ := by
  -- the potential and the weight of the frame fall together from a piece of work to its parts
  generalize hn : w.potential + frame.weight = n
  induction n using Nat.strongRecOn generalizing frame w with
  | ind n ih =>
    subst hn
    have drain : ∀ id w₁, w₁.Quiet → w₁.potential + 1 < w.potential + frame.weight →
        ∃ w₂, Performs (.drain id) w₁ w₂ := fun id w₁ hq₁ hlt => ih _ hlt _ hq₁ nofun rfl
    cases frame with
    | enter id =>
      have hstate := hframe id rfl
      have := potential_begun hstate
      obtain ⟨w₁, h⟩ := drain id (w.begun id) ((touches_begun w id).quiet hq)
        (by simp only [Frame.weight]; omega)
      exact ⟨w₁, .enter hstate h⟩
    | copy id kind source =>
      have := potential_copied_le id kind source w
      obtain ⟨w₁, h⟩ := drain id (w.copied id kind source)
        ((touches_copied w id kind source).quiet hq) (by simp only [Frame.weight]; omega)
      exact ⟨w₁, .copy h⟩
    | drain id =>
      cases hpending : (w.document id).pendingInheritDocs with
      | nil => exact ⟨_, .conclude hpending⟩
      | cons content rest =>
        have hpopped := potential_popped hpending
        rcases (w.popped id).answersNow_or content with
          hnow | ⟨kind, source, hlead, hstate | hstate⟩
        · have := potential_answered_le id content (w.popped id)
          obtain ⟨w₁, h⟩ := drain id ((w.popped id).answered id content)
            ((touches_answered _ id content).quiet hq) (by simp only [Frame.weight]; omega)
          exact ⟨w₁, .answer hpending hnow h⟩
        · have hq₁ : (w.popped id).Quiet := hq
          obtain ⟨w₁, henter⟩ := ih ((w.popped id).potential + 0)
            (by simp only [Frame.weight]; omega) (.enter source) hq₁
            (fun _ h => by cases h; exact hstate) rfl
          obtain ⟨steps, hsteps, -⟩ := henter.run_work hq₁
          obtain ⟨w₂, hcopy⟩ := ih (w₁.potential + 2) (by simp only [Frame.weight] at *; omega)
            (.copy id kind source) (henter.quiet hq₁) nofun rfl
          exact ⟨w₂, .force hpending hlead henter hcopy⟩
        · obtain ⟨w₁, hcopy⟩ := ih ((w.popped id).potential + 2)
            (by simp only [Frame.weight]; omega) (.copy id kind source) (w := w.popped id) hq nofun
            rfl
          exact ⟨w₁, .reuse hpending hlead hstate hcopy⟩

/-- The steps that a completion is given are enough. -/
theorem Workspace.potential_le_workload (w : Workspace) :
    w.potential ≤ w.workload := by
  rw [Workspace.potential, Workspace.workload, ← Array.foldr_toList]
  induction w.documents.toList with
  | nil => exact Nat.le_refl _
  | cons d ds ih =>
    have hd : d.potential ≤ d.workload := by
      unfold Documentation.potential Documentation.workload
      split <;> omega
    simp only [List.map_cons, List.sum_cons, List.foldr_cons]
    omega

/-- Completing a documentation that is not begun does the work of entering it, and is not
interrupted while the listener does not fail. -/
theorem Action.run_complete (hq : w.Quiet) (hstate : (w.document id).state = .unvisited) :
    ∃ w₁, Performs (.enter id) w w₁ ∧ (complete id).run w = (.ok (), w₁) := by
  obtain ⟨w₁, h⟩ := exists_performs (.enter id) hq fun _ heq => by cases heq; exact hstate
  refine ⟨w₁, h, ?_⟩
  obtain ⟨steps, hsteps, hrun⟩ := h.run_work hq
  have hworkload := w.potential_le_workload
  obtain ⟨n, hn⟩ : ∃ n, w.workload + 1 = n + steps :=
    ⟨_, (Nat.sub_add_cancel (by simp only [Frame.weight] at hsteps; omega)).symm⟩
  unfold complete
  rw [run_bind_ok (run_get _)]
  simp only [hstate, if_true]
  rw [hn, hrun n []]
  cases n <;> rfl

/-- Completing a documentation that was begun before does nothing. -/
theorem Action.run_complete_of_begun (hstate : (w.document id).state ≠ .unvisited) :
    (complete id).run w = (.ok (), w) := by
  unfold complete
  rw [run_bind_ok (run_get _)]
  simp only [hstate, if_false]
  rfl

end

end ApiDoc
