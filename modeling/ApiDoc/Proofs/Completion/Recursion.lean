import ApiDoc.Proofs.Completion.Termination

/-!
# Completion by recursion

The completion of a documentation as plain recursion: mark it, look its links up, and for each
request to inherit complete the documentation that it leads to before copying from it
(`DocId.completeByRecursion`). Nothing bounds this recursion beforehand, so it is defined among the
actions that need not end (`Recursion`). Main statement: `Action.complete_eq_completeByRecursion`,
the stack gives the same workspace as the recursion, which therefore ends, whatever the items are
and however far their completion is.
-/

namespace ApiDoc

open Workspace ApiDoc.Action

/-- An action that need not come to an end; then it has no result. -/
abbrev Recursion := ExceptT Interruption (StateT Workspace Option)

/-- An action comes to an end. -/
instance : MonadLift Action Recursion where
  monadLift x := ExceptT.mk fun w => some (x.run w)

mutual

/-- Completes a documentation, unless that was begun before: its links, and then each of its
requests to inherit in order. -/
def DocId.completeByRecursion (id : DocId) : Recursion Unit := do
  if (← document id).state = .unvisited then
    update id (Documentation.withState .inProgress)
    completeLinks id
    (← document id).pendingInheritDocs.forM fun content => id |>.meetByRecursion content
    conclude id
partial_fixpoint

/-- Meets a request to inherit. A documentation of the package that it leads to is completed first,
unless that is going on. -/
def DocId.meetByRecursion (id : DocId) (content : Text) : Recursion Unit := do
  update id Documentation.dropInheritDoc
  if Text.hasBlank content then report id .blankInInheritDoc
  else
    match Reference.parse content with
    | .error e =>
      report id (.inheritDocReference e)
      report id (.malformedInheritDoc content)
    | .ok key =>
      match ← resolve key with
      | none => update id (Documentation.pointTo content)
      | some (.external item) => inherit id (.external item)
      | some (.own kind source) =>
        if (← document source).state = .inProgress then
          log (.circular (← document id).itemName content)
          report id (.circularInheritDoc content)
        else
          source |>.completeByRecursion
          inherit id (.own kind source)
partial_fixpoint

end

namespace Recursion
variable {α β : Type} {w w₁ : Workspace}

theorem run_lift {x : Action α} {a : α} (h : x.run w = (.ok a, w₁)) :
    (liftM x : Recursion α).run w = some (.ok a, w₁) :=
  congrArg some h

theorem run_bind_ok {x : Recursion α} {f : α → Recursion β} {a : α}
    (h : x.run w = some (.ok a, w₁)) : (x >>= f).run w = (f a).run w₁ := by
  change Option.bind (x.run w) (fun p => ExceptT.bindCont f p.1 p.2) = _
  rw [h]
  rfl

end Recursion

namespace Action
variable {w w₁ : Workspace} {id source : DocId} {content : Text} {kind : ItemKind}

/-- A request that is answered on the spot, by recursion. -/
theorem run_meetByRecursion_answer (hq : w.Quiet) (hnow : (w.popped id).AnswersNow content) :
    (id.meetByRecursion content).run w = some (.ok (), (w.popped id).answered id content) := by
  have hq₁ : (w.popped id).Quiet := hq
  rw [DocId.meetByRecursion, Recursion.run_bind_ok (Recursion.run_lift (run_update ..))]
  change (ite _ _ _ : Recursion Unit).run (w.popped id) = _
  generalize w.popped id = w₁ at hnow hq₁ ⊢
  have hspec := w₁.lead_spec content
  unfold Workspace.answered
  cases hlead : w₁.lead content with
  | blank =>
    rw [hlead] at hspec
    rw [if_pos hspec]
    exact Recursion.run_lift (run_report hq₁ _ _)
  | malformed e =>
    rw [hlead] at hspec
    obtain ⟨hblank, hparse⟩ := hspec
    simp only [hblank, hparse, Bool.false_eq_true, if_false]
    rw [Recursion.run_bind_ok (Recursion.run_lift (run_report hq₁ _ _))]
    exact Recursion.run_lift (run_report ((touches_reported id _ w₁).quiet hq₁) _ _)
  | nowhere warning =>
    rw [hlead] at hspec
    obtain ⟨hblank, key, hparse, hlookUp⟩ := hspec
    have hresolve := run_resolve key w₁
    rw [hlookUp] at hresolve
    simp only [hblank, hparse, Bool.false_eq_true, if_false]
    rw [Recursion.run_bind_ok (Recursion.run_lift hresolve)]
    rfl
  | external item =>
    rw [hlead] at hspec
    obtain ⟨hblank, key, hparse, hlookUp⟩ := hspec
    have hresolve := run_resolve key w₁
    rw [hlookUp] at hresolve
    simp only [hblank, hparse, Bool.false_eq_true, if_false]
    rw [Recursion.run_bind_ok (Recursion.run_lift hresolve)]
    rfl
  | own kind source =>
    have hactive := hnow kind source hlead
    rw [hlead] at hspec
    obtain ⟨hblank, key, hparse, hlookUp⟩ := hspec
    have hresolve := run_resolve key w₁
    rw [hlookUp] at hresolve
    simp only [hblank, hparse, Bool.false_eq_true, if_false]
    rw [Recursion.run_bind_ok (Recursion.run_lift hresolve)]
    simp only
    rw [Recursion.run_bind_ok (Recursion.run_lift (run_document ..))]
    simp only [hactive, if_true]
    rw [Recursion.run_bind_ok (Recursion.run_lift (run_document ..)),
      Recursion.run_bind_ok (Recursion.run_lift (run_log ..))]
    exact Recursion.run_lift (run_report (w := w₁.logged _) hq₁ _ _)

/-- A request that leads to a documentation that is not in progress, by recursion. -/
theorem run_meetByRecursion_own (hlead : (w.popped id).lead content = .own kind source)
    (hstate : ((w.popped id).document source).state ≠ .inProgress)
    (hsource : source.completeByRecursion.run (w.popped id) = some (.ok (), w₁)) :
    (id.meetByRecursion content).run w = some (.ok (), w₁.copied id kind source) := by
  rw [DocId.meetByRecursion, Recursion.run_bind_ok (Recursion.run_lift (run_update ..))]
  change (ite _ _ _ : Recursion Unit).run (w.popped id) = _
  generalize w.popped id = w₂ at hlead hstate hsource
  have hspec := w₂.lead_spec content
  rw [hlead] at hspec
  obtain ⟨hblank, key, hparse, hlookUp⟩ := hspec
  have hresolve := run_resolve key w₂
  rw [hlookUp] at hresolve
  simp only [hblank, hparse, Bool.false_eq_true, if_false]
  rw [Recursion.run_bind_ok (Recursion.run_lift hresolve)]
  simp only
  rw [Recursion.run_bind_ok (Recursion.run_lift (run_document ..))]
  simp only [hstate, if_false]
  rw [Recursion.run_bind_ok hsource]
  rfl

/-- A piece of work by recursion. -/
def performByRecursion : Frame → Recursion Unit
  | .enter id => id.completeByRecursion
  | .drain id => do
    (← document id).pendingInheritDocs.forM id.meetByRecursion
    conclude id
  | .copy id kind source => do
    inherit id (.own kind source)
    (← document id).pendingInheritDocs.forM id.meetByRecursion
    conclude id

theorem run_drainByRecursion_cons {rest : List Text} {w₂ : Workspace}
    (hpending : (w.document id).pendingInheritDocs = content :: rest)
    (hmeet : (id.meetByRecursion content).run w = some (.ok (), w₁))
    (hrest : (w₁.document id).pendingInheritDocs = rest)
    (hdrain : (performByRecursion (.drain id)).run w₁ = some (.ok (), w₂)) :
    (performByRecursion (.drain id)).run w = some (.ok (), w₂) := by
  unfold performByRecursion at hdrain ⊢
  rw [Recursion.run_bind_ok (Recursion.run_lift (run_document ..))] at hdrain ⊢
  rw [hpending]
  rw [hrest] at hdrain
  change ((id.meetByRecursion content >>= fun _ => rest.forM id.meetByRecursion) >>=
    fun _ => liftM (conclude id)).run w = _
  rw [bind_assoc, Recursion.run_bind_ok hmeet]
  exact hdrain

end Action

/-- Work on a documentation that is begun is done by recursion with the same outcome. -/
theorem Performs.run_recursion {frame : Frame} {w w₁ : Workspace} (h : Performs frame w w₁)
    (hq : w.Quiet)
    (hbegun : (∃ id, frame = .enter id) ∨ (w.document frame.document).state ≠ .unvisited) :
    (Action.performByRecursion frame).run w = some (.ok (), w₁) := by
  -- the queue of a begun documentation is its own: what is forced in between does not touch it
  induction h with
  | @enter id w w₁ hstate _ ih =>
    have hdrain := ih ((touches_begun w id).quiet hq) (.inr (by
      rw [Frame.document, state_begun hstate]
      decide))
    rw [Action.performByRecursion, DocId.completeByRecursion,
      Recursion.run_bind_ok (Recursion.run_lift (Action.run_document ..))]
    simp only [hstate, if_true]
    rw [Recursion.run_bind_ok (Recursion.run_lift (Action.run_update ..)),
      Recursion.run_bind_ok (Recursion.run_lift
        (Action.run_completeLinks (w := w.updateDocument id _) hq id))]
    exact hdrain
  | @conclude id w hpending =>
    rw [Action.performByRecursion,
      Recursion.run_bind_ok (Recursion.run_lift (Action.run_document ..)), hpending]
    exact Recursion.run_lift (Action.run_conclude hq id)
  | @answer id content rest w w₁ hpending hnow _ ih =>
    have hbegun := hbegun.resolve_left (by rintro ⟨_, ⟨⟩⟩)
    have hq₁ := (touches_answered (w.popped id) id content).quiet hq
    refine Action.run_drainByRecursion_cons hpending (Action.run_meetByRecursion_answer hq hnow)
      ?_ (ih hq₁ (.inr ?_))
    · rw [pendingInheritDocs_answered, pendingInheritDocs_popped hpending]
    · rwa [state_answered, state_popped]
  | @force id content rest kind source w w₁ w₂ hpending hlead henter hcopy ihenter ihcopy =>
    have hbegun := hbegun.resolve_left (by rintro ⟨_, ⟨⟩⟩)
    have hq₁ : (w.popped id).Quiet := hq
    have hunvisited : ((w.popped id).document source).state = .unvisited := by
      cases henter with | enter hstate _ => exact hstate
    have hne : id ≠ source := by
      rintro rfl
      exact hbegun (by rwa [state_popped] at hunvisited)
    have hsame : w₁.document id = (w.popped id).document id :=
      henter.document_eq hne (by rwa [state_popped])
    have hcopied := ihcopy (henter.quiet hq₁) (.inr (by
      rw [Frame.document, hsame, state_popped]
      exact hbegun))
    refine Action.run_drainByRecursion_cons hpending
      (Action.run_meetByRecursion_own hlead (by rw [hunvisited]; decide)
        (ihenter hq₁ (.inl ⟨source, rfl⟩))) ?_ hcopied
    rw [pendingInheritDocs_copied, hsame, pendingInheritDocs_popped hpending]
  | @reuse id content rest kind source w w₁ hpending hlead hstate hcopy ih =>
    have hbegun := hbegun.resolve_left (by rintro ⟨_, ⟨⟩⟩)
    have hq₁ : (w.popped id).Quiet := hq
    have hcopied := ih hq₁ (.inr (by
      rw [Frame.document, state_popped]
      exact hbegun))
    have hsource : source.completeByRecursion.run (w.popped id) =
        some (.ok (), w.popped id) := by
      rw [DocId.completeByRecursion,
        Recursion.run_bind_ok (Recursion.run_lift (Action.run_document ..))]
      simp only [hstate]
      rfl
    refine Action.run_drainByRecursion_cons hpending
      (Action.run_meetByRecursion_own hlead (by rw [hstate]; decide) hsource) ?_ hcopied
    rw [pendingInheritDocs_copied, pendingInheritDocs_popped hpending]
  | @copy id kind source w w₁ _ ih =>
    have hbegun := hbegun.resolve_left (by rintro ⟨_, ⟨⟩⟩)
    have hdrain := ih ((touches_copied w id kind source).quiet hq) (.inr (by
      rw [Frame.document, state_copied]
      exact hbegun))
    rw [Action.performByRecursion,
      Recursion.run_bind_ok (Recursion.run_lift (Action.run_inherit ..))]
    exact hdrain

/-- Completing a documentation from the stack and by recursion end in the same workspace: the same
documentations with the same states, the same diagnostics and the same warnings. -/
theorem Action.complete_eq_completeByRecursion (w : Workspace) (hq : w.Quiet) (id : DocId) :
    ∃ w₁, (complete id).run w = (.ok (), w₁) ∧
      id.completeByRecursion.run w = some (.ok (), w₁) := by
  by_cases hstate : (w.document id).state = .unvisited
  · obtain ⟨w₁, hperforms, hrun⟩ := run_complete hq hstate
    exact ⟨w₁, hrun, hperforms.run_recursion hq (.inl ⟨id, rfl⟩)⟩
  · refine ⟨w, run_complete_of_begun hstate, ?_⟩
    rw [DocId.completeByRecursion, Recursion.run_bind_ok (Recursion.run_lift (run_document ..))]
    simp only [hstate, if_false]
    rfl

/-- Two functions that inherit from each other, the second from a completed one as well. -/
def Workspace.tangle : Workspace where
  package := {
    name := some "p".toList
    exports := [("f".toList, .mk "f".toList .function 0 []),
      ("g".toList, .mk "g".toList .function 1 []),
      ("h".toList, .mk "h".toList .function 2 [])] }
  identity := none
  config := {}
  documents := #[{ pendingInheritDocs := ["g".toList] },
    { pendingInheritDocs := ["f".toList, "h".toList] },
    { content.summary := Element.ofText "Done.".toList, state := .done }]

theorem Action.complete_tangle_eq_completeByRecursion : tangle.Quiet ∧
    ∃ w₁, (complete 0).run tangle = (.ok (), w₁) ∧
      (DocId.completeByRecursion 0).run tangle = some (.ok (), w₁) :=
  ⟨by decide, complete_eq_completeByRecursion tangle (by decide) 0⟩

end ApiDoc
