import ApiDoc.Proofs.Completion.Steps

/-!
# A piece of work and everything it brings

`Performs frame w w₁`: in the workspace `w`, the piece of work `frame` and all the work that comes
up on the way lead to the workspace `w₁`. The rules say what the stack only implies: a documentation
that is completed first is completed as a whole, between the request that leads to it and the copy.
A derivation is what later proofs are inductions on.

Work ends, since every request is met once (`exists_performs`), and the stack does exactly this work
in the steps that it is given (`Performs.run_work`, `Action.run_complete`).
-/

namespace ApiDoc

open Workspace

/-- A piece of work with everything that it brings. -/
inductive Performs : Frame → Workspace → Workspace → Prop
  /-- A documentation that is not begun yet is begun, and then its requests are met. -/
  | enter {id : DocId} {w w₁ : Workspace} (hstate : (w.document id).state = .unvisited)
      (hdrain : Performs (.drain id) (w.begun id) w₁) : Performs (.enter id) w w₁
  /-- Without requests the work is at its end. -/
  | conclude {id : DocId} {w : Workspace} (hpending : (w.document id).pendingInheritDocs = []) :
      Performs (.drain id) w (w.concluded id)
  /-- A request is answered on the spot. -/
  | answer {id : DocId} {content : Text} {rest : List Text} {w w₁ : Workspace}
      (hpending : (w.document id).pendingInheritDocs = content :: rest)
      (hnow : (w.popped id).AnswersNow content)
      (hdrain : Performs (.drain id) ((w.popped id).answered id content) w₁) :
      Performs (.drain id) w w₁
  /-- A request leads to a documentation that is not begun yet; that one is completed first. -/
  | force {id : DocId} {content : Text} {rest : List Text} {kind : ItemKind} {source : DocId}
      {w w₁ w₂ : Workspace} (hpending : (w.document id).pendingInheritDocs = content :: rest)
      (hlead : (w.popped id).lead content = .own kind source)
      (henter : Performs (.enter source) (w.popped id) w₁)
      (hcopy : Performs (.copy id kind source) w₁ w₂) : Performs (.drain id) w w₂
  /-- A request leads to a completed documentation. -/
  | reuse {id : DocId} {content : Text} {rest : List Text} {kind : ItemKind} {source : DocId}
      {w w₁ : Workspace} (hpending : (w.document id).pendingInheritDocs = content :: rest)
      (hlead : (w.popped id).lead content = .own kind source)
      (hstate : ((w.popped id).document source).state = .done)
      (hcopy : Performs (.copy id kind source) (w.popped id) w₁) : Performs (.drain id) w w₁
  /-- What a documentation inherits is copied, and then its other requests are met. -/
  | copy {id : DocId} {kind : ItemKind} {source : DocId} {w w₁ : Workspace}
      (hdrain : Performs (.drain id) (w.copied id kind source) w₁) :
      Performs (.copy id kind source) w w₁

section
variable {frame : Frame} {w w₁ : Workspace}

namespace Performs

/-- Work changes documentations as completion may. -/
theorem evolves (h : Performs frame w w₁) : w.Evolves w₁ := by
  induction h with
  | @enter id w _ _ _ ih => exact (evolves_begun w id).trans ih
  | @conclude id w _ => exact evolves_concluded w id
  | @answer id content _ w _ _ _ _ ih =>
    exact ((evolves_popped w id).trans (evolves_answered _ id content)).trans ih
  | @force id _ _ _ _ w _ _ _ _ _ _ ihenter ihcopy =>
    exact ((evolves_popped w id).trans ihenter).trans ihcopy
  | @reuse id _ _ _ _ w _ _ _ _ _ ih => exact (evolves_popped w id).trans ih
  | @copy id kind source w _ _ ih => exact (evolves_copied w id kind source).trans ih

/-- The listener does not fail at work. -/
theorem quiet (h : Performs frame w w₁) (hq : w.Quiet) : w₁.Quiet := by
  induction h with
  | @enter id w _ _ _ ih => exact ih ((touches_begun w id).quiet hq)
  | @conclude id w _ => exact (touches_concluded w id).quiet hq
  | @answer id content _ w _ _ _ _ ih => exact ih ((touches_answered _ id content).quiet hq)
  | force _ _ _ _ ihenter ihcopy => exact ihcopy (ihenter hq)
  | reuse _ _ _ _ ih => exact ih hq
  | copy _ ih => exact ih hq

/-- Work completes the documentation that it is about. -/
theorem done (h : Performs frame w w₁) : (w₁.document frame.document).state = .done := by
  induction h with
  | enter _ _ ih | answer _ _ _ ih | force _ _ _ _ _ ih | reuse _ _ _ _ ih | copy _ ih => exact ih
  | @conclude id w _ =>
    have hconcluded := touches_concluded w id
    rcases Nat.lt_or_ge id w.documents.size with hlt | hge
    · rw [Frame.document, hconcluded.document_self hlt]
      rfl
    · rw [Frame.document, document_of_size_le (hconcluded.size ▸ hge)]

/-- Another documentation than the one that work is about is as it was, or it was not begun before
and is completed now. -/
theorem document_cases (h : Performs frame w w₁) {d : DocId} (hd : d ≠ frame.document) :
    w₁.document d = w.document d ∨
      (w.document d).state = .unvisited ∧ (w₁.document d).state = .done := by
  induction h with
  | @enter id w _ _ _ ih => exact (touches_begun w id).document_ne hd ▸ ih hd
  | @conclude id w _ => exact .inl ((touches_concluded w id).document_ne hd)
  | @answer id content _ w _ _ _ _ ih =>
    have hsame := ((touches_answered _ id content).document_ne hd).trans
      ((touches_popped w id).document_ne hd)
    exact hsame ▸ ih hd
  | @force id _ _ _ source w _ _ _ _ henter _ ihenter ihcopy =>
    have hsame := (touches_popped w id).document_ne hd
    have hcopied := ihcopy hd
    by_cases hsource : d = source
    · subst hsource
      have hdone := henter.done
      cases henter with
      | enter hunvisited =>
        rw [hsame] at hunvisited
        rcases hcopied with heq | ⟨hunvisited', -⟩
        · exact .inr ⟨hunvisited, heq ▸ hdone⟩
        · rw [Frame.document, hunvisited'] at hdone
          cases hdone
    · rw [← hsame]
      rcases ihenter hsource with heq | ⟨hunvisited, hdone⟩
      · exact heq ▸ hcopied
      · rcases hcopied with heq | ⟨hunvisited', -⟩
        · exact .inr ⟨hunvisited, heq ▸ hdone⟩
        · rw [hunvisited'] at hdone
          cases hdone
  | @reuse id _ _ _ _ w _ _ _ _ _ ih => exact (touches_popped w id).document_ne hd ▸ ih hd
  | @copy id kind source w _ _ ih => exact (touches_copied w id kind source).document_ne hd ▸ ih hd

/-- Work on one documentation leaves every other one that was begun before as it is. -/
theorem document_eq (h : Performs frame w w₁) {d : DocId} (hd : d ≠ frame.document)
    (hstate : (w.document d).state ≠ .unvisited) : w₁.document d = w.document d :=
  (h.document_cases hd).resolve_right fun hcase => hstate hcase.1

/-- A documentation that is not begun after some work was not begun before either, and it is as it
was. -/
theorem document_eq_of_unvisited (h : Performs frame w w₁) {d : DocId}
    (hstate : (w₁.document d).state = .unvisited) : w₁.document d = w.document d := by
  have hd : d ≠ frame.document := by
    rintro rfl
    rw [h.done] at hstate
    cases hstate
  refine (h.document_cases hd).resolve_right fun hcase => ?_
  rw [hcase.2] at hstate
  cases hstate

/-- What is in progress after some work was in progress before, and the work is not about it. -/
theorem document_eq_of_inProgress (h : Performs frame w w₁) {d : DocId}
    (hstate : (w₁.document d).state = .inProgress) :
    d ≠ frame.document ∧ w₁.document d = w.document d := by
  have hd : d ≠ frame.document := by
    rintro rfl
    rw [h.done] at hstate
    cases hstate
  refine ⟨hd, (h.document_cases hd).resolve_right fun hcase => ?_⟩
  rw [hcase.2] at hstate
  cases hstate

end Performs

end

end ApiDoc
