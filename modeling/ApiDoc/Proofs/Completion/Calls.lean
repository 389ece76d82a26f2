import ApiDoc.Proofs.Completion.Termination

/-!
# Calls to complete

Documentations are completed by calls, in any order: a call for one documentation, or the call for
the whole package (`Call`). While the listener does not fail, calls complete the documentations that
they name, one after the other (`Completes`, `Action.run_perform`), each unless it was begun before.
-/

namespace ApiDoc

open Workspace

/-- A call to complete. -/
inductive Call where
  /-- One documentation. -/
  | item (doc : DocId)
  /-- The whole package. -/
  | all
  deriving DecidableEq, Repr

/-- What a call does. -/
def Call.perform : Call → Action Unit
  | item doc => Action.complete doc
  | all => Action.completeAll

/-- The documentations that a call names, in order. -/
def Call.documents (w : Workspace) : Call → List DocId
  | item doc => [doc]
  | all => w.package.items.map Item.doc

/-- Some calls, one after the other. -/
def Action.perform (calls : List Call) : Action Unit :=
  calls.forM Call.perform

/-- The documentations that some calls name, in order. -/
def Workspace.named (w : Workspace) (calls : List Call) : List DocId :=
  calls.flatMap (Call.documents w)

/-- The call for the whole package names the documentation of every item. -/
theorem Workspace.mem_named_of_all {w : Workspace} {calls : List Call} (hall : .all ∈ calls)
    {item : Item} (hitem : item ∈ w.package.items) : item.doc ∈ w.named calls :=
  List.mem_flatMap.2 ⟨.all, hall, List.mem_map_of_mem hitem⟩

/-- No documentation is begun. -/
def Workspace.Fresh (w : Workspace) : Prop :=
  ∀ d < w.documents.size, (w.document d).state = .unvisited

instance (w : Workspace) : Decidable w.Fresh :=
  inferInstanceAs (Decidable (∀ d < w.documents.size, (w.document d).state = .unvisited))

/-- The listed documentations are completed in order, each unless it was begun before; on the way
the package may be declared complete. -/
inductive Completes : List DocId → Workspace → Workspace → Prop
  | nil {w : Workspace} : Completes [] w w
  | enter {id : DocId} {ids : List DocId} {w w₁ w₂ : Workspace}
      (hperforms : Performs (.enter id) w w₁) (hrest : Completes ids w₁ w₂) :
      Completes (id :: ids) w w₂
  | skip {id : DocId} {ids : List DocId} {w w₁ : Workspace}
      (hstate : (w.document id).state ≠ .unvisited) (hrest : Completes ids w w₁) :
      Completes (id :: ids) w w₁
  | close {ids : List DocId} {w w₁ : Workspace}
      (hrest : Completes ids { w with isComplete := true } w₁) : Completes ids w w₁

section
variable {ids ids₁ : List DocId} {w w₁ w₂ : Workspace} {id : DocId}

/-- A declaration that the package is complete changes nothing else. -/
theorem evolves_close (w : Workspace) : w.Evolves { w with isComplete := true } :=
  { Evolves.refl w with }

namespace Completes

theorem append (h₁ : Completes ids w w₁) (h₂ : Completes ids₁ w₁ w₂) :
    Completes (ids ++ ids₁) w w₂ := by
  induction h₁ with
  | nil => exact h₂
  | enter hperforms _ ih => exact .enter hperforms (ih h₂)
  | skip hstate _ ih => exact .skip hstate (ih h₂)
  | close _ ih => exact .close (ih h₂)

theorem evolves (h : Completes ids w w₁) : w.Evolves w₁ := by
  induction h with
  | nil => exact .refl _
  | enter hperforms _ ih => exact hperforms.evolves.trans ih
  | skip _ _ ih => exact ih
  | @close _ w _ _ ih => exact (evolves_close w).trans ih

/-- What is in progress afterwards was in progress before. -/
theorem inProgress (h : Completes ids w w₁) (hstate : (w₁.document id).state = .inProgress) :
    (w.document id).state = .inProgress := by
  induction h with
  | nil => exact hstate
  | enter hperforms _ ih =>
    have hstate₁ := ih hstate
    rwa [(hperforms.document_eq_of_inProgress hstate₁).2] at hstate₁
  | skip _ _ ih | close _ ih => exact ih hstate

/-- What is not begun afterwards is as it was. -/
theorem document_eq_of_unvisited (h : Completes ids w w₁)
    (hstate : (w₁.document id).state = .unvisited) : w₁.document id = w.document id := by
  induction h with
  | nil => rfl
  | enter hperforms _ ih =>
    have hsame := ih hstate
    exact hsame.trans (hperforms.document_eq_of_unvisited (hsame ▸ hstate))
  | skip _ _ ih | close _ ih => exact ih hstate

/-- What was begun before stays begun. -/
theorem state_ne_unvisited (h : Completes ids w w₁) (hstate : (w.document id).state ≠ .unvisited) :
    (w₁.document id).state ≠ .unvisited := fun hunvisited =>
  hstate (h.document_eq_of_unvisited hunvisited ▸ hunvisited)

/-- Every listed documentation is begun afterwards. -/
theorem state_of_mem (h : Completes ids w w₁) (hid : id ∈ ids) :
    (w₁.document id).state ≠ .unvisited := by
  induction h with
  | nil => cases hid
  | enter hperforms hrest ih =>
    rcases List.mem_cons.1 hid with rfl | hid
    · refine hrest.state_ne_unvisited fun hunvisited => ?_
      have hdone := hperforms.done
      rw [Frame.document, hunvisited] at hdone
      cases hdone
    · exact ih hid
  | skip hstate hrest ih =>
    rcases List.mem_cons.1 hid with rfl | hid
    · exact hrest.state_ne_unvisited hstate
    · exact ih hid
  | close _ ih => exact ih hid

/-- If nothing was begun before, everything is either not begun or completed. -/
theorem state_of_fresh (h : Completes ids w w₁) (hw : w.Fresh) (id : DocId) :
    (w₁.document id).state = .unvisited ∨ (w₁.document id).state = .done := by
  cases hstate : (w₁.document id).state with
  | unvisited => exact .inl rfl
  | done => exact .inr rfl
  | inProgress =>
    have hbefore := h.inProgress hstate
    rw [hw id (lt_size_of_state_ne (by rw [hbefore]; decide))] at hbefore
    cases hbefore

/-- If nothing was begun before, every listed documentation is completed. -/
theorem done_of_mem (h : Completes ids w w₁) (hw : w.Fresh) (hid : id ∈ ids) :
    (w₁.document id).state = .done :=
  (h.state_of_fresh hw id).resolve_left (h.state_of_mem hid)

end Completes

namespace Action

theorem run_complete_completes (hq : w.Quiet) (id : DocId) :
    ∃ w₁, (complete id).run w = (.ok (), w₁) ∧ w₁.Quiet ∧ Completes [id] w w₁ := by
  by_cases hstate : (w.document id).state = .unvisited
  · obtain ⟨w₁, hperforms, hrun⟩ := run_complete hq hstate
    exact ⟨w₁, hrun, hperforms.quiet hq, .enter hperforms .nil⟩
  · exact ⟨w, run_complete_of_begun hstate, hq, .skip hstate .nil⟩

/-- Actions one after the other that complete documentations. -/
theorem run_forM_completes {α : Type} (f : α → Action Unit) (documents : α → List DocId)
    (as : List α) (hq : w.Quiet)
    (hf : ∀ a ∈ as, ∀ {w₁ : Workspace}, w₁.Quiet → w.Evolves w₁ →
      ∃ w₂, (f a).run w₁ = (.ok (), w₂) ∧ w₂.Quiet ∧ Completes (documents a) w₁ w₂) :
    ∃ w₁, (as.forM f).run w = (.ok (), w₁) ∧ w₁.Quiet ∧ Completes (as.flatMap documents) w w₁ := by
  induction as generalizing w with
  | nil => exact ⟨w, rfl, hq, .nil⟩
  | cons a as ih =>
    obtain ⟨w₁, hrun, hq₁, hcompletes⟩ := hf a List.mem_cons_self hq (.refl w)
    obtain ⟨w₂, hrun₂, hq₂, hcompletes₂⟩ := ih hq₁ fun a ha _ hq hevolves =>
      hf a (List.mem_cons_of_mem _ ha) hq (hcompletes.evolves.trans hevolves)
    refine ⟨w₂, ?_, hq₂, hcompletes.append hcompletes₂⟩
    change (f a >>= fun _ => as.forM f).run w = _
    rw [run_bind_ok hrun, hrun₂]

theorem run_completeAll (hq : w.Quiet) :
    ∃ w₁, completeAll.run w = (.ok (), w₁) ∧ w₁.Quiet ∧
      Completes (w.package.items.map Item.doc) w w₁ := by
  obtain ⟨w₁, hrun, hq₁, hcompletes⟩ := run_forM_completes (fun item => complete item.doc)
    (fun item => [item.doc]) w.package.items hq
    fun item _ _ hq _ => run_complete_completes hq item.doc
  refine ⟨{ w₁ with isComplete := true }, ?_, hq₁, ?_⟩
  · unfold completeAll
    rw [run_bind_ok (run_get _), run_bind_ok hrun]
    rfl
  · have hall := hcompletes.append (.close .nil)
    rwa [List.append_nil, ← List.map_eq_flatMap] at hall

/-- A call completes what it names, and is not interrupted. -/
theorem run_call (hq : w.Quiet) (call : Call) :
    ∃ w₁, call.perform.run w = (.ok (), w₁) ∧ w₁.Quiet ∧ Completes (call.documents w) w w₁ := by
  cases call with
  | item doc => exact run_complete_completes hq doc
  | all => exact run_completeAll hq

/-- Calls complete the documentations that they name, and are not interrupted. -/
theorem run_perform (hq : w.Quiet) (calls : List Call) :
    ∃ w₁, (perform calls).run w = (.ok (), w₁) ∧ Completes (w.named calls) w w₁ := by
  obtain ⟨w₁, hrun, -, hcompletes⟩ := run_forM_completes Call.perform
    (Call.documents w) calls hq fun call _ w₁ hq hevolves => by
      have hdocuments : call.documents w = call.documents w₁ := by
        unfold Call.documents
        rw [hevolves.package]
      exact hdocuments ▸ run_call hq call
  exact ⟨w₁, hrun, hcompletes⟩

end Action

end

end ApiDoc
