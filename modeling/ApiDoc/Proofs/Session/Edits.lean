import Mathlib.Logic.Relation
import ApiDoc.Proofs.Session.Interruption

/-!
# What may happen to a documentation

After its comment was read, a documentation changes in few ways: a problem of a link or a request is
reported, a link or a request is taken off its queue, a link is settled, something is inherited or
pointed to, or its state changes (`Documentation.Edit`). Main statement: `Workspace.edits_after`.
Whatever is done with a package, interrupted or not, does this and nothing else to each of the
documentations that are there. So what every single change keeps, a documentation has from the
reading of its comment on.
-/

namespace ApiDoc

open Workspace

/-- Whether a problem is one that may be found after the comment was read. -/
def Problem.isOfCompletion : Problem → Bool
  | restrictedLink | blankInInheritDoc | inheritDocReference _ | malformedInheritDoc _
  | circularInheritDoc _ | deprecationNotRestated => true
  | _ => false

namespace Documentation

/-- A change to a documentation whose comment was read. -/
inductive Edit : Documentation → Documentation → Prop
  | report {p : Problem} (hp : p.isOfCompletion = true) (d : Documentation) : Edit d (d.report p)
  | dropLink (d : Documentation) : Edit d d.dropLink
  | dropInheritDoc (d : Documentation) : Edit d d.dropInheritDoc
  | settle (link : PendingLink) (status : LinkStatus) (d : Documentation) :
      Edit d (d.settle link status)
  | pointTo (content : Text) (d : Documentation) : Edit d (d.pointTo content)
  | inherit (source : ResolvedItem) (d : Documentation) : Edit d (d.inherit source)
  | withState (state : CompletionState) (d : Documentation) : Edit d (d.withState state)

/-- Changes to a documentation, one after the other. -/
abbrev Edits : Documentation → Documentation → Prop :=
  Relation.ReflTransGen Edit

/-- What every change keeps, changes one after the other keep. -/
theorem Edits.keeps {γ : Type} {part : Documentation → γ}
    (hpart : ∀ {d d₁}, Edit d d₁ → part d₁ = part d) {d d₁ : Documentation} (h : d.Edits d₁) :
    part d₁ = part d := by
  induction h with
  | refl => rfl
  | tail _ hedit ih => exact (hpart hedit).trans ih

end Documentation

/-- A workspace later on: what documentations are there are changed, and there may be more. -/
structure Workspace.Edits (w w₁ : Workspace) : Prop where
  size : w.documents.size ≤ w₁.documents.size
  documents : ∀ id < w.documents.size, (w.document id).Edits (w₁.document id)

/-- The workspace after some operations, each of which ended or was interrupted. -/
def Workspace.after (operations : List Operation) (w : Workspace) : Workspace :=
  operations.foldl (fun w operation => (operation.perform.run w).2) w

/-- An action that changes the documentations and does nothing else to them, interrupted or not. -/
def Action.EditsOnly {α : Type} (x : Action α) : Prop :=
  ∀ w : Workspace, w.Edits (x.run w).2

section
variable {w w₁ w₂ : Workspace} {id : DocId} {f : Documentation → Documentation}

namespace Workspace.Edits

theorem refl (w : Workspace) : w.Edits w :=
  ⟨Nat.le_refl _, fun _ _ => .refl⟩

theorem trans (h₁ : w.Edits w₁) (h₂ : w₁.Edits w₂) : w.Edits w₂ where
  size := Nat.le_trans h₁.size h₂.size
  documents id hid :=
    (h₁.documents id hid).trans (h₂.documents id (Nat.lt_of_lt_of_le hid h₁.size))

theorem of_touches (h : Touches id f w w₁) (hf : ∀ d : Documentation, d.Edits (f d)) :
    w.Edits w₁ where
  size := Nat.le_of_eq h.size.symm
  documents d hd := by
    by_cases heq : d = id
    · subst heq
      rw [h.document_self hd]
      exact hf _
    · rw [h.document_ne heq]

theorem of_documents_eq (h : w₁.documents = w.documents) : w.Edits w₁ where
  size := Nat.le_of_eq (congrArg Array.size h).symm
  documents d _ := by
    rw [document, document, h]

/-- A new documentation comes behind those that are there. -/
theorem register (path : List Text) (name : Text) (kind : ItemKind) (added : Documentation)
    (w : Workspace) : w.Edits (w.register path name kind added) where
  size := by simp [Workspace.register]
  documents d hd := by
    rw [document_register, if_neg (Nat.ne_of_lt hd)]

end Workspace.Edits

namespace Action.EditsOnly
variable {α β : Type} {x : Action α}

/-- An action that only looks things up. -/
theorem of_reads (h : ∀ w, ((x.run w).2 = w)) : EditsOnly x := fun w => by
  rw [h w]
  exact .refl w

theorem pure (a : α) : EditsOnly (pure a : Action α) :=
  .of_reads fun _ => rfl

theorem throw (e : Interruption) : EditsOnly (throw e : Action α) :=
  .of_reads fun _ => rfl

theorem document (id : DocId) : EditsOnly (document id) :=
  .of_reads fun _ => rfl

theorem get : EditsOnly (get : Action Workspace) :=
  .of_reads fun _ => rfl

theorem bind {g : α → Action β} (hx : EditsOnly x) (hg : ∀ a, EditsOnly (g a)) :
    EditsOnly (x >>= g) := by
  intro w
  have hedits := hx w
  rw [run_bind]
  rcases hrun : x.run w with ⟨e | a, w₁⟩ <;> rw [hrun] at hedits
  · exact hedits
  · exact hedits.trans (hg a w₁)

theorem tryCatch {handle : Interruption → Action α} (hx : EditsOnly x)
    (hhandle : ∀ e, EditsOnly (handle e)) : EditsOnly (tryCatch x handle) := by
  intro w
  have hedits := hx w
  rcases hrun : x.run w with ⟨e | a, w₁⟩ <;> rw [hrun] at hedits
  · rw [run_tryCatch_error hrun]
    exact hedits.trans (hhandle e w₁)
  · rw [run_tryCatch_ok hrun]
    exact hedits

theorem forM {g : α → Action Unit} (hg : ∀ a, EditsOnly (g a)) (as : List α) :
    EditsOnly (as.forM g) := by
  induction as with
  | nil => exact .pure ()
  | cons a as ih => exact .bind (hg a) fun _ => ih

theorem modify {g : Workspace → Workspace} (hg : ∀ w, (g w).documents = w.documents) :
    EditsOnly (modify g : Action Unit) :=
  fun w => .of_documents_eq (hg w)

/-! ## Single changes -/

theorem update (hf : ∀ d, Documentation.Edit d (f d)) : EditsOnly (update id f) :=
  fun w => .of_touches (touches_update id f w) fun d => .single (hf d)

theorem report {p : Problem} (hp : p.isOfCompletion = true) : EditsOnly (report id p) := by
  intro w
  rw [run_report_eq]
  exact .of_touches (touches_reported id p w) fun d => .single (.report hp d)

theorem resolve (key : ItemKey) : EditsOnly (resolve key) := by
  intro w
  rw [run_resolve]
  split
  · exact .refl w
  · exact .of_touches (touches_warned 0 _ w) fun _ => .refl

/-! ## Completion -/

theorem completeLink (link : PendingLink) : EditsOnly (completeLink id link) := by
  refine .bind (.update .dropLink) fun _ => .bind (.resolve _) fun target => ?_
  cases target with
  | none => exact .update (.settle link _)
  | some target =>
    refine .bind .get fun w => ?_
    split
    · exact .bind (.report rfl) fun _ => .update (.settle link _)
    · exact .update (.settle link _)

theorem inherit (target : Target) : EditsOnly (inherit id target) :=
  .bind .get fun _ => .update (.inherit _)

theorem meet (content : Text) : EditsOnly (meet id content) := by
  unfold Action.meet
  split
  · exact .bind (.report rfl) fun _ => .pure _
  · split
    · exact .bind (.report rfl) fun _ => .bind (.report rfl) fun _ => .pure _
    · refine .bind (.resolve _) fun target => ?_
      rcases target with _ | ⟨kind, source⟩ | item
      · exact .bind (.update (.pointTo content)) fun _ => .pure _
      · refine .bind (.document source) fun d => ?_
        cases d.state with
        | unvisited | done => exact .pure _
        | inProgress =>
          exact .bind (.document id) fun _ => .bind (.modify fun _ => rfl) fun _ =>
            .bind (.report rfl) fun _ => .pure _
      · exact .bind (.inherit _) fun _ => .pure _

theorem conclude : EditsOnly (conclude id) := by
  refine .bind .get fun w => ?_
  split
  · exact .bind (.report rfl) fun _ => .update (.withState .done)
  · exact .update (.withState .done)

theorem advance (frame : Frame) : EditsOnly (advance frame) := by
  cases frame with
  | enter id =>
    have hlinks : EditsOnly (completeLinks id) :=
      .bind (.document id) fun _ => .forM .completeLink _
    exact .bind (.update (.withState .inProgress)) fun _ => .bind hlinks fun _ => .pure _
  | drain id =>
    refine .bind (.document id) fun d => ?_
    split
    · exact .bind .conclude fun _ => .pure _
    · exact .bind (.update .dropInheritDoc) fun _ => .meet _
  | copy id kind source => exact .bind (.inherit _) fun _ => .pure _

theorem work (steps : Nat) (stack : List Frame) : EditsOnly (work steps stack) := by
  induction steps generalizing stack with
  | zero => exact .pure ()
  | succ steps ih =>
    cases stack with
    | nil => exact .pure ()
    | cons frame stack =>
      have habandon : EditsOnly (abandon (frame :: stack)) :=
        .forM (fun frame => .update (.withState .done)) _
      refine .bind (.tryCatch (.advance frame) fun e => ?_) fun next => ih _
      exact .bind habandon fun _ => .throw e

theorem complete (id : DocId) : EditsOnly (complete id) := by
  refine .bind .get fun w => ?_
  split
  · exact .work _ _
  · exact .pure ()

theorem completeAll : EditsOnly completeAll := by
  unfold Action.completeAll
  refine .bind .get fun w => ?_
  refine .bind ?_ fun _ => ?_
  · exact .forM (fun item : Item => .complete item.doc) _
  · exact .modify fun _ => rfl

theorem perform (operation : Operation) : EditsOnly operation.perform := by
  cases operation with
  | add path name kind comment =>
    intro w
    change w.Edits ((addItem path name kind comment).run w).2
    cases hcomplete : w.isComplete with
    | true =>
      rw [run_addItem_of_complete hcomplete]
      exact .refl w
    | false =>
      rcases run_addItem_cases hcomplete path name kind comment with
        ⟨e, w₁, hrun, -, hreports⟩ | ⟨d, w₁, hrun, -, hreports⟩ <;> rw [hrun]
      · exact .of_documents_eq hreports.documents_eq
      · exact .trans (.of_documents_eq hreports.documents_eq) (.register path name kind d w₁)
  | external | configure => exact .modify fun _ => rfl
  | call c =>
    cases c with
    | item id => exact .complete id
    | all => exact .completeAll

end Action.EditsOnly

/-- Whatever is done with a package changes the documentations that are there, and does nothing else
to them. -/
theorem Workspace.edits_after (operations : List Operation) (w : Workspace) :
    w.Edits (w.after operations) := by
  induction operations generalizing w with
  | nil => exact .refl w
  | cons operation operations ih =>
    have hedits : w.Edits (operation.perform.run w).2 := Action.EditsOnly.perform operation w
    exact hedits.trans (ih _)

end

end ApiDoc
