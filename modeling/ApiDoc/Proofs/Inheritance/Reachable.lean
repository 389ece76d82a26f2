import ApiDoc.Proofs.Inheritance.Graph
import ApiDoc.Proofs.Session.Edits

/-!
# What a completion leaves as it is

The completion of a documentation brings that of others, along requests to inherit that lead to
them, and of others again. No piece of work touches a documentation that such requests do not lead
to (`Performs.document_eq_of_not_reaches`): not its content or the statuses of its links, not its
problems, its queues or its state. Requests are only taken off their queues on the way, so what can
be reached later could be reached at the beginning (`Workspace.Evolves.reaches`). On the
documentations that are reached the marks of the comment stay, and of a deprecation only the
statuses of its links change (`Documentation.Edit.keepsMarks`). Main statement:
`Action.complete_keeps_unreached`.
-/

namespace ApiDoc

open Workspace

/-- An element less what is known about the target of a link. -/
def Element.withoutStatus : Element → Element
  | itemLink link => itemLink { link with status := .incomplete }
  | e => e

/-- What a comment says beside its summary, remarks, parameters and returned value: the stage of
support, the flags, whether it asks to inherit, and the message that the item is deprecated, less
the statuses of its links. -/
structure Documentation.KeepsMarks (d d₁ : Documentation) : Prop where
  releaseTag : d₁.releaseTag = d.releaseTag
  flags : d₁.flags = d.flags
  isInherited : d₁.isInherited = d.isInherited
  deprecatedMessage : d₁.content.deprecatedMessage.map Element.withoutStatus =
    d.content.deprecatedMessage.map Element.withoutStatus

/-! ## Marks -/

theorem Element.withoutStatus_settle (place : Nat) (status : LinkStatus) (e : Element) :
    (e.settle place status).withoutStatus = e.withoutStatus := by
  cases e with
  | itemLink link =>
    simp only [settle, withoutStatus]
    split <;> rfl
  | text chars | paragraph | htmlTag tag | webLink display address => rfl

namespace Documentation
variable {d d₁ d₂ : Documentation}

theorem KeepsMarks.trans (h₁ : d.KeepsMarks d₁) (h₂ : d₁.KeepsMarks d₂) : d.KeepsMarks d₂ where
  releaseTag := h₂.releaseTag.trans h₁.releaseTag
  flags := h₂.flags.trans h₁.flags
  isInherited := h₂.isInherited.trans h₁.isInherited
  deprecatedMessage := h₂.deprecatedMessage.trans h₁.deprecatedMessage

/-- No change to a documentation whose comment was read touches its marks. -/
theorem Edit.keepsMarks (h : d.Edit d₁) : d.KeepsMarks d₁ := by
  cases h with
  | report _ d | dropLink d | dropInheritDoc d | pointTo _ d | withState _ d =>
    exact ⟨rfl, rfl, rfl, rfl⟩
  | inherit source d =>
    refine ⟨rfl, rfl, rfl, ?_⟩
    unfold Documentation.inherit
    split <;> rfl
  | settle link status d =>
    refine ⟨rfl, rfl, rfl, ?_⟩
    change (d.content.deprecatedMessage.map _).map _ = _
    rw [List.map_map]
    exact List.map_congr_left fun e _ => e.withoutStatus_settle link.place status

theorem Edits.keepsMarks (h : d.Edits d₁) : d.KeepsMarks d₁ := by
  induction h with
  | refl => exact ⟨rfl, rfl, rfl, rfl⟩
  | tail _ hedit ih => exact ih.trans hedit.keepsMarks

end Documentation

/-! ## Reaching -/

section
variable {frame : Frame} {w w₁ : Workspace} {a b id : DocId} {e : Edge}

namespace Workspace

theorem Reaches.head (he : w.Inherits e) (h : w.Reaches e.target b) : w.Reaches e.source b := by
  obtain ⟨edges, hwalk⟩ := h
  exact ⟨e :: edges, .cons he hwalk⟩

/-- What requests lead to has every property that they hand on. -/
theorem Reaches.keeps {P : DocId → Prop} (hP : ∀ {e}, w.Inherits e → P e.source → P e.target)
    (h : w.Reaches a b) (ha : P a) : P b := by
  obtain ⟨edges, hwalk⟩ := h
  induction hwalk with
  | nil => exact ha
  | cons hedge _ ih => exact ih (hP hedge ha)

/-- A request that is queued later on was queued before, and leads where it led. -/
theorem Evolves.inherits (h : w.Evolves w₁) (he : w₁.Inherits e) : w.Inherits e := by
  obtain ⟨hqueued, kind, hlead⟩ := inherits_iff.1 he
  refine inherits_iff.2 ⟨(h.documents e.source).requests.subset hqueued, kind, ?_⟩
  rw [← hlead, h.lead]

theorem Evolves.reaches (h : w.Evolves w₁) (hreaches : w₁.Reaches a b) : w.Reaches a b := by
  obtain ⟨edges, hwalk⟩ := hreaches
  induction hwalk with
  | nil => exact .refl _
  | cons hedge _ ih => exact .head (h.inherits hedge) ih

/-- The first request of a queue is an edge if it leads to the package. -/
theorem inherits_of_pending {content : Text} {rest : List Text} {kind : ItemKind} {source : DocId}
    (hpending : (w.document id).pendingInheritDocs = content :: rest)
    (hlead : (w.popped id).lead content = .own kind source) : w.Inherits ⟨id, content, source⟩ := by
  refine inherits_iff.2 ⟨?_, kind, ?_⟩
  · rw [hpending]
    exact List.mem_cons_self
  · rw [← hlead, (evolves_popped w id).lead]

end Workspace

/-- A piece of work leaves every documentation as it is that no requests lead to from the one that
it is about. -/
theorem Performs.document_eq_of_not_reaches (h : Performs frame w w₁) {d : DocId}
    (hd : ¬ w.Reaches frame.document d) : w₁.document d = w.document d := by
  -- what is reached from a later workspace is reached from this one, so `hd` goes along
  induction h with
  | @enter id w w₁ _ _ ih =>
    rw [ih (mt (evolves_begun w id).reaches hd)]
    exact (touches_begun w id).document_ne fun heq => hd (heq ▸ .refl _)
  | @conclude id w _ =>
    exact (touches_concluded w id).document_ne fun heq => hd (heq ▸ .refl _)
  | @answer id content rest w w₁ _ _ _ ih =>
    have hevolves := (evolves_popped w id).trans (evolves_answered _ id content)
    have hne : d ≠ id := fun heq => hd (heq ▸ .refl _)
    rw [ih (mt hevolves.reaches hd), (touches_answered _ id content).document_ne hne,
      (touches_popped w id).document_ne hne]
  | @force id content rest kind source w w₁ w₂ hpending hlead henter _ ihenter ihcopy =>
    have hpopped := evolves_popped w id
    have hsource : ¬ (w.popped id).Reaches source d := fun hreaches =>
      hd (.head (inherits_of_pending hpending hlead) (hpopped.reaches hreaches))
    rw [ihcopy (mt (hpopped.trans henter.evolves).reaches hd), ihenter hsource]
    exact (touches_popped w id).document_ne fun heq => hd (heq ▸ .refl _)
  | @reuse id content rest kind source w w₁ _ _ _ _ ih =>
    rw [ih (mt (evolves_popped w id).reaches hd)]
    exact (touches_popped w id).document_ne fun heq => hd (heq ▸ .refl _)
  | @copy id kind source w w₁ _ ih =>
    rw [ih (mt (evolves_copied w id kind source).reaches hd)]
    exact (touches_copied w id kind source).document_ne fun heq => hd (heq ▸ .refl _)

/-- The completion of a documentation that is not begun ends, and completes it. Every documentation
that requests to inherit do not lead to stays exactly as it was. Of the others the stage of support,
the flags, whether they inherit, and the message of a deprecation stay, up to the statuses of links.
The items, what is known of other packages, and how many documentations there are stay too. -/
theorem Action.complete_keeps_unreached (hq : w.Quiet)
    (hstate : (w.document id).state = .unvisited) :
    ∃ w₁, (complete id).run w = (.ok (), w₁) ∧ (w₁.document id).state = .done ∧
      (∀ d, ¬ w.Reaches id d → w₁.document d = w.document d) ∧
      (∀ d, (w.document d).KeepsMarks (w₁.document d)) ∧
      w₁.package = w.package ∧ w₁.external = w.external ∧
      w₁.documents.size = w.documents.size := by
  obtain ⟨w₁, hperforms, hrun⟩ := run_complete hq hstate
  have hevolves := hperforms.evolves
  refine ⟨w₁, hrun, hperforms.done, fun d => hperforms.document_eq_of_not_reaches, fun d => ?_,
    hevolves.package, congrArg Setting.external hevolves.setting, hevolves.size⟩
  rcases Nat.lt_or_ge d w.documents.size with hlt | hge
  · have hedits := EditsOnly.complete id w
    rw [hrun] at hedits
    exact (hedits.documents d hlt).keepsMarks
  · rw [document_of_size_le hge, document_of_size_le (hevolves.size ▸ hge)]
    exact ⟨rfl, rfl, rfl, rfl⟩

end

/-- A function that inherits from another one, and a third that inherits from the first. -/
def Workspace.queueOfThree : Workspace where
  package := {
    name := some "p".toList
    exports := [("f".toList, .mk "f".toList .function 0 []),
      ("g".toList, .mk "g".toList .function 1 []),
      ("h".toList, .mk "h".toList .function 2 [])] }
  identity := none
  config := {}
  documents := #[{ pendingInheritDocs := ["g".toList] },
    { content.summary := Element.ofText "G.".toList }, { pendingInheritDocs := ["f".toList] }]

/-- The completion of a function does not touch the one that inherits from it. -/
theorem Action.complete_queueOfThree_keeps : queueOfThree.Quiet ∧
    (queueOfThree.document 0).state = .unvisited ∧ ¬ queueOfThree.Reaches 0 2 ∧
    ∃ w₁, (complete 0).run queueOfThree = (.ok (), w₁) ∧
      w₁.document 2 = queueOfThree.document 2 := by
  have hunreached : ¬ queueOfThree.Reaches 0 2 := by
    intro hreaches
    have hlt : 2 < 2 := hreaches.keeps (P := (· < 2)) (fun {e} he hsource => by
      obtain ⟨hqueued, kind, hlead⟩ := inherits_iff.1 he
      obtain ⟨source, content, target⟩ := e
      interval_cases source
      · obtain rfl : content = "g".toList := List.mem_singleton.1 hqueued
        cases hlead.symm.trans (by decide : queueOfThree.lead "g".toList = .own .function 1)
        decide
      · cases hqueued) (by decide)
    exact absurd hlt (by decide)
  have hstate : (queueOfThree.document 0).state = .unvisited := by decide
  obtain ⟨w₁, hrun, -, hkeeps, -⟩ := complete_keeps_unreached (by decide) hstate
  exact ⟨by decide, hstate, hunreached, w₁, hrun, hkeeps 2 hunreached⟩

end ApiDoc
