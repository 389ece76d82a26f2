import ApiDoc.Proofs.Inheritance.Graph

/-!
# Stages of a completion

The completion of a package walks along its inheritance graph. `Visiting w₀ w frame` says where it
is: `w` is a stage in the completion of `w₀`, about to do the piece of work `frame`; from every
documentation in progress a walk leads to the one at hand, and what is not begun is as it was.

What a completion comes to is shown by invariants. `Invariant w₀ Begun Done` lists what has to be
checked, step by step, for a property of the documentation at hand and a property of the completed
ones; `Invariant.performs` and `Invariant.completes` do the induction over the work, with every
order of completion and every graph in it, once for all invariants.
-/

namespace ApiDoc

open Workspace

/-- A stage in the completion of a workspace, with the piece of work that comes next. -/
structure Visiting (w₀ w : Workspace) (frame : Frame) : Prop where
  evolves : w₀.Evolves w
  untouched : ∀ d, (w.document d).state = .unvisited → w.document d = w₀.document d
  active : (∃ id, frame = .enter id) ∨ (w.document frame.document).state = .inProgress
  reaches : ∀ d, (w.document d).state = .inProgress → w₀.Reaches d frame.document

/-- A stage in the completion of a workspace at which nothing is in progress. -/
structure Resting (w₀ w : Workspace) : Prop where
  evolves : w₀.Evolves w
  untouched : ∀ d, (w.document d).state = .unvisited → w.document d = w₀.document d
  idle : ∀ d, (w.document d).state ≠ .inProgress

/-- A later workspace in which what was completed stays as it is. -/
structure Workspace.Preserves (w w₁ : Workspace) : Prop where
  evolves : w.Evolves w₁
  done : ∀ d, (w.document d).state = .done → w₁.document d = w.document d

section
variable {w₀ w w₁ w₂ : Workspace} {id source : DocId} {kind : ItemKind} {content : Text}
  {rest : List Text} {frame : Frame}

namespace Workspace.Preserves

theorem refl (w : Workspace) : w.Preserves w where
  evolves := .refl w
  done _ _ := rfl

theorem trans (h₁ : w.Preserves w₁) (h₂ : w₁.Preserves w₂) : w.Preserves w₂ where
  evolves := h₁.evolves.trans h₂.evolves
  done d hd := (h₂.done d (h₁.done d hd ▸ hd)).trans (h₁.done d hd)

/-- What was completed stays completed. -/
theorem state_done (h : w.Preserves w₁) {d : DocId} (hd : (w.document d).state = .done) :
    (w₁.document d).state = .done :=
  h.done d hd ▸ hd

/-- A change to a documentation that is not completed leaves the completed ones as they are. -/
theorem of_touches {f : Documentation → Documentation} (h : Touches id f w w₁)
    (hf : ∀ d : Documentation, d.Evolves (f d)) (hid : (w.document id).state ≠ .done) :
    w.Preserves w₁ where
  evolves := h.evolves hf
  done d hd := by
    refine h.document_ne ?_
    rintro rfl
    exact hid hd

end Workspace.Preserves

theorem preserves_begun (hstate : (w.document id).state = .unvisited) : w.Preserves (w.begun id) :=
  .of_touches (touches_begun w id) (fun d => .begin d _) (by rw [hstate]; decide)

theorem preserves_popped (hstate : (w.document id).state = .inProgress) :
    w.Preserves (w.popped id) :=
  .of_touches (touches_popped w id) .dropInheritDoc (by rw [hstate]; decide)

theorem preserves_answered (hstate : (w.document id).state = .inProgress) (content : Text) :
    w.Preserves (w.answered id content) :=
  .of_touches (touches_answered w id content) (fun d => .answer d _ _) (by rw [hstate]; decide)

theorem preserves_copied (hstate : (w.document id).state = .inProgress) (kind : ItemKind)
    (source : DocId) : w.Preserves (w.copied id kind source) :=
  .of_touches (touches_copied w id kind source) (fun d => .inherit d _) (by rw [hstate]; decide)

theorem preserves_concluded (hstate : (w.document id).state = .inProgress) :
    w.Preserves (w.concluded id) :=
  .of_touches (touches_concluded w id) (fun d => .conclude d _) (by rw [hstate]; decide)

/-- Work on a documentation in progress, or on one that is not begun, leaves the completed ones as
they are. -/
theorem Performs.preserves (h : Performs frame w w₁) (hv : Visiting w₀ w frame) :
    w.Preserves w₁ where
  evolves := h.evolves
  done d hd := by
    have hne : d ≠ frame.document := by
      rintro rfl
      rcases hv.active with ⟨id, rfl⟩ | hactive
      · cases h with
        | enter hstate _ =>
          rw [Frame.document, hstate] at hd
          cases hd
      · rw [hactive] at hd
        cases hd
    exact h.document_eq hne (by rw [hd]; decide)

/-! ## The rules keep a stage a stage -/

namespace Visiting

theorem inProgress (h : Visiting w₀ w (.drain id)) : (w.document id).state = .inProgress :=
  h.active.resolve_left nofun

theorem inProgress_of_copy (h : Visiting w₀ w (.copy id kind source)) :
    (w.document id).state = .inProgress :=
  h.active.resolve_left nofun

/-- A change to a documentation in progress that stays in progress. -/
theorem touched {f : Documentation → Documentation} (h : Visiting w₀ w frame)
    (htouches : Touches id f w w₁) (hf : ∀ d : Documentation, d.Evolves (f d))
    (hstate : ∀ d, (w₁.document d).state = (w.document d).state)
    (hid : (w.document id).state = .inProgress) : Visiting w₀ w₁ frame where
  evolves := h.evolves.trans (htouches.evolves hf)
  untouched d hd := by
    rw [hstate] at hd
    rw [htouches.document_ne, h.untouched d hd]
    rintro rfl
    rw [hid] at hd
    cases hd
  active := by
    rw [hstate]
    exact h.active
  reaches d hd := h.reaches d (hstate d ▸ hd)

theorem begun (h : Visiting w₀ w (.enter id)) (hstate : (w.document id).state = .unvisited) :
    Visiting w₀ (w.begun id) (.drain id) where
  evolves := h.evolves.trans (preserves_begun hstate).evolves
  untouched d hd := by
    have hne : d ≠ id := by
      rintro rfl
      rw [state_begun hstate] at hd
      cases hd
    rw [(touches_begun w id).document_ne hne] at hd ⊢
    exact h.untouched d hd
  active := .inr (state_begun hstate)
  reaches d hd := by
    by_cases hne : d = id
    · subst hne
      exact .refl d
    · rw [(touches_begun w id).document_ne hne] at hd
      exact h.reaches d hd

theorem popped (h : Visiting w₀ w (.drain id)) : Visiting w₀ (w.popped id) (.drain id) :=
  h.touched (touches_popped w id) .dropInheritDoc (state_popped w id) h.inProgress

theorem answered (h : Visiting w₀ w (.drain id)) (content : Text) :
    Visiting w₀ (w.answered id content) (.drain id) :=
  h.touched (touches_answered w id content) (fun d => .answer d _ _) (state_answered w id content)
    h.inProgress

theorem copied (h : Visiting w₀ w (.copy id kind source)) :
    Visiting w₀ (w.copied id kind source) (.drain id) := by
  have hcopied := h.touched (touches_copied w id kind source) (fun d => .inherit d _)
    (state_copied w id kind source) h.inProgress_of_copy
  exact ⟨hcopied.evolves, hcopied.untouched, .inr hcopied.inProgress_of_copy, hcopied.reaches⟩

theorem lead_popped (h : Visiting w₀ w (.drain id)) (content : Text) :
    (w.popped id).lead content = w.lead content :=
  (preserves_popped h.inProgress).evolves.lead content

/-- A request that comes up is an edge of the graph. -/
theorem inherits (h : Visiting w₀ w (.drain id))
    (hpending : (w.document id).pendingInheritDocs = content :: rest)
    (hlead : w.lead content = .own kind source) : w₀.Inherits ⟨id, content, source⟩ := by
  refine inherits_iff.2 ⟨?_, kind, h.evolves.lead content ▸ hlead⟩
  exact (h.evolves.documents id).requests.subset (hpending ▸ List.mem_cons_self)

/-- A request that leads to a documentation in progress lies on a cycle. -/
theorem exists_cycle (h : Visiting w₀ w (.drain id))
    (hpending : (w.document id).pendingInheritDocs = content :: rest)
    (hlead : w.lead content = .own kind source)
    (hstate : (w.document source).state = .inProgress) :
    ∃ edges, w₀.IsCycle (⟨id, content, source⟩ :: edges) :=
  (h.inherits hpending hlead).exists_cycle (h.reaches source hstate)

/-- What is completed first is entered from the documentation at hand. -/
theorem forced (h : Visiting w₀ w (.drain id)) (hedge : w₀.Inherits ⟨id, content, source⟩) :
    Visiting w₀ (w.popped id) (.enter source) where
  evolves := h.popped.evolves
  untouched := h.popped.untouched
  active := .inl ⟨source, rfl⟩
  reaches d hd := (h.popped.reaches d hd).tail hedge

theorem reused (h : Visiting w₀ w (.drain id)) :
    Visiting w₀ (w.popped id) (.copy id kind source) :=
  ⟨h.popped.evolves, h.popped.untouched, .inr h.popped.inProgress, h.popped.reaches⟩

/-- The documentation at hand is not touched while another one is completed. -/
theorem document_forced (h : Visiting w₀ w (.drain id))
    (hperforms : Performs (.enter source) (w.popped id) w₁) :
    w₁.document id = (w.popped id).document id := by
  have hactive := h.popped.inProgress
  have hne : id ≠ source := by
    rintro rfl
    cases hperforms with
    | enter hstate _ =>
      rw [hstate] at hactive
      cases hactive
  exact hperforms.document_eq hne (by rw [hactive]; decide)

theorem returned (h : Visiting w₀ w (.drain id))
    (hperforms : Performs (.enter source) (w.popped id) w₁) :
    Visiting w₀ w₁ (.copy id kind source) where
  evolves := h.popped.evolves.trans hperforms.evolves
  untouched d hd := by
    have hsame := hperforms.document_eq_of_unvisited hd
    rw [hsame] at hd ⊢
    exact h.popped.untouched d hd
  active := by
    refine .inr ?_
    change (w₁.document id).state = _
    rw [h.document_forced hperforms]
    exact h.popped.inProgress
  reaches d hd := by
    rw [(hperforms.document_eq_of_inProgress hd).2] at hd
    exact h.popped.reaches d hd

/-! What the rules make of the documentation at hand. -/

theorem document_begun (hstate : (w.document id).state = .unvisited) :
    (w.begun id).document id = ((w.document id).withState .inProgress).settleLinks w.verdict :=
  (touches_begun w id).document_self (lt_size_of_state_ne (by rw [hstate]; decide))

theorem document_popped (h : Visiting w₀ w (.drain id)) :
    (w.popped id).document id = (w.document id).dropInheritDoc :=
  (touches_popped w id).document_self (lt_size_of_state_ne (by rw [h.inProgress]; decide))

theorem document_answered (h : Visiting w₀ w (.drain id)) (content : Text) :
    ((w.popped id).answered id content).document id =
      (w.document id).dropInheritDoc.answer content (w.lead content) := by
  rw [(touches_answered _ id content).document_self
    (lt_size_of_state_ne (by rw [h.popped.inProgress]; decide)), h.document_popped, h.lead_popped]

theorem document_copied (h : Visiting w₀ w (.drain id))
    (hsame : w₁.document id = (w.popped id).document id) (kind : ItemKind) (source : DocId) :
    (w₁.copied id kind source).document id =
      (w.document id).dropInheritDoc.inherit (w₁.view (.own kind source)) := by
  rw [(touches_copied w₁ id kind source).document_self
    (lt_size_of_state_ne (by rw [hsame, h.popped.inProgress]; decide)), hsame, h.document_popped]

theorem document_concluded (h : Visiting w₀ w (.drain id)) :
    (w.concluded id).document id = (w.document id).conclude w.config.enforceInheritedDeprecation :=
  (touches_concluded w id).document_self (lt_size_of_state_ne (by rw [h.inProgress]; decide))

end Visiting

namespace Resting

/-- Before anything is begun nothing is in progress. -/
theorem of_fresh (hw : w.Fresh) : Resting w w where
  evolves := .refl w
  untouched _ _ := rfl
  idle d hd := by
    rw [hw d (lt_size_of_state_ne (by rw [hd]; decide))] at hd
    cases hd

theorem enter (h : Resting w₀ w) (id : DocId) : Visiting w₀ w (.enter id) where
  evolves := h.evolves
  untouched := h.untouched
  active := .inl ⟨id, rfl⟩
  reaches d hd := absurd hd (h.idle d)

theorem performed (h : Resting w₀ w) (hperforms : Performs frame w w₁) : Resting w₀ w₁ where
  evolves := h.evolves.trans hperforms.evolves
  untouched d hd := by
    have hsame := hperforms.document_eq_of_unvisited hd
    rw [hsame] at hd ⊢
    exact h.untouched d hd
  idle d hd := by
    rw [(hperforms.document_eq_of_inProgress hd).2] at hd
    exact h.idle d hd

theorem closed (h : Resting w₀ w) : Resting w₀ { w with isComplete := true } where
  evolves := h.evolves.trans (evolves_close w)
  untouched := h.untouched
  idle := h.idle

end Resting

/-! ## Invariants -/

/-- What has to be checked for a property of the documentation at hand, `Begun`, and a property of
the completed documentations, `Done`: a documentation that is begun has the first, each way of
meeting a request keeps it, the end of the work turns it into the second, and that one lasts. -/
structure Invariant (w₀ : Workspace) (Begun Done : Workspace → DocId → Prop) : Prop where
  outside : ∀ {w d}, w₀.Evolves w → w₀.documents.size ≤ d → Done w d
  begin : ∀ {w id}, Visiting w₀ w (.enter id) → (w.document id).state = .unvisited →
    Begun (w.begun id) id
  answer : ∀ {w id content rest}, Visiting w₀ w (.drain id) →
    (w.document id).pendingInheritDocs = content :: rest → w.AnswersNow content →
    Begun w id → Begun ((w.popped id).answered id content) id
  inherit : ∀ {w w₁ id content rest kind source}, Visiting w₀ w (.drain id) →
    (w.document id).pendingInheritDocs = content :: rest → w.lead content = .own kind source →
    (w.popped id).Preserves w₁ → w₁.document id = (w.popped id).document id →
    (w₁.document source).state = .done → Done w₁ source →
    Begun w id → Begun (w₁.copied id kind source) id
  conclude : ∀ {w id}, Visiting w₀ w (.drain id) → (w.document id).pendingInheritDocs = [] →
    Begun w id → Done (w.concluded id) id
  stable : ∀ {w w₁ d}, w₀.Evolves w → w.Preserves w₁ → (w.document d).state = .done →
    Done w d → Done w₁ d

namespace Invariant
variable {Begun Done : Workspace → DocId → Prop}

/-- What holds of the documentation at hand before a piece of work; a copy is held to it after the
copying. -/
def AtHand (Begun : Workspace → DocId → Prop) (w : Workspace) : Frame → Prop
  | .enter _ => True
  | .drain id => Begun w id
  | .copy id kind source => Begun (w.copied id kind source) id

/-- Every completed documentation has the property. -/
def AllDone (Done : Workspace → DocId → Prop) (w : Workspace) : Prop :=
  ∀ d, (w.document d).state = .done → Done w d

/-- A change that completes nothing. -/
theorem allDone_of_preserves (hinv : Invariant w₀ Begun Done) (hw : w₀.Evolves w)
    (hpreserves : w.Preserves w₁) (hdone : AllDone Done w)
    (hstate : ∀ d, (w₁.document d).state = .done → (w.document d).state = .done) :
    AllDone Done w₁ := fun d hd =>
  hinv.stable hw hpreserves (hstate d hd) (hdone d (hstate d hd))

/-- Work keeps an invariant up. -/
theorem performs (hinv : Invariant w₀ Begun Done) (h : Performs frame w w₁)
    (hv : Visiting w₀ w frame) (hdone : AllDone Done w) (hbegun : AtHand Begun w frame) :
    AllDone Done w₁ := by
  induction h with
  | @enter id w w₁ hstate _ ih =>
    refine ih (hv.begun hstate) ?_ (hinv.begin hv hstate)
    refine hinv.allDone_of_preserves hv.evolves (preserves_begun hstate) hdone fun d hd => ?_
    have hne : d ≠ id := by
      rintro rfl
      rw [state_begun hstate] at hd
      cases hd
    rwa [(touches_begun w id).document_ne hne] at hd
  | @conclude id w hpending =>
    intro d hd
    have hpreserves := preserves_concluded hv.inProgress
    by_cases hne : d = id
    · subst hne
      exact hinv.conclude hv hpending hbegun
    · rw [(touches_concluded w id).document_ne hne] at hd
      exact hinv.stable hv.evolves hpreserves hd (hdone d hd)
  | @answer id content rest w w₁ hpending hnow _ ih =>
    have hnow' : w.AnswersNow content := fun kind source hlead => by
      have hactive := hnow kind source (hv.lead_popped content ▸ hlead)
      rwa [state_popped] at hactive
    refine ih (hv.popped.answered content) ?_ (hinv.answer hv hpending hnow' hbegun)
    refine hinv.allDone_of_preserves hv.evolves ((preserves_popped hv.inProgress).trans
      (preserves_answered hv.popped.inProgress content)) hdone fun d hd => ?_
    rwa [state_answered, state_popped] at hd
  | @force id content rest kind source w w₁ w₂ hpending hlead henter hcopy ihenter ihcopy =>
    rw [hv.lead_popped] at hlead
    have hforced := hv.forced (hv.inherits hpending hlead)
    have hdone₁ := ihenter hforced (hinv.allDone_of_preserves hv.evolves
      (preserves_popped hv.inProgress) hdone fun d hd => state_popped w id d ▸ hd) trivial
    exact ihcopy (hv.returned henter) hdone₁ (hinv.inherit hv hpending hlead
      (henter.preserves hforced) (hv.document_forced henter) henter.done
      (hdone₁ source henter.done) hbegun)
  | @reuse id content rest kind source w w₁ hpending hlead hstate hcopy ih =>
    rw [hv.lead_popped] at hlead
    have hdone₁ := hinv.allDone_of_preserves hv.evolves (preserves_popped hv.inProgress) hdone
      fun d hd => state_popped w id d ▸ hd
    exact ih hv.reused hdone₁ (hinv.inherit hv hpending hlead (.refl _) rfl hstate
      (hdone₁ source hstate) hbegun)
  | @copy id kind source w w₁ _ ih =>
    refine ih hv.copied ?_ hbegun
    refine hinv.allDone_of_preserves hv.evolves (preserves_copied hv.inProgress_of_copy kind source)
      hdone fun d hd => ?_
    rwa [state_copied] at hd

/-- Calls to complete keep an invariant up. -/
theorem completes (hinv : Invariant w₀ Begun Done) {ids : List DocId} (h : Completes ids w w₁)
    (hw : Resting w₀ w) (hdone : AllDone Done w) : AllDone Done w₁ := by
  induction h with
  | nil => exact hdone
  | enter hperforms _ ih =>
    exact ih (hw.performed hperforms) (hinv.performs hperforms (hw.enter _) hdone trivial)
  | skip _ _ ih => exact ih hw hdone
  | close _ ih =>
    exact ih hw.closed (hinv.allDone_of_preserves hw.evolves ⟨evolves_close _, fun _ _ => rfl⟩
      hdone fun _ hd => hd)

/-- If nothing was begun before, every documentation that calls complete has what the invariant
says. -/
theorem of_fresh (hinv : Invariant w₀ Begun Done) (hw : w₀.Fresh) {ids : List DocId}
    (h : Completes ids w₀ w₁) : AllDone Done w₁ := by
  refine hinv.completes h (.of_fresh hw) fun d hd => hinv.outside (.refl w₀) ?_
  refine Nat.le_of_not_lt fun hlt => ?_
  rw [hw d hlt] at hd
  cases hd

end Invariant

end

end ApiDoc
