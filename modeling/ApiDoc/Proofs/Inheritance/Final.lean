import ApiDoc.Proofs.Inheritance.Meaning

/-!
# Completed documentations as a whole

What the completion makes of a documentation from which no cycle is reached: its links are looked
up, each request is met by what its target shows in the end (`Workspace.fulfil`), in the order of
the comment, and the work is concluded. This says every field, the problems in their order among
them (`final_invariant`); it mentions neither the order of the completion nor what was reported
in between about other documentations.
-/

namespace ApiDoc

open Workspace

namespace Workspace

/-- The documentation after a request was met, in a workspace that shows the target of the request
as it is in the end. -/
def fulfil (w : Workspace) (d : Documentation) (content : Text) : Documentation :=
  match w.lead content with
  | .own kind source => d.dropInheritDoc.inherit (w.view (.own kind source))
  | lead => d.dropInheritDoc.answer content lead

/-- A documentation after it was begun and its links were looked up. -/
def opening (w : Workspace) (id : DocId) : Documentation :=
  ((w.document id).withState .inProgress).settleLinks w.verdict

/-- Some requests of a documentation were met in the completion of `w₀` up to `w`: their targets are
completed, and the documentation is what they make of it. -/
structure Fulfilled (w₀ w : Workspace) (met : List Text) (id : DocId) : Prop where
  targets : ∀ content ∈ met, ∀ kind source, w₀.lead content = .own kind source →
    (w.document source).state = .done
  document : w.document id = met.foldl w.fulfil (w₀.opening id)

/-- The requests that are gone from the queue of an acyclic documentation were met. -/
def FulfilledInOrder (w₀ w : Workspace) (id : DocId) : Prop :=
  w₀.Acyclic id → ∃ met, w₀.Fulfilled w met id ∧
    (w₀.document id).pendingInheritDocs = met ++ (w.document id).pendingInheritDocs

/-- An acyclic documentation is as the completion leaves it: its requests were met, and the work was
concluded. -/
structure Final (w₀ w : Workspace) (id : DocId) : Prop where
  targets : ∀ content ∈ (w₀.document id).pendingInheritDocs, ∀ kind source,
    w₀.lead content = .own kind source → (w.document source).state = .done
  document : w.document id = ((w₀.document id).pendingInheritDocs.foldl w.fulfil
    (w₀.opening id)).conclude w₀.config.enforceInheritedDeprecation

end Workspace

section
variable {w₀ w w₁ : Workspace} {id source : DocId} {kind : ItemKind} {content : Text}
  {met rest : List Text} {d : Documentation}

theorem Workspace.fulfil_own (h : w.lead content = .own kind source) :
    w.fulfil d content = d.dropInheritDoc.inherit (w.view (.own kind source)) := by
  unfold fulfil
  rw [h]

theorem Workspace.fulfil_answer (h : ∀ kind source, w.lead content ≠ .own kind source) :
    w.fulfil d content = d.dropInheritDoc.answer content (w.lead content) := by
  unfold fulfil
  split
  · next kind source hlead => exact absurd hlead (h kind source)
  · rfl

/-- A request is met in the same way later on if its target is completed. -/
theorem Workspace.Preserves.fulfil (h : w.Preserves w₁)
    (htarget : ∀ kind source, w.lead content = .own kind source →
      (w.document source).state = .done) : w₁.fulfil d content = w.fulfil d content := by
  unfold Workspace.fulfil
  rw [h.evolves.lead]
  split
  · next kind source hlead => simp only [view, h.done source (htarget kind source hlead)]
  · rfl

namespace Workspace.Fulfilled

/-- The requests that were met are met in the same way later on. -/
theorem foldl_fulfil (h : w₀.Fulfilled w met id) (hw : w₀.Evolves w) (hpreserves : w.Preserves w₁)
    (d : Documentation) : met.foldl w₁.fulfil d = met.foldl w.fulfil d := by
  refine List.foldl_rel (r := Eq) rfl fun content hmem d d' heq => ?_
  rw [heq]
  refine hpreserves.fulfil fun kind source hlead => ?_
  exact h.targets content hmem kind source (hw.lead content ▸ hlead)

/-- One more request is met. -/
theorem step (h : w₀.Fulfilled w met id) (hw : w₀.Evolves w) (hpreserves : w.Preserves w₁)
    (htarget : ∀ kind source, w₀.lead content = .own kind source →
      (w₁.document source).state = .done)
    (hdocument : w₁.document id = w₁.fulfil (w.document id) content) :
    w₀.Fulfilled w₁ (met ++ [content]) id where
  targets content' hmem kind source hlead := by
    rcases List.mem_append.1 hmem with hmem | hmem
    · exact hpreserves.state_done (h.targets content' hmem kind source hlead)
    · rw [List.mem_singleton.1 hmem] at hlead
      exact htarget kind source hlead
  document := by
    rw [List.foldl_append, h.foldl_fulfil hw hpreserves, ← h.document, hdocument]
    rfl

end Workspace.Fulfilled

/-- The first request in the queue is met. -/
theorem Workspace.FulfilledInOrder.step (h : w₀.FulfilledInOrder w id) (hw : w₀.Evolves w)
    (hpreserves : w.Preserves w₁)
    (hpending : (w.document id).pendingInheritDocs = content :: rest)
    (hrest : (w₁.document id).pendingInheritDocs = rest)
    (htarget : ∀ kind source, w₀.lead content = .own kind source →
      (w₁.document source).state = .done)
    (hdocument : w₁.document id = w₁.fulfil (w.document id) content) :
    w₀.FulfilledInOrder w₁ id := by
  intro hacyclic
  obtain ⟨met, hfulfilled, hqueue⟩ := h hacyclic
  refine ⟨met ++ [content], hfulfilled.step hw hpreserves htarget hdocument, ?_⟩
  rw [hqueue, hpending, hrest, List.append_assoc]
  rfl

/-- All through a completion, a documentation is what the requests that were met make of it. -/
theorem final_invariant (w₀ : Workspace) : Invariant w₀ w₀.FulfilledInOrder fun w id =>
    id < w₀.documents.size → w₀.Acyclic id → w₀.Final w id where
  outside _ hd := fun hlt => absurd hlt (Nat.not_lt.2 hd)
  begin {w id} hv hstate := by
    intro _
    have hdocument := Visiting.document_begun hstate
    rw [hv.untouched id hstate, hv.evolves.verdict] at hdocument
    refine ⟨[], ⟨nofun, hdocument⟩, ?_⟩
    rw [pendingInheritDocs_begun, hv.untouched id hstate]
    rfl
  answer {w id content rest} hv hpending hnow hbegun := by
    intro hacyclic
    have hown := hv.not_own hacyclic hpending hnow
    have hpreserves := (preserves_popped hv.inProgress).trans
      (preserves_answered hv.popped.inProgress content)
    refine hbegun.step hv.evolves hpreserves hpending ?_ ?_ ?_ hacyclic
    · rw [pendingInheritDocs_answered, pendingInheritDocs_popped hpending]
    · intro kind source hlead
      exact absurd (hv.evolves.lead content ▸ hlead) (hown kind source)
    · rw [hv.document_answered, hpreserves.fulfil fun kind source hlead =>
        absurd hlead (hown kind source)]
      exact (fulfil_answer hown).symm
  inherit {w w₁ id content rest kind source} hv hpending hlead hpreserves hsame hstate _
      hbegun := by
    have hactive : (w₁.document id).state = .inProgress := by
      rw [hsame]
      exact hv.popped.inProgress
    have hlater := (preserves_popped hv.inProgress).trans hpreserves
    have hcopied := preserves_copied hactive kind source
    have hlead₁ : w₁.lead content = .own kind source := hlater.evolves.lead content ▸ hlead
    refine hbegun.step hv.evolves (hlater.trans hcopied) hpending ?_ ?_ ?_
    · rw [pendingInheritDocs_copied, hsame, pendingInheritDocs_popped hpending]
    · intro kind' source' hlead'
      rw [← hv.evolves.lead, hlead] at hlead'
      cases hlead'
      exact hcopied.state_done hstate
    · rw [hv.document_copied hsame, hcopied.fulfil fun kind' source' hlead' => ?_,
        fulfil_own hlead₁]
      rw [hlead₁] at hlead'
      cases hlead'
      exact hstate
  conclude {w id} hv hpending hbegun := by
    intro _ hacyclic
    obtain ⟨met, hfulfilled, hqueue⟩ := hbegun hacyclic
    rw [hpending, List.append_nil] at hqueue
    have hconcluded := preserves_concluded hv.inProgress
    refine ⟨fun content hmem kind source hlead => ?_, ?_⟩
    · exact hconcluded.state_done (hfulfilled.targets content (hqueue ▸ hmem) kind source hlead)
    · rw [hv.document_concluded, hv.evolves.config, hqueue,
        hfulfilled.foldl_fulfil hv.evolves hconcluded, ← hfulfilled.document]
  stable {w w₁ id} hw hpreserves hstate hdone := by
    intro hlt hacyclic
    obtain ⟨htargets, hdocument⟩ := hdone hlt hacyclic
    have hlater := hpreserves.evolves
    refine ⟨fun content hmem kind source hlead =>
      hpreserves.state_done (htargets content hmem kind source hlead), ?_⟩
    rw [hpreserves.done id hstate, hdocument]
    refine congrArg _ (List.foldl_rel (r := Eq) rfl fun content hmem d d' heq => ?_)
    rw [heq]
    refine (hpreserves.fulfil fun kind source hlead => ?_).symm
    exact htargets content hmem kind source (hw.lead content ▸ hlead)

end

end ApiDoc
