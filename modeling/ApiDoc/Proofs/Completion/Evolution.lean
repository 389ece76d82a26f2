import ApiDoc.Proofs.Workspace.Quiet

/-!
# What completion keeps

The completion of a package never changes the name, the stage of support or the flags of a
documentation, nor whether its comment asks to inherit; problems are only added at the end, and the
queues are only taken from at the front (`Documentation.Evolves`). It never changes the setting of a
workspace either (`Workspace.Evolves`), so a reference leads to the same item all along.
-/

namespace ApiDoc

/-- A documentation as it may be later on in the completion. -/
structure Documentation.Evolves (d d₁ : Documentation) : Prop where
  itemName : d₁.itemName = d.itemName
  releaseTag : d₁.releaseTag = d.releaseTag
  flags : d₁.flags = d.flags
  isInherited : d₁.isInherited = d.isInherited
  problems : d.problems <+: d₁.problems
  links : d₁.pendingLinks <:+ d.pendingLinks
  requests : d₁.pendingInheritDocs <:+ d.pendingInheritDocs

/-- The problems of a documentation that it did not have yet at an earlier time. -/
def Documentation.newProblems (d d₁ : Documentation) : List Problem :=
  d₁.problems.drop d.problems.length

theorem Documentation.newProblems_self (d : Documentation) : d.newProblems d = [] :=
  List.drop_length

namespace Documentation.Evolves
variable {d d₁ d₂ : Documentation}

theorem refl (d : Documentation) : d.Evolves d where
  itemName := rfl
  releaseTag := rfl
  flags := rfl
  isInherited := rfl
  problems := List.prefix_rfl
  links := List.suffix_rfl
  requests := List.suffix_rfl

theorem trans (h₁ : d.Evolves d₁) (h₂ : d₁.Evolves d₂) : d.Evolves d₂ where
  itemName := h₂.itemName.trans h₁.itemName
  releaseTag := h₂.releaseTag.trans h₁.releaseTag
  flags := h₂.flags.trans h₁.flags
  isInherited := h₂.isInherited.trans h₁.isInherited
  problems := h₁.problems.trans h₂.problems
  links := h₂.links.trans h₁.links
  requests := h₂.requests.trans h₁.requests

/-- What is reported in two stretches of time is what is reported in the first and then in the
second. -/
theorem newProblems_append (h₁ : d.Evolves d₁) (h₂ : d₁.Evolves d₂) :
    d.newProblems d₂ = d.newProblems d₁ ++ d₁.newProblems d₂ := by
  obtain ⟨new₁, hnew₁⟩ := h₁.problems
  obtain ⟨new₂, hnew₂⟩ := h₂.problems
  simp only [Documentation.newProblems, ← hnew₂, ← hnew₁, List.append_assoc, List.drop_left]
  rw [← List.append_assoc, List.drop_left]

/-- What is reported in a last step comes at the end. -/
theorem newProblems_of_problems {new : List Problem} (h : d.Evolves d₁)
    (hnew : d₂.problems = d₁.problems ++ new) : d.newProblems d₂ = d.newProblems d₁ ++ new := by
  obtain ⟨new₁, hnew₁⟩ := h.problems
  simp only [Documentation.newProblems, hnew, ← hnew₁, List.append_assoc, List.drop_left]

/-- What is reported stays reported. -/
theorem newProblems_subset (h₁ : d.Evolves d₁) (h₂ : d₁.Evolves d₂) :
    d.newProblems d₁ ⊆ d.newProblems d₂ := by
  rw [newProblems_append h₁ h₂]
  exact List.subset_append_left _ _

/-- A report adds a problem at the end. -/
theorem report (p : Problem) (d : Documentation) : d.Evolves (d.report p) :=
  { refl d with problems := List.prefix_append _ _ }

theorem reportIf (condition : Bool) (p : Problem) (d : Documentation) :
    d.Evolves (d.reportIf condition p) := by
  unfold Documentation.reportIf
  split
  · exact report p d
  · exact refl d

end Documentation.Evolves

namespace Workspace

/-- A workspace as it may be later on in the completion: the setting is the same, no documentation
is added, and each evolves. -/
structure Evolves (w w₁ : Workspace) : Prop where
  setting : w₁.setting = w.setting
  size : w₁.documents.size = w.documents.size
  documents : ∀ d, (w.document d).Evolves (w₁.document d)

section
variable {w w₁ w₂ : Workspace}

namespace Evolves

theorem refl (w : Workspace) : w.Evolves w where
  setting := rfl
  size := rfl
  documents _ := .refl _

theorem trans (h₁ : w.Evolves w₁) (h₂ : w₁.Evolves w₂) : w.Evolves w₂ where
  setting := h₂.setting.trans h₁.setting
  size := h₂.size.trans h₁.size
  documents d := (h₁.documents d).trans (h₂.documents d)

theorem config (h : w.Evolves w₁) : w₁.config = w.config :=
  congrArg Setting.config h.setting

theorem package (h : w.Evolves w₁) : w₁.package = w.package :=
  congrArg Setting.package h.setting

theorem lookUp (h : w.Evolves w₁) (key : ItemKey) : w₁.lookUp key = w.lookUp key :=
  lookUp_congr h.setting key

end Evolves

/-- A workspace evolves if one documentation does. -/
theorem Touches.evolves {id : DocId} {f : Documentation → Documentation} (h : Touches id f w w₁)
    (hf : ∀ d : Documentation, d.Evolves (f d)) : w.Evolves w₁ where
  setting := h.setting
  size := h.size
  documents d := by
    by_cases hd : d = id
    · subst hd
      by_cases hlt : d < w.documents.size
      · rw [h.document_self hlt]
        exact hf _
      · rw [document_of_size_le (Nat.le_of_not_lt hlt),
          document_of_size_le (h.size ▸ Nat.le_of_not_lt hlt)]
        exact .refl _
    · rw [h.document_ne hd]
      exact .refl _

end

end Workspace

end ApiDoc
