import ApiDoc.Proofs.Completion.Balance
import ApiDoc.Proofs.Inheritance.Cycle
import ApiDoc.Proofs.Inheritance.Final

/-!
# Packages that match

Two packages match if they hold the same documentations under other numbers (`Workspace.Matches`):
a relation pairs the numbers, paired documentations are equal, and every reference leads to paired
ones. Then inheritance graphs match as well (`Workspace.Matches.acyclic`), and what the completion
makes of paired documentations from which no cycle is reached is the same, in whatever order each
package is completed. Main statement: `Workspace.Matches.document_eq`.

The induction is along the requests of one package. It ends since no request is circular, and a
completed documentation is what its requests make of it.
-/

namespace ApiDoc

open Workspace

/-- Two lookups with the same outcome, up to the numbers of documentations that are paired. -/
inductive Resolution.Matches (R : DocId → DocId → Prop) : Resolution → Resolution → Prop
  /-- Both lead to documentations of the package. -/
  | own (kind : ItemKind) {d d' : DocId} (h : R d d') :
      Matches R (.found (.own kind d)) (.found (.own kind d'))
  /-- Both lead to the same item of another package. -/
  | external (item : ResolvedItem) : Matches R (.found (.external item)) (.found (.external item))
  /-- Both lead nowhere. -/
  | missing (warning : Option Warning) : Matches R (.missing warning) (.missing warning)

/-- Two requests that amount to the same, up to the numbers of documentations that are paired. -/
inductive Lead.Matches (R : DocId → DocId → Prop) : Lead → Lead → Prop
  /-- Both lead to documentations of the package. -/
  | own (kind : ItemKind) {d d' : DocId} (h : R d d') : Matches R (.own kind d) (.own kind d')
  /-- Neither leads to the package. -/
  | same {lead : Lead} (h : ∀ kind d, lead ≠ .own kind d) : Matches R lead lead

/-- Two packages hold the same documentations under paired numbers, with the same settings and
references. -/
structure Workspace.Matches (R : DocId → DocId → Prop) (w w' : Workspace) : Prop where
  config : w'.config = w.config
  inside : ∀ {d d'}, R d d' → d < w.documents.size ∧ d' < w'.documents.size
  document : ∀ {d d'}, R d d' → w'.document d' = w.document d
  lookUp : ∀ key, (w.lookUp key).Matches R (w'.lookUp key)
  unique : ∀ {a b d'}, R a d' → R b d' → a = b

section
variable {R : DocId → DocId → Prop} {w w' w₁ w₁' : Workspace} {d d' : DocId} {e : Edge}

theorem Resolution.Matches.warnings {r r' : Resolution} (h : r.Matches R r') :
    r'.warnings = r.warnings := by
  cases h <;> rfl

theorem Lead.Matches.warnings {lead lead' : Lead} (h : lead.Matches R lead') :
    lead'.warnings = lead.warnings := by
  cases h <;> rfl

/-- Without cycles, a request of a completed documentation was not reported as circular. -/
theorem Workspace.ReportsCycles.not_reported (h : w.ReportsCycles w₁ e.source)
    (hacyclic : w.Acyclic e.source) : ¬ w.Reported w₁ e := by
  intro hreported
  obtain ⟨target, edges, hcycle⟩ := h e.content hreported
  exact hacyclic _ edges hcycle (.refl _)

namespace Workspace.Matches

/-! ## References -/

/-- The verdicts on links are the same. -/
theorem verdict (h : Matches R w w') : w'.verdict = w.verdict := by
  funext key
  have hlookUp := h.lookUp key
  unfold Workspace.verdict
  rw [h.config]
  generalize w.lookUp key = r, w'.lookUp key = r' at hlookUp
  cases hlookUp with
  | @own kind d d' hR =>
    have hview : w'.view (.own kind d') = w.view (.own kind d) :=
      congrArg (fun d => d.resolved kind) (h.document hR)
    exact congrArg (fun item : ResolvedItem =>
      if w.config.restrictedTags.contains item.releaseTag then LinkStatus.restricted
      else .resolved) hview
  | external item => rfl
  | missing warning => rfl

theorem lead (h : Matches R w w') (content : Text) :
    (w.lead content).Matches R (w'.lead content) := by
  unfold Workspace.lead
  split
  · exact .same fun _ _ => Lead.noConfusion
  · split
    · exact .same fun _ _ => Lead.noConfusion
    · next key _ =>
      have hlookUp := h.lookUp key
      generalize w.lookUp key = r, w'.lookUp key = r' at hlookUp
      cases hlookUp with
      | own kind hR => exact .own kind hR
      | external item => exact .same fun _ _ => Lead.noConfusion
      | missing warning => exact .same fun _ _ => Lead.noConfusion

/-- What a documentation owes is the same. -/
theorem owed (h : Matches R w w') : w'.owed = w.owed := by
  funext d
  unfold Workspace.owed
  simp only [(h.lookUp _).warnings, (h.lead _).warnings]

theorem opening (h : Matches R w w') (hR : R d d') : w'.opening d' = w.opening d := by
  unfold Workspace.opening
  rw [h.document hR, h.verdict]

/-! ## The inheritance graph -/

/-- A walk from a paired documentation is a walk of the other package as well. -/
theorem exists_walk (h : Matches R w w') (hR : R d d') {edges' : List Edge} {b' : DocId}
    (hwalk : w'.Walk d' edges' b') :
    ∃ edges b, w.Walk d edges b ∧ R b b' ∧ edges.length = edges'.length := by
  induction hwalk generalizing d with
  | nil => exact ⟨[], d, .nil, hR, rfl⟩
  | @cons e' edges' b' hedge _ ih =>
    obtain ⟨hqueued, kind, hlead'⟩ := inherits_iff.1 hedge
    have hlead := h.lead e'.content
    rw [hlead'] at hlead
    generalize hmatch : w.lead e'.content = lead at hlead
    cases hlead with
    | own _ htarget =>
      obtain ⟨edges, b, hwalk, hb, hlength⟩ := ih htarget
      have hinherits : w.Inherits ⟨d, e'.content, _⟩ :=
        inherits_iff.2 ⟨h.document hR ▸ hqueued, kind, hmatch⟩
      exact ⟨_ :: edges, b, .cons hinherits hwalk, hb, congrArg (· + 1) hlength⟩
    | same hown => exact absurd rfl (hown _ _)

/-- No cycle is reached from a documentation if none is reached from its partner. -/
theorem acyclic (h : Matches R w w') (hR : R d d') (hacyclic : w.Acyclic d) : w'.Acyclic d' := by
  intro e' edges' hcycle hreaches
  obtain ⟨path', hpath'⟩ := hreaches
  obtain ⟨path, a, hpath, ha, -⟩ := h.exists_walk hR hpath'
  obtain ⟨a', hclosed'⟩ := hcycle.closed
  cases hclosed' with
  | cons hedge' hrest' =>
    obtain ⟨edges, b, hclosed, hb, hlength⟩ := h.exists_walk ha (.cons hedge' hrest')
    cases h.unique hb ha
    cases hclosed with
    | nil => cases hlength
    | @cons e edges _ hedge hrest =>
      obtain ⟨cycle, hcycle⟩ := hedge.exists_cycle ⟨edges, hrest⟩
      exact hacyclic e cycle hcycle ⟨path, hpath⟩

/-! ## The completion -/

/-- A request is met in the same way if the target shows the same in the end. -/
theorem fulfil {content : Text} (hlead : (w₁.lead content).Matches R (w₁'.lead content))
    (htarget : ∀ {kind source source'}, w₁.lead content = .own kind source → R source source' →
      w₁'.lead content = .own kind source' → w₁'.document source' = w₁.document source)
    (d : Documentation) : w₁'.fulfil d content = w₁.fulfil d content := by
  unfold Workspace.fulfil
  generalize w₁.lead content = lead, w₁'.lead content = lead' at hlead htarget
  cases hlead with
  | own kind hR => simp only [view, htarget rfl hR rfl]
  | same hown => cases lead with
    | own kind source => exact absurd rfl (hown kind source)
    | blank | malformed | nowhere | external => rfl

/-- The completion makes the same of paired documentations from which no cycle is reached, in
whatever order the two packages are completed. -/
theorem document_eq {ids ids' : List DocId} (h : Matches R w w') (hw : w.Fresh) (hw' : w'.Fresh)
    (hcompletes : Completes ids w w₁) (hcompletes' : Completes ids' w' w₁') (hR : R d d')
    (hacyclic : w.Acyclic d) (hdone : (w₁.document d).state = .done)
    (hdone' : (w₁'.document d').state = .done) : w₁'.document d' = w₁.document d := by
  have hgrounded := (grounded_invariant w).of_fresh hw hcompletes d hdone
  induction hgrounded generalizing d' with
  | intro d _ ih =>
    obtain ⟨htargets, hdocument⟩ :=
      (final_invariant w).of_fresh hw hcompletes d hdone (h.inside hR).1 hacyclic
    obtain ⟨htargets', hdocument'⟩ :=
      (final_invariant w').of_fresh hw' hcompletes' d' hdone' (h.inside hR).2
        (h.acyclic hR hacyclic)
    rw [hdocument, hdocument', h.document hR, h.config, h.opening hR]
    refine congrArg _ (List.foldl_rel (r := Eq) rfl fun content hqueued a b heq => ?_)
    rw [heq]
    refine fulfil (R := R) ?_ ?_ b
    · rw [hcompletes.evolves.lead, hcompletes'.evolves.lead]
      exact h.lead content
    · intro kind source source' hlead hsource hlead'
      rw [hcompletes.evolves.lead] at hlead
      rw [hcompletes'.evolves.lead] at hlead'
      have hedge : w.Inherits ⟨d, content, source⟩ := inherits_iff.2 ⟨hqueued, kind, hlead⟩
      have hreports := (reportsCycles_invariant w).of_fresh hw hcompletes d hdone
      refine ih source ⟨_, hedge, rfl, rfl, ReportsCycles.not_reported hreports hacyclic⟩ hsource
        (Acyclic.target hacyclic hedge) (htargets content hqueued kind source hlead) ?_
      exact htargets' content (h.document hR ▸ hqueued) kind source' hlead'

end Workspace.Matches

end

end ApiDoc
