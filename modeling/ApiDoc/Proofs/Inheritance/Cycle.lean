import ApiDoc.Proofs.Inheritance.Visiting

/-!
# Circular requests

Which requests to inherit are reported as circular. A reported request lies on a cycle of the
inheritance graph: it leads to a documentation in progress, and from there a walk leads back to it.
And every cycle has a reported request, since without the reported ones the requests of a completed
documentation lead to completed documentations only, which were completed earlier (`Grounded`). Main
statement: `Action.perform_reports_cycles`, both for every order of completion.
-/

namespace ApiDoc

open Workspace

section
variable {w₀ w w₁ : Workspace} {id : DocId} {e : Edge} {p : Problem} {content : Text}
  {new : List Problem}

/-- A request was reported as circular in the completion of `w₀` up to `w`. -/
def Workspace.Reported (w₀ w : Workspace) (e : Edge) : Prop :=
  .circularInheritDoc e.content ∈ (w₀.document e.source).newProblems (w.document e.source)

/-- Every request of a documentation that was reported as circular lies on a cycle. -/
def Workspace.ReportsCycles (w₀ w : Workspace) (id : DocId) : Prop :=
  ∀ content, .circularInheritDoc content ∈ (w₀.document id).newProblems (w.document id) →
    ∃ target edges, w₀.IsCycle (⟨id, content, target⟩ :: edges)

/-- A request that was not reported as circular leads from one documentation to another. -/
def Workspace.Leads (w₀ w : Workspace) (b a : DocId) : Prop :=
  ∃ e, w₀.Inherits e ∧ e.source = a ∧ e.target = b ∧ ¬ w₀.Reported w e

/-- Along requests that were not reported as circular one comes to an end. -/
def Workspace.Grounded (w₀ w : Workspace) (id : DocId) : Prop :=
  Acc (w₀.Leads w) id

/-- What was reported stays reported. -/
theorem Workspace.Reported.later (h : w₀.Reported w e) (hw : w₀.Evolves w) (hw₁ : w.Evolves w₁) :
    w₀.Reported w₁ e :=
  (hw.documents e.source).newProblems_subset (hw₁.documents e.source) h

theorem Workspace.Grounded.later (h : w₀.Grounded w id) (hw : w₀.Evolves w) (hw₁ : w.Evolves w₁) :
    w₀.Grounded w₁ id := by
  refine Subrelation.accessible ?_ h
  rintro b a ⟨e, hedge, hsource, htarget, hreported⟩
  exact ⟨e, hedge, hsource, htarget, fun h => hreported (h.later hw hw₁)⟩

/-! ## A reported request lies on a cycle -/

/-- A step that reports no circular request. -/
theorem Workspace.ReportsCycles.step (h : w₀.ReportsCycles w id) (hw : w₀.Evolves w)
    (hproblems : (w₁.document id).problems = (w.document id).problems ++ new)
    (hnew : ∀ content, .circularInheritDoc content ∉ new) : w₀.ReportsCycles w₁ id := by
  intro content hmem
  rw [(hw.documents id).newProblems_of_problems hproblems] at hmem
  exact h content ((List.mem_append.1 hmem).resolve_right (hnew content))

theorem reportsCycles_of_eq (h : w.document id = w₀.document id) : w₀.ReportsCycles w id := by
  intro content hmem
  rw [h, Documentation.newProblems_self] at hmem
  cases hmem

/-- All through a completion, what is reported as circular lies on a cycle. -/
theorem reportsCycles_invariant (w₀ : Workspace) :
    Invariant w₀ w₀.ReportsCycles w₀.ReportsCycles where
  outside {w d} hw hd := by
    refine reportsCycles_of_eq ?_
    rw [document_of_size_le hd, document_of_size_le (hw.size ▸ hd)]
  begin {w id} hv hstate := by
    have hproblems := congrArg Documentation.problems (Visiting.document_begun hstate)
    rw [Documentation.settleLinks, Documentation.problems_settleAll] at hproblems
    refine (reportsCycles_of_eq (hv.untouched id hstate)).step hv.evolves hproblems ?_
    intro content hmem
    cases List.eq_of_mem_replicate hmem
  answer {w id content rest} hv hpending hnow hbegun := by
    intro reported hmem
    have hproblems : (((w.popped id).answered id content).document id).problems =
        (w.document id).problems ++ (w.lead content).problems content := by
      rw [hv.document_answered, Documentation.problems_answer]
      rfl
    rw [(hv.evolves.documents id).newProblems_of_problems hproblems] at hmem
    rcases List.mem_append.1 hmem with hmem | hmem
    · exact hbegun reported hmem
    · cases hlead : w.lead content with
      | own kind source =>
        rw [hlead] at hmem
        cases List.mem_singleton.1 hmem
        exact ⟨source, hv.exists_cycle hpending hlead (hnow kind source hlead)⟩
      | blank | malformed | nowhere | external => simp [hlead, Lead.problems] at hmem
  inherit {w w₁ id content rest kind source} hv _ _ _ hsame _ _ hbegun := by
    have hproblems : ((w₁.copied id kind source).document id).problems =
        (w.document id).problems ++ [] := by
      rw [hv.document_copied hsame]
      exact (List.append_nil _).symm
    exact hbegun.step hv.evolves hproblems fun _ hmem => absurd hmem List.not_mem_nil
  conclude {w id} hv _ hbegun := by
    have hproblems := congrArg Documentation.problems hv.document_concluded
    rw [Documentation.problems_conclude] at hproblems
    refine hbegun.step hv.evolves hproblems ?_
    intro content hmem
    split at hmem
    · cases List.mem_singleton.1 hmem
    · cases hmem
  stable {w w₁ d} _ hpreserves hstate hdone := by
    intro content hmem
    rw [hpreserves.done d hstate] at hmem
    exact hdone content hmem

/-! ## Every cycle has a reported request -/

/-- The requests of a documentation that are met lead to grounded documentations or were
reported. -/
def Workspace.MeetsRequests (w₀ w : Workspace) (id : DocId) : Prop :=
  ∀ e, w₀.Inherits e → e.source = id →
    e.content ∈ (w.document id).pendingInheritDocs ∨ w₀.Reported w e ∨ w₀.Grounded w e.target

/-- A step that meets the first request of a documentation. -/
theorem Workspace.MeetsRequests.step {rest : List Text} (h : w₀.MeetsRequests w id)
    (hw : w₀.Evolves w) (hw₁ : w.Evolves w₁)
    (hpending : (w.document id).pendingInheritDocs = content :: rest)
    (hrest : (w₁.document id).pendingInheritDocs = rest)
    (hmet : ∀ e, w₀.Inherits e → e.source = id → e.content = content →
      w₀.Reported w₁ e ∨ w₀.Grounded w₁ e.target) : w₀.MeetsRequests w₁ id := by
  intro e hedge hsource
  rcases h e hedge hsource with hmem | hreported | hgrounded
  · rw [hpending] at hmem
    rcases List.mem_cons.1 hmem with heq | hmem
    · exact .inr (hmet e hedge hsource heq)
    · exact .inl (hrest ▸ hmem)
  · exact .inr (.inl (hreported.later hw hw₁))
  · exact .inr (.inr (hgrounded.later hw hw₁))

/-- The target of a request is the one that it leads to at any stage. -/
theorem Workspace.Evolves.target_eq {kind : ItemKind} {source : DocId} (hw : w₀.Evolves w)
    (hedge : w₀.Inherits e) (hlead : w.lead e.content = .own kind source) : e.target = source := by
  obtain ⟨-, kind', hlead'⟩ := inherits_iff.1 hedge
  rw [hw.lead, hlead'] at hlead
  cases hlead
  rfl

/-- All through a completion, what is completed is grounded. -/
theorem grounded_invariant (w₀ : Workspace) :
    Invariant w₀ w₀.MeetsRequests w₀.Grounded where
  outside {w d} hw hd := by
    refine Acc.intro d fun b hb => ?_
    obtain ⟨e, hedge, rfl, -⟩ := hb
    have hqueued := hedge.queued
    rw [document_of_size_le hd] at hqueued
    cases hqueued
  begin {w id} hv hstate := by
    intro e hedge hsource
    refine .inl ?_
    rw [pendingInheritDocs_begun, hv.untouched id hstate, ← hsource]
    exact hedge.queued
  answer {w id content rest} hv hpending _ hbegun := by
    have hanswered := (preserves_answered hv.popped.inProgress content).evolves
    have hpopped := (preserves_popped hv.inProgress).evolves
    refine hbegun.step hv.evolves (hpopped.trans hanswered) hpending ?_
      fun e hedge hsource hcontent => .inl ?_
    · rw [pendingInheritDocs_answered, pendingInheritDocs_popped hpending]
    · -- the request leads to the package, so it is answered with a report
      obtain ⟨-, kind, hlead⟩ := inherits_iff.1 hedge
      have hproblems : (((w.popped id).answered id content).document id).problems =
          (w.document id).problems ++ [.circularInheritDoc content] := by
        rw [hv.document_answered, Documentation.problems_answer, hv.evolves.lead, ← hcontent, hlead]
        rfl
      unfold Workspace.Reported
      rw [hsource, (hv.evolves.documents id).newProblems_of_problems hproblems, hcontent]
      exact List.mem_append_right _ List.mem_cons_self
  inherit {w w₁ id content rest kind source} hv hpending hlead hpreserves hsame _ hsource
      hbegun := by
    have hpopped := (preserves_popped hv.inProgress).evolves.trans hpreserves.evolves
    have hactive : (w₁.document id).state = .inProgress := by
      rw [hsame]
      exact hv.popped.inProgress
    have hcopied := (preserves_copied hactive kind source).evolves
    refine hbegun.step hv.evolves (hpopped.trans hcopied) hpending ?_
      fun e hedge _ hcontent => .inr ?_
    · rw [pendingInheritDocs_copied, hsame, pendingInheritDocs_popped hpending]
    · rw [hv.evolves.target_eq hedge (hcontent ▸ hlead)]
      exact hsource.later (hv.evolves.trans hpopped) hcopied
  conclude {w id} hv hpending hbegun := by
    have hconcluded := (preserves_concluded hv.inProgress).evolves
    refine Acc.intro id fun b hb => ?_
    obtain ⟨e, hedge, hsource, rfl, hunreported⟩ := hb
    rcases hbegun e hedge hsource with hmem | hreported | hgrounded
    · rw [hpending] at hmem
      cases hmem
    · exact absurd (hreported.later hv.evolves hconcluded) hunreported
    · exact hgrounded.later hv.evolves hconcluded
  stable hw hpreserves _ hdone := hdone.later hw hpreserves.evolves

/-- A closed walk through a grounded documentation has a reported request. -/
theorem Workspace.Grounded.exists_reported (h : w₀.Grounded w id) {edges : List Edge}
    (hwalk : w₀.Walk id edges id) (hne : edges ≠ []) : ∃ e ∈ edges, w₀.Reported w e := by
  -- the walk is turned: it begins at the target of its first request
  induction h generalizing edges with
  | intro a _ ih =>
    cases hwalk with
    | nil => exact absurd rfl hne
    | @cons e edges _ hedge hrest =>
      by_cases hreported : w₀.Reported w e
      · exact ⟨e, List.mem_cons_self, hreported⟩
      · obtain ⟨e₁, he₁, hreported₁⟩ := ih e.target ⟨e, hedge, rfl, rfl, hreported⟩
          (hrest.append (.cons hedge .nil)) (by simp)
        exact ⟨e₁, by simpa [or_comm] using he₁, hreported₁⟩

end

/-- Calls that complete every item report requests as circular that lie on a cycle, and of every
cycle at least one, even of one that passes through a documentation twice. -/
theorem Action.perform_reports_cycles (w : Workspace) (hw : w.Fresh) (hq : w.Quiet)
    (calls : List Call) (hcalls : ∀ item ∈ w.package.items, item.doc ∈ w.named calls) :
    ∃ w₁, (perform calls).run w = (.ok (), w₁) ∧
      (∀ d content,
        .circularInheritDoc content ∈ (w.document d).newProblems (w₁.document d) →
        ∃ target edges, w.IsCycle (⟨d, content, target⟩ :: edges)) ∧
      ∀ a edges, edges ≠ [] → w.Walk a edges a → ∃ e ∈ edges, .circularInheritDoc e.content ∈
        (w.document e.source).newProblems (w₁.document e.source) := by
  obtain ⟨w₁, hrun, hcompletes⟩ := run_perform hq calls
  refine ⟨w₁, hrun, fun d => ?_, fun a edges hne hwalk => ?_⟩
  · rcases hcompletes.state_of_fresh hw d with hstate | hstate
    · exact reportsCycles_of_eq (hcompletes.document_eq_of_unvisited hstate)
    · exact (reportsCycles_invariant w).of_fresh hw hcompletes d hstate
  · cases hwalk with
    | nil => exact absurd rfl hne
    | @cons e edges _ hedge hrest =>
      obtain ⟨item, hitem, htarget⟩ := hedge.exists_item
      have hdone := hcompletes.done_of_mem hw (hcalls item hitem)
      rw [htarget] at hdone
      have hgrounded := (grounded_invariant w).of_fresh hw hcompletes e.target hdone
      obtain ⟨e₁, he₁, hreported⟩ := hgrounded.exists_reported
        (hrest.append (.cons hedge .nil)) (by simp)
      exact ⟨e₁, by simpa [or_comm] using he₁, hreported⟩

/-- Two functions that inherit from each other. -/
def Workspace.mutualPair : Workspace where
  package := {
    name := some "p".toList
    exports := [("f".toList, .mk "f".toList .function 0 []),
      ("g".toList, .mk "g".toList .function 1 [])] }
  identity := none
  config := {}
  documents := #[{ pendingInheritDocs := ["g".toList] }, { pendingInheritDocs := ["f".toList] }]

theorem Action.perform_mutualPair_reports_cycle : mutualPair.Fresh ∧ mutualPair.Quiet ∧
    (∀ item ∈ mutualPair.package.items, item.doc ∈ mutualPair.named [.item 1, .all]) ∧
    ∃ w₁, (perform [.item 1, .all]).run mutualPair = (.ok (), w₁) ∧
      ∃ e ∈ [Edge.mk 0 "g".toList 1, Edge.mk 1 "f".toList 0],
        .circularInheritDoc e.content ∈
          (mutualPair.document e.source).newProblems (w₁.document e.source) := by
  have hwalk : mutualPair.Walk 0 [Edge.mk 0 "g".toList 1, Edge.mk 1 "f".toList 0] 0 := by
    have hfg : mutualPair.Inherits (Edge.mk 0 "g".toList 1) :=
      inherits_iff.2 ⟨by decide, .function, by decide⟩
    have hgf : mutualPair.Inherits (Edge.mk 1 "f".toList 0) :=
      inherits_iff.2 ⟨by decide, .function, by decide⟩
    exact .cons hfg (.cons hgf .nil)
  obtain ⟨w₁, hrun, -, hcycles⟩ := perform_reports_cycles mutualPair (by decide) (by decide)
    [.item 1, .all] (by decide)
  exact ⟨by decide, by decide, by decide, w₁, hrun, hcycles 0 _ (by simp) hwalk⟩

end ApiDoc
