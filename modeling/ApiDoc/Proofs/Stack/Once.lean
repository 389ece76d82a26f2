import ApiDoc.Proofs.Stack.Calls
import ApiDoc.Proofs.Inheritance.Cycle

/-!
# All work is done once

With a patient listener, calls that end with the one for the whole package come to an end in a
bounded number of steps, whatever the inheritance graph is. No documentation is entered twice, and
of every item each link was looked up and each request was met, once and in the order of the comment
(`Workspace.CompletedOnce`). After that calls change nothing. Main statement:
`Action.perform_completes_once`.

What was entered and met is read off the steps; that nothing is left in the queues is an invariant.
-/

namespace ApiDoc

open Workspace

namespace Workspace

/-- The completion of a documentation by some steps: it is entered once, and what its comment put
into the queues is dealt with once and in order, until nothing is left. -/
structure CompletedOnce (w : Workspace) (steps : Trace) (w₁ : Workspace) (d : DocId) : Prop where
  done : (w₁.document d).state = .done
  entered : d < w.documents.size → steps.entries d = 1
  noLinks : (w₁.document d).pendingLinks = []
  settled : (w₁.document d).settledLinks = (w.document d).settledLinks ++
    (w.document d).pendingLinks.map fun link => (link, w.verdict link.target)
  noRequests : (w₁.document d).pendingInheritDocs = []
  met : steps.met d = (w.document d).pendingInheritDocs

/-- The links of a documentation were looked up in the completion of `w₀` up to `w`, each once. -/
structure LooksUpLinks (w₀ w : Workspace) (id : DocId) : Prop where
  drained : (w.document id).pendingLinks = []
  settled : (w.document id).settledLinks = (w₀.document id).settledLinks ++
    (w₀.document id).pendingLinks.map fun link => (link, w₀.verdict link.target)

end Workspace

section
variable {w₀ w w₁ : Workspace} {id : DocId} {steps : Trace} {calls : List Call}

/-- A change that leaves the links of a documentation alone. -/
theorem Workspace.LooksUpLinks.later (h : w₀.LooksUpLinks w id)
    (hpending : (w₁.document id).pendingLinks = (w.document id).pendingLinks)
    (hsettled : (w₁.document id).settledLinks = (w.document id).settledLinks) :
    w₀.LooksUpLinks w₁ id :=
  ⟨hpending.trans h.drained, hsettled.trans h.settled⟩

/-- All through a completion, the links of what is begun were looked up, and nothing is left in the
queues of what is completed. -/
theorem drained_invariant (w₀ : Workspace) : Invariant w₀ w₀.LooksUpLinks fun w d =>
    w₀.LooksUpLinks w d ∧ (w.document d).pendingInheritDocs = [] where
  outside {w d} hw hd := by
    have hempty := document_of_size_le (w := w) (hw.size ▸ hd)
    refine ⟨⟨?_, ?_⟩, ?_⟩ <;> rw [hempty]
    rw [document_of_size_le hd]
    rfl
  begin {w id} hv hstate := by
    have hdocument := Visiting.document_begun hstate
    rw [hv.untouched id hstate, hv.evolves.verdict, Documentation.settleLinks,
      Documentation.settleAll_eq] at hdocument
    constructor <;> rw [hdocument]
    · exact List.drop_length
    · rfl
  answer {w id content rest} hv _ _ hbegun := by
    have hlinks := (w.document id).dropInheritDoc.links_answer content (w.lead content)
    refine hbegun.later ?_ ?_ <;> rw [hv.document_answered]
    · exact hlinks.1
    · exact hlinks.2
  inherit {w w₁ id content rest kind source} hv _ _ _ hsame _ _ hbegun := by
    refine hbegun.later ?_ ?_ <;> rw [hv.document_copied hsame] <;> rfl
  conclude {w id} hv hpending hbegun := by
    have hlinks := (w.document id).links_conclude w.config.enforceInheritedDeprecation
    refine ⟨hbegun.later ?_ ?_, ?_⟩ <;> rw [hv.document_concluded]
    · exact hlinks.1
    · exact hlinks.2.1
    · exact hlinks.2.2.trans hpending
  stable {w w₁ d} _ hpreserves hstate hdone := by
    rw [hpreserves.done d hstate]
    exact ⟨hdone.1.later (by rw [hpreserves.done d hstate]) (by rw [hpreserves.done d hstate]),
      hdone.2⟩

/-- After the call for the whole package that is declared complete. -/
theorem RunsCalls.isComplete_of_all (h : RunsCalls (calls ++ [.all]) w steps w₁) :
    w₁.isComplete = true := by
  induction calls generalizing w steps with
  | nil =>
    cases h with
    | cons _ hrest =>
      cases hrest
      rfl
  | cons call calls ih =>
    cases h with
    | cons _ hrest => exact ih hrest

/-- Calls name the same documentations all through the completion. -/
theorem Workspace.Evolves.named (h : w.Evolves w₁) (calls : List Call) :
    w₁.named calls = w.named calls := by
  have hdocuments : Call.documents w₁ = Call.documents w := by
    funext call
    cases call with
    | item doc => rfl
    | all => rw [Call.documents, Call.documents, h.package]
  rw [Workspace.named, Workspace.named, hdocuments]

namespace Action

/-- Completing documentations that were begun before does nothing. -/
theorem run_forM_complete_of_begun {items : List Item}
    (hbegun : ∀ item ∈ items, (w.document item.doc).state ≠ .unvisited) :
    (items.forM fun item => complete item.doc).run w = (.ok (), w) := by
  induction items with
  | nil => rfl
  | cons item items ih =>
    obtain ⟨hitem, hitems⟩ := List.forall_mem_cons.1 hbegun
    exact (run_bind_ok (run_complete_of_begun hitem)).trans (ih hitems)

/-- In a package that is declared complete, calls for documentations that were begun before do
nothing. -/
theorem run_perform_of_begun (hcomplete : w.isComplete = true)
    (hbegun : ∀ d ∈ w.named calls, (w.document d).state ≠ .unvisited) :
    (perform calls).run w = (.ok (), w) := by
  have hcall (call : Call) (hdocuments : ∀ d ∈ call.documents w, (w.document d).state ≠ .unvisited) :
      call.perform.run w = (.ok (), w) := by
    cases call with
    | item doc => exact run_complete_of_begun (hdocuments doc List.mem_cons_self)
    | all =>
      have hitems := run_forM_complete_of_begun fun item hitem =>
        hdocuments item.doc (List.mem_map_of_mem hitem)
      change completeAll.run w = _
      unfold completeAll
      rw [run_bind_ok (run_get w), run_bind_ok hitems, run_modify, ← hcomplete]
  induction calls with
  | nil => rfl
  | cons call calls ih =>
    have hnamed : w.named (call :: calls) = call.documents w ++ w.named calls := rfl
    obtain ⟨hdocuments, hrest⟩ := List.forall_mem_append.1 (hnamed ▸ hbegun)
    exact (run_bind_ok (hcall call hdocuments)).trans (ih hrest)

/-- Calls that end with the one for the whole package come to an end, in so many steps at most as
there are two for each documentation and two for each request. No documentation is entered twice,
every item is completed once with nothing left in its queues, and further calls for what was named
change nothing. -/
theorem perform_completes_once (w : Workspace) (hw : w.Fresh) (hq : w.Quiet) (calls : List Call) :
    ∃ w₁ steps, (perform (calls ++ [.all])).run w = (.ok (), w₁) ∧
      RunsCalls (calls ++ [.all]) w steps w₁ ∧ steps.length ≤ w.workload ∧
      (∀ d, steps.entries d ≤ 1) ∧
      (∀ item ∈ w.package.items, w.CompletedOnce steps w₁ item.doc) ∧
      ∀ more, w.named more ⊆ w.named (calls ++ [.all]) → (perform more).run w₁ = (.ok (), w₁) := by
  obtain ⟨w₁, hrun, hcompletes⟩ := run_perform hq (calls ++ [.all])
  obtain ⟨steps, w₁', hcalls, hrun'⟩ := exists_runsCalls hw.idle hq (calls ++ [.all])
  cases hrun.symm.trans hrun'
  have haccounts := hcalls.accounts hw.idle
  refine ⟨w₁, steps, hrun, hcalls, ?_, fun d => ?_, fun item hitem => ?_, fun more hmore => ?_⟩
  · have hlength := hcalls.length_add_potential_le hw.idle
    have hworkload := w.potential_le_workload
    omega
  · have hentries := haccounts.entries d
    split at hentries <;> split at hentries <;> omega
  · have hdone := hcompletes.done_of_mem hw (mem_named_of_all (by simp) hitem)
    obtain ⟨hlinks, hrequests⟩ := (drained_invariant w).of_fresh hw hcompletes item.doc hdone
    refine ⟨hdone, fun hlt => ?_, hlinks.drained, hlinks.settled, hrequests, ?_⟩
    · have hentries := haccounts.entries item.doc
      rwa [hdone, hw item.doc hlt] at hentries
    · have hmet := haccounts.requests item.doc
      rw [hrequests, List.append_nil] at hmet
      exact hmet.symm
  · refine run_perform_of_begun hcalls.isComplete_of_all fun d hd => ?_
    rw [hcompletes.evolves.named] at hd
    exact hcompletes.state_of_mem (hmore hd)

/-- Two functions that inherit from each other are completed once, in eight steps at most. -/
theorem perform_mutualPair_completes_once : mutualPair.Fresh ∧ mutualPair.Quiet ∧
    ∃ w₁ steps, (perform ([.item 1] ++ [.all])).run mutualPair = (.ok (), w₁) ∧
      steps.length ≤ 8 ∧ steps.entries 0 ≤ 1 ∧ mutualPair.CompletedOnce steps w₁ 1 ∧
      (perform [.all, .item 0]).run w₁ = (.ok (), w₁) := by
  obtain ⟨w₁, steps, hrun, -, hlength, hentries, hitems, hmore⟩ :=
    perform_completes_once mutualPair (by decide) (by decide) [.item 1]
  exact ⟨by decide, by decide, w₁, steps, hrun, hlength, hentries 0,
    hitems (.mk "g".toList .function 1 []) (List.mem_cons_of_mem _ List.mem_cons_self),
    hmore _ (by decide)⟩

end Action

end

end ApiDoc
